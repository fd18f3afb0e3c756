import LS8.Proofs.Relocation

set_option autoImplicit false

namespace LS8

namespace Engine

theorem pc_le_of_tick (engine : Engine) :
    engine.machine.pc ≤ (tick.run engine).state.machine.pc := by
  have seen := ticked engine
  generalize tick.run engine = outcome at seen ⊢
  cases seen with
  | halted reason stopped => exact Nat.le_refl _
  | ended running past => exact Nat.le_refl _
  | trapped trap running inside failed => exact Nat.le_refl _
  | retired done running inside completed =>
      have moved := Machine.pc_transition completed
      simp only [retire, moved]
      exact Nat.le_add_right ..

theorem pc_le_of_run (engine : Engine) :
    engine.machine.pc ≤ (run.run engine).state.machine.pc := by
  apply invariant_run (motive := fun reached => engine.machine.pc ≤ reached.machine.pc)
  · intro reached ahead
    exact Nat.le_trans ahead (pc_le_of_tick reached)
  · exact Nat.le_refl _

end Engine

namespace Machine

structure Code.Extends (code joined : Code) : Prop where
  programEnd : (code.programEnd : Nat) ≤ joined.programEnd
  bytes : ∀ address < (code.programEnd : Nat),
    joined.memory.byte? address = code.memory.byte? address

theorem Code.Extends.fetched {machine joined : Machine} {inst : Instruction}
    (extended : Code.Extends machine.code joined.code) (pc : joined.pc = machine.pc)
    (fetched : machine.fetched = .ok inst) (within : machine.pc + inst.width ≤ machine.programEnd) :
    joined.fetched = .ok inst := by
  rw [Machine.fetched, pc]
  apply Instruction.decode_of_agree fetched
  intro offset inside
  exact extended.bytes _ (Nat.lt_of_lt_of_le (Nat.add_lt_add_left inside _) within)

end Machine

namespace Engine

variable {engine joined : Engine}

theorem Follows.tick_of_extends (follows : Follows 0 {} engine joined)
    (extended : Machine.Code.Extends engine.machine.code joined.machine.code)
    (going : (Engine.tick.run engine).result = .ok .running)
    (within : (Engine.tick.run engine).state.machine.pc ≤ engine.machine.programEnd) :
    Relocates 0 {} (Engine.tick.run engine) (Engine.tick.run joined) ∧
      Machine.Code.Extends (Engine.tick.run engine).state.machine.code
        (Engine.tick.run joined).state.machine.code := by
  obtain ⟨inst, fetched, moved⟩ := fetched_of_tick_running going
  have inside := (pc_lt_of_tick_running going).1
  have longer := extended.programEnd
  have pc : joined.machine.pc = engine.machine.pc := follows.pc
  rw [moved] at within
  rw [code_tick follows.holds.growable, code_tick follows.holds.growable']
  refine ⟨follows.tick ?_ ?_, extended⟩
  · simp only [Machine.code] at longer
    rw [pc]
    omega
  · intro _
    rw [Instruction.movedAttempt_zero, fetched]
    exact extended.fetched pc fetched within

theorem tick_of_endOfProgram {result : Except (Failure Fault) HaltReason}
    (running : engine.state = .running)
    (final : concluded? (tick.run engine).result = some result)
    (ended : result = .ok .endOfProgram) :
    tick.run engine =
      ⟨{ engine with state := .halted .endOfProgram },
        [.event (.endOfProgram engine.machine.pc)], .ok (.halted .endOfProgram)⟩ := by
  subst ended
  have seen := ticked engine
  generalize tick.run engine = outcome at seen final ⊢
  cases seen with
  | halted reason stopped => simp [running] at stopped
  | ended running past => rfl
  | trapped trap running inside failed => cases final
  | retired done running inside completed =>
      rcases done.inst.flow_eq with flow | flow <;>
        simp [concluded?, Retirement.state, flow] at final

-- Where memory goes on behind the program, the run comes to an engine that is as the first run left
-- it, but has not halted.
theorem Follows.reaches_end (follows : Follows 0 {} engine joined)
    (extended : Machine.Code.Extends engine.machine.code joined.machine.code)
    (running : engine.state = .running)
    (ended : (Engine.run.run engine).result = .ok .endOfProgram)
    (whole : (Engine.run.run engine).state.machine.pc = engine.machine.programEnd) :
    ∃ (reached : Engine) (emitted : List Emission),
      Engine.run.run joined =
        ⟨(Engine.run.run reached).state, emitted ++ (Engine.run.run reached).emitted,
          (Engine.run.run reached).result⟩ ∧
      printedValues emitted = printedValues (Engine.run.run engine).emitted ∧
      reached.machine.code = joined.machine.code ∧
      Follows 0 {} { (Engine.run.run engine).state with state := .running } reached := by
  induction engine using run_induction generalizing joined with
  | last engine result final =>
      rw [run_concluded final] at ended ⊢
      rw [tick_of_endOfProgram running final ended]
      exact ⟨joined, [], rfl, rfl, rfl, { follows with state := follows.state.trans running }⟩
  | next engine going ih =>
      rw [run_running going] at ended whole ⊢
      have sameEnd := (pc_lt_of_tick_running going).2.2
      have within : (Engine.tick.run engine).state.machine.pc ≤ engine.machine.programEnd :=
        whole ▸ pc_le_of_run _
      obtain ⟨ticked, extended'⟩ := follows.tick_of_extends extended going within
      have going' : (Engine.tick.run joined).result = .ok .running := by
        rw [ticked.result, going]
        rfl
      have still := state_of_tick_running going
      obtain ⟨reached, emitted, came, printed, code, follows'⟩ :=
        ih ticked.engine extended' still ended (sameEnd ▸ whole)
      refine ⟨reached, (Engine.tick.run joined).emitted ++ emitted, ?_, ?_, ?_, follows'⟩
      · rw [run_running going', came, List.append_assoc]
      · rw [printedValues_append, printedValues_append, ticked.emitted.printed, printed]
      · rw [code, code_tick follows.holds.growable']

theorem extends_loaded {first second : List UInt8}
    (fits : first.length < memorySize + 1) (fits' : (first ++ second).length < memorySize + 1)
    (engine joined : Engine) :
    Machine.Code.Extends (engine.loaded first fits).machine.code
      (joined.loaded (first ++ second) fits').machine.code := by
  simp only [loaded, Machine.code]
  refine ⟨by simp only [List.length_append]; omega, ?_⟩
  intro address below
  simp only at below
  rw [Memory.byte?_overlay_zero below (by omega),
    Memory.byte?_overlay_zero (by rw [List.length_append]; omega) (by omega),
    List.getElem?_append_left below]

theorem printedValues_load (image : List UInt8) (engine : Engine) :
    printedValues ((load image).run engine).emitted = [] := by
  by_cases fits : image.length ≤ memorySize
  · rw [run_load fits]
    rfl
  · rw [run_load_error (Nat.lt_of_not_le fits)]
    rfl

theorem follows_reloaded {image : List UInt8} {reached : Engine}
    (follows : Follows 0 {} { engine with state := .running } reached)
    (entry : engine.machine.entry = 0) (fits : image.length < memorySize + 1) :
    Follows engine.machine.pc engine.tally (engine.loaded image fits) reached where
  holds := by
    have growable : engine.machine.placement = .growable := follows.holds.growable
    have registers : reached.machine.registers = engine.machine.registers :=
      follows.holds.registers
    have stack : reached.machine.stack = engine.machine.stack := follows.holds.stack
    constructor <;> simp only [loaded, growable, follows.holds.growable', registers, stack]
  pc := by
    have pc : reached.machine.pc = engine.machine.pc := follows.pc
    simp only [loaded, entry, pc, UInt8.toNat_zero, Nat.zero_add]
  tally := by
    have tally := follows.tally
    rw [Tally.fresh_add] at tally
    rw [tally]
    exact (Tally.add_fresh _).symm
  state := follows.state

theorem programs_compose (first second : List UInt8) (engine : Engine)
    (room : first.length + second.length + 2 ≤ memorySize)
    (growable : engine.machine.placement = .growable) (entry : engine.machine.entry = 0)
    (ended : (run.run ((load first).run engine).state).result = .ok .endOfProgram)
    (whole : (run.run ((load first).run engine).state).state.machine.pc = first.length) :
    let loading := (load first).run engine
    let running := run.run loading.state
    let reloading := (load second).run running.state
    let rerunning := run.run reloading.state
    let joining := (load (first ++ second)).run engine
    let joined := run.run joining.state
    loading.result = .ok () ∧
    reloading.result = .ok () ∧
    joining.result = .ok () ∧
    joined.state.machine.registers = rerunning.state.machine.registers ∧
    joined.state.machine.stack = rerunning.state.machine.stack ∧
    printedValues (joining.emitted ++ joined.emitted) =
      printedValues
        (loading.emitted ++ running.emitted ++ reloading.emitted ++ rerunning.emitted) ∧
    joined.result = rerunning.result.mapError (Failure.moved first.length) ∧
    joined.state.machine.pc = rerunning.state.machine.pc + first.length ∧
    joined.state.tally = running.state.tally.add rerunning.state.tally := by
  intro loading running reloading rerunning joining joined
  have fits : first.length ≤ memorySize := by omega
  have fits' : second.length ≤ memorySize := by omega
  have fits'' : (first ++ second).length ≤ memorySize := by
    rw [List.length_append]
    omega
  have placed : loading = _ := run_load fits engine
  have placed' : reloading = _ := run_load fits' running.state
  have placed'' : joining = _ := run_load fits'' engine
  -- The first part of the joined run ends where the first program does.
  have follows : Follows 0 {} loading.state joining.state := by
    rw [placed, placed'']
    exact follows_loaded _ _ ⟨growable, growable, rfl, rfl⟩ entry (by rw [entry]; rfl)
  have extended : Machine.Code.Extends loading.state.machine.code joining.state.machine.code := by
    rw [placed, placed'']
    exact extends_loaded _ _ engine engine
  have started : loading.state.state = .running := by rw [placed]; rfl
  have sameEnd : (loading.state.machine.programEnd : Nat) = first.length := by
    rw [placed]
    simp only [loaded]
  obtain ⟨reached, emitted, came, printed, code, follows'⟩ :=
    follows.reaches_end extended started ended (whole.trans sameEnd.symm)
  -- From there on it follows the run of the second program.
  have entry' : running.state.machine.entry = 0 := by
    have kept : running.state.setup = engine.setup :=
      (keeps_run setup_tick loading.state).trans (setup_load first engine)
    exact (congrArg Setup.entry kept).trans entry
  have later : Follows first.length running.state.tally reloading.state reached := by
    rw [placed', ← whole]
    exact follows_reloaded follows' entry' _
  have moved : Machine.Code.Moved first.length reloading.state.machine.code
      reached.machine.code := by
    rw [code, placed', placed'']
    exact moved_loaded room _ _ _ _
  have relocated := (FollowsCode.mk later moved).run
  have goes : joined = _ := came
  rw [goes]
  refine ⟨by rw [placed], by rw [placed'], by rw [placed''], relocated.engine.holds.registers,
    relocated.engine.holds.stack, ?_, relocated.result, relocated.engine.pc,
    relocated.engine.tally⟩
  simp only [printedValues_append, joining, loading, reloading, printedValues_load,
    List.nil_append, List.append_nil, printed, relocated.emitted.printed]
  rfl

-- The second program pops what the first one pushed, and then once too often.
theorem programs_compose_over_the_stack :
    let first : List UInt8 := [0x82, 0, 5, 0x45, 0]
    let second : List UInt8 := [0x46, 1, 0x47, 1, 0x46, 2]
    let engine := ofSettings {}
    let running := run.run ((load first).run engine).state
    let rerunning := run.run ((load second).run running.state).state
    let joined := run.run ((load (first ++ second)).run engine).state
    first.length + second.length + 2 ≤ memorySize ∧
    engine.machine.placement = .growable ∧
    engine.machine.entry = 0 ∧
    running.result = .ok .endOfProgram ∧
    running.state.machine.pc = first.length ∧
    rerunning.result = .error (.raised ⟨4, .stackUnderflow⟩) ∧
    joined.result = .error (.raised ⟨9, .stackUnderflow⟩) ∧
    joined.state.machine.pc = 9 ∧
    joined.state.machine.registers = rerunning.state.machine.registers ∧
    joined.state.tally =
      { retired := 4, load := 1, stack := 2, print := 1, maxDepth := 1 } := by
  intro first second engine running rerunning joined
  have ended : running.result = .ok .endOfProgram := by decide +kernel
  have whole : running.state.machine.pc = first.length := by decide +kernel
  have again : rerunning.result = .error (.raised ⟨4, .stackUnderflow⟩) := by decide +kernel
  obtain ⟨-, -, -, registers, -, -, result, pc, tally⟩ :=
    programs_compose first second engine (by decide) rfl rfl ended whole
  refine ⟨by decide, rfl, rfl, ended, whole, again, result.trans ?_, pc.trans ?_, registers,
    tally.trans ?_⟩
  · rw [show (run.run ((load second).run running.state).state).result = _ from again]
    rfl
  · decide +kernel
  · decide +kernel

end Engine

end LS8
