import LS8.Proofs.Decoding
import LS8.Proofs.Loading
import LS8.Proofs.Runs

set_option autoImplicit false

namespace LS8

def Mnemonic.registerOperands (mnemonic : Mnemonic) (a b : UInt8) : List Nat :=
  match mnemonic with
  | .hlt => []
  | .ldi | .prn | .push | .pop => [a.toNat]
  | .mul => [a.toNat, b.toNat]

def Instruction.registerOperands (inst : Instruction) : List Nat :=
  inst.mnemonic.registerOperands inst.a inst.b

namespace Machine

variable {code : Memory} {limit : Nat} {top : UInt8} {growable ram : Machine}

/-- The machine `ram` keeps in memory, right below `top`, what `growable` keeps in its list. -/
structure Mirrors (code : Memory) (limit : Nat) (top : UInt8) (growable ram : Machine) :
    Prop where
  growablePlaced : growable.placement = .growable
  ramPlaced : ram.placement = .ram
  stackTop : ram.stackTop = top
  pc : ram.pc = growable.pc
  programEnd : ram.programEnd = growable.programEnd
  registers : ∀ index : Fin registerCount, index ≠ ⟨stackPointer, stackPointer_lt⟩ →
    ram.registers.get index = growable.registers.get index
  unchanged : growable.memory = code
  below : ∀ address < limit, ram.memory.byte? address = code.byte? address
  depth : ram.pointer.toNat + growable.stack.length = top.toNat
  room : growable.stack ≠ [] → limit + growable.stack.length ≤ top.toNat
  cells : (List.range' ram.pointer.toNat growable.stack.length).map ram.memory.byte? =
    growable.stack.map some

namespace Mirrors

theorem stackDepth_eq (mirrors : Mirrors code limit top growable ram) :
    ram.stackDepth = growable.stackDepth := by
  have depth := mirrors.depth
  have above : ram.pointer ≤ top := UInt8.le_iff_toNat_le.mpr (by omega)
  simp only [stackDepth, mirrors.ramPlaced, mirrors.growablePlaced, mirrors.stackTop]
  change (top - ram.pointer).toNat = _
  rw [UInt8.toNat_sub_of_le _ _ above]
  omega

theorem setRegister (mirrors : Mirrors code limit top growable ram) {index : Fin registerCount}
    (other : index ≠ ⟨stackPointer, stackPointer_lt⟩) (value : UInt8) :
    Mirrors code limit top (growable.setRegister index value) (ram.setRegister index value) := by
  have pointer := pointer_setRegister other ram value
  refine { mirrors with registers := ?_, depth := ?_, cells := ?_ }
  · intro index' other'
    simp only [Machine.setRegister, Registers.get_set, mirrors.registers index' other']
  · rw [pointer]
    exact mirrors.depth
  · rw [pointer]
    exact mirrors.cells

theorem withPc (mirrors : Mirrors code limit top growable ram) (pc : Nat) :
    Mirrors code limit top { growable with pc := pc } { ram with pc := pc } :=
  { mirrors with pc := rfl }

theorem pushed (mirrors : Mirrors code limit top growable ram) (value : UInt8)
    (room : limit + (growable.stack.length + 1) ≤ top.toNat) :
    Mirrors code limit top (growable.pushed value) (ram.pushed value) := by
  have depth := mirrors.depth
  have one : (1 : UInt8) ≤ ram.pointer := UInt8.le_iff_toNat_le.mpr (by simp; omega)
  have lower : (ram.pointer - 1).toNat = ram.pointer.toNat - 1 := by
    rw [UInt8.toNat_sub_of_le _ _ one]
    rfl
  rw [pushed_growable mirrors.growablePlaced, pushed_ram mirrors.ramPlaced]
  refine { mirrors with registers := ?_, below := ?_, depth := ?_, room := ?_, cells := ?_ }
  · intro index other
    simp [setPointer, Machine.setRegister, Registers.get_set, Ne.symm other,
      mirrors.registers index other]
  · intro address inside
    have apart : address ≠ (ram.pointer - 1).toNat := by omega
    simp only [setPointer, Machine.setRegister, Memory.byte?_put, if_neg apart]
    exact mirrors.below address inside
  · simp only [pointer_setPointer, List.length_cons, lower]
    omega
  · intro _
    exact room
  · -- The new cell is the lowest one, and the others stay where they were.
    have next : (ram.pointer - 1).toNat + 1 = ram.pointer.toNat := by omega
    have kept : ∀ address ∈ List.range' ram.pointer.toNat growable.stack.length,
        (ram.memory.put (ram.pointer - 1) value).byte? address = ram.memory.byte? address := by
      intro address member
      have bounds := List.mem_range'_1.mp member
      rw [Memory.byte?_put, if_neg (by omega)]
    simp only [pointer_setPointer, List.length_cons, List.range'_succ, List.map_cons, next]
    have others := (List.map_congr_left kept).trans mirrors.cells
    simp only [setPointer, Machine.setRegister, others, Memory.byte?_put, if_pos]

theorem popped (mirrors : Mirrors code limit top growable ram) :
    Alike (fun left right => right.1 = left.1 ∧ Mirrors code limit top left.2 right.2)
      growable.popped ram.popped := by
  have depth := mirrors.depth
  rw [popped_growable mirrors.growablePlaced, popped_ram mirrors.ramPlaced, mirrors.stackTop]
  cases held : growable.stack with
  | nil =>
      have empty : ram.pointer = top := by
        apply UInt8.toNat.inj
        simpa [held] using depth
      rw [if_pos empty]
      exact .trapped _
  | cons value rest =>
      simp only [held, List.length_cons] at depth
      have nonempty : ram.pointer ≠ top := by
        intro empty
        rw [empty] at depth
        omega
      have higher : (ram.pointer + 1).toNat = ram.pointer.toNat + 1 := by
        have small := top.toNat_lt
        rw [UInt8.toNat_add]
        simp
        omega
      have cells := mirrors.cells
      simp only [held, List.length_cons, List.range'_succ, List.map_cons, List.cons.injEq,
        Memory.byte?_toNat, Option.some.injEq] at cells
      rw [if_neg nonempty]
      refine .completed ⟨cells.1, { mirrors with
        registers := ?_, depth := ?_, room := ?_, cells := ?_ }⟩
      · intro index other
        simp [setPointer, Machine.setRegister, Registers.get_set, Ne.symm other,
          mirrors.registers index other]
      · simp only [pointer_setPointer, higher]
        omega
      · intro _
        have room := mirrors.room (by simp [held])
        simp only [held, List.length_cons] at room
        change limit + rest.length ≤ top.toNat
        omega
      · simp only [pointer_setPointer, higher]
        exact cells.2

theorem register_ne_pointer {operand : UInt8} {index : Fin registerCount}
    (checked : Registers.checkedIndex operand.toNat = .ok index)
    (other : stackPointer ≠ operand.toNat) : index ≠ ⟨stackPointer, stackPointer_lt⟩ := by
  intro same
  apply other
  rw [← Registers.checkedIndex_val checked, same]

theorem checked {operand : UInt8} (other : stackPointer ≠ operand.toNat) :
    Alike (fun left right => right = left ∧ left ≠ ⟨stackPointer, stackPointer_lt⟩)
      (Registers.checkedIndex operand.toNat) (Registers.checkedIndex operand.toNat) := by
  cases found : Registers.checkedIndex operand.toNat with
  | error trap => exact .trapped trap
  | ok index => exact .completed ⟨rfl, register_ne_pointer found other⟩

theorem effect (mirrors : Mirrors code limit top growable ram) (mnemonic : Mnemonic) {a b : UInt8}
    (avoids : stackPointer ∉ mnemonic.registerOperands a b)
    (room : ∀ effect, mnemonic.effect a b growable = .ok effect → mnemonic = .push →
      limit + effect.machine.stackDepth ≤ top.toNat) :
    Alike (fun left right => right.printed = left.printed ∧
        Mirrors code limit top left.machine right.machine)
      (mnemonic.effect a b growable) (mnemonic.effect a b ram) := by
  cases mnemonic with
  | hlt => exact .completed ⟨rfl, mirrors⟩
  | ldi =>
      apply (checked fun same => avoids (List.mem_singleton.mpr same)).bind
      rintro _ index ⟨rfl, other⟩
      exact .completed ⟨rfl, mirrors.setRegister other b⟩
  | prn =>
      apply (checked fun same => avoids (List.mem_singleton.mpr same)).bind
      rintro _ index ⟨rfl, other⟩
      exact .completed ⟨congrArg ([·]) (mirrors.registers index other), mirrors⟩
  | mul =>
      have apart : stackPointer ≠ a.toNat ∧ stackPointer ≠ b.toNat := by
        simpa [Mnemonic.registerOperands] using avoids
      apply (checked apart.1).bind
      rintro _ index ⟨rfl, other⟩
      apply (checked apart.2).bind
      rintro _ index' ⟨rfl, other'⟩
      rw [mirrors.registers index other, mirrors.registers index' other']
      exact .completed ⟨rfl, mirrors.setRegister other _⟩
  | push =>
      cases source : Registers.checkedIndex a.toNat with
      | error trap =>
          simp only [Mnemonic.effect, source, error_bind]
          exact .trapped trap
      | ok index =>
          have other := register_ne_pointer source fun same =>
            avoids (List.mem_singleton.mpr same)
          simp only [Mnemonic.effect, source, ok_bind, mirrors.registers index other] at room ⊢
          have left := room _ rfl trivial
          rw [pushed_growable mirrors.growablePlaced] at left
          simp only [stackDepth, mirrors.growablePlaced, List.length_cons] at left
          exact .completed ⟨rfl, mirrors.pushed _ left⟩
  | pop =>
      apply (checked fun same => avoids (List.mem_singleton.mpr same)).bind
      rintro _ index ⟨rfl, other⟩
      apply mirrors.popped.bind
      rintro ⟨_, rest⟩ ⟨value, rest'⟩ ⟨rfl, same⟩
      exact .completed ⟨rfl, same.setRegister other value⟩

theorem fetched (mirrors : Mirrors code limit top growable ram)
    (inside : growable.pc < growable.programEnd) (above : growable.programEnd + 2 ≤ limit) :
    ram.fetched = growable.fetched := by
  rw [Machine.fetched, Machine.fetched, mirrors.pc, mirrors.unchanged]
  apply Instruction.decode_congr
  intro offset few
  apply mirrors.below
  simp only [maxOperands] at few
  omega

theorem transition (mirrors : Mirrors code limit top growable ram)
    (inside : growable.pc < growable.programEnd) (above : growable.programEnd + 2 ≤ limit)
    (avoids : ∀ inst, growable.fetched = .ok inst → stackPointer ∉ inst.registerOperands)
    (room : ∀ done, growable.transition = .ok done → done.inst.mnemonic = .push →
      limit + done.machine.stackDepth ≤ top.toNat) :
    Alike (fun left right => right.inst = left.inst ∧ right.printed = left.printed ∧
        Mirrors code limit top left.machine right.machine)
      growable.transition ram.transition := by
  have same := mirrors.fetched inside above
  cases reached : growable.fetched with
  | error trap =>
      rw [transition_of_not_fetched reached, transition_of_not_fetched (same.trans reached)]
      exact .trapped trap
  | ok inst =>
      obtain ⟨mnemonic, a, b, rfl⟩ := Instruction.eq_of_decode reached
      rw [transition_of_fetched reached] at room ⊢
      rw [transition_of_fetched (same.trans reached)]
      rw [effect_of_descriptor] at room ⊢
      rw [effect_of_descriptor]
      apply (mirrors.effect mnemonic (avoids _ reached) ?_).map
      · intro left right agree
        exact ⟨rfl, agree.1, agree.2.withPc _⟩
      · intro effect completed pushes
        rw [completed] at room
        exact room _ rfl pushes

end Mirrors

end Machine

namespace Engine

def attempted? (engine : Engine) : Option Instruction :=
  if engine.state = .running ∧ engine.machine.pc < engine.machine.programEnd then
    engine.machine.fetched.toOption
  else
    none

/--
The next tick attempts no instruction that names register 7, and if it pushes then it leaves as
many values as fit between `top` and the two bytes behind an image of `length` bytes.
-/
structure Confined (length : Nat) (top : UInt8) (engine : Engine) : Prop where
  avoidsPointer : ∀ inst ∈ engine.attempted?, stackPointer ∉ inst.registerOperands
  leavesRoom : ∀ inst ∈ engine.attempted?, inst.mnemonic = .push →
    (tick.run engine).result = .ok .running →
      length + 2 + (tick.run engine).state.machine.stackDepth ≤ top.toNat

instance (length : Nat) (top : UInt8) (engine : Engine) : Decidable (Confined length top engine) :=
  decidable_of_iff
    ((∀ inst ∈ engine.attempted?, stackPointer ∉ inst.registerOperands) ∧
      ∀ inst ∈ engine.attempted?, inst.mnemonic = .push →
        (tick.run engine).result = .ok .running →
          length + 2 + (tick.run engine).state.machine.stackDepth ≤ top.toNat)
    ⟨fun both => ⟨both.1, both.2⟩, fun confined => ⟨confined.1, confined.2⟩⟩

theorem attempted?_eq_some {engine : Engine} {inst : Instruction}
    (running : engine.state = .running)
    (inside : engine.machine.pc < engine.machine.programEnd)
    (fetched : engine.machine.fetched = .ok inst) : engine.attempted? = some inst := by
  rw [attempted?, if_pos ⟨running, inside⟩, fetched]
  rfl

structure Mirrors (code : Memory) (length : Nat) (top : UInt8) (growable ram : Engine) :
    Prop where
  machine : Machine.Mirrors code (length + 2) top growable.machine ram.machine
  length : growable.machine.programEnd = length
  tally : ram.tally = growable.tally
  state : ram.state = growable.state

variable {code : Memory} {length : Nat} {top : UInt8} {growable ram : Engine}

theorem Mirrors.transition (mirrors : Mirrors code length top growable ram)
    (running : growable.state = .running)
    (inside : growable.machine.pc < growable.machine.programEnd)
    (confined : Confined length top growable) :
    Alike (fun left right => right.inst = left.inst ∧ right.printed = left.printed ∧
        Machine.Mirrors code (length + 2) top left.machine right.machine)
      growable.machine.transition ram.machine.transition := by
  apply mirrors.machine.transition inside (Nat.add_le_add_right (Nat.le_of_eq mirrors.length) 2)
  · intro inst fetched
    exact confined.avoidsPointer inst (attempted?_eq_some running inside fetched)
  · intro done completed pushes
    have fetched := (Machine.transition_eq_ok completed).1
    have left := confined.leavesRoom done.inst (attempted?_eq_some running inside fetched) pushes
    have goesOn : done.state = .running := by
      simp [Retirement.state, Instruction.flow, pushes]
    rw [tick_retired running inside completed] at left
    exact left (congrArg Except.ok goesOn)

theorem Mirrors.tick (mirrors : Mirrors code length top growable ram)
    (confined : Confined length top growable) :
    (tick.run ram).result = (tick.run growable).result ∧
    printedValues (tick.run ram).emitted = printedValues (tick.run growable).emitted ∧
    Mirrors code length top (tick.run growable).state (tick.run ram).state := by
  have samePc := mirrors.machine.pc
  have sameEnd := mirrors.machine.programEnd
  cases running : growable.state with
  | halted reason =>
      rw [tick_halted running, tick_halted (mirrors.state.trans running)]
      exact ⟨rfl, rfl, mirrors⟩
  | running =>
      have running' := mirrors.state.trans running
      by_cases inside : growable.machine.pc < growable.machine.programEnd
      · have inside' : ram.machine.pc < ram.machine.programEnd := by
          rw [samePc, sameEnd]
          exact inside
        have alike := mirrors.transition running inside confined
        generalize reached : growable.machine.transition = left,
          reached' : ram.machine.transition = right at alike
        cases alike with
        | trapped trap =>
            rw [tick_trapped running inside reached, tick_trapped running' inside' reached']
            refine ⟨by rw [samePc], by simp, { mirrors with state := rfl }⟩
        | @completed left right same =>
            obtain ⟨inst, printed, machine⟩ := same
            have sameState : right.state = left.state := by
              simp only [Retirement.state, inst]
            have kept := Machine.frame_transition reached
            have length : left.machine.programEnd = growable.machine.programEnd :=
              congrArg Machine.Frame.programEnd kept
            rw [tick_retired running inside reached, tick_retired running' inside' reached']
            refine ⟨by rw [sameState], by simp [printed], ?_⟩
            refine ⟨machine, (congrArg Fin.val length).trans mirrors.length, ?_, sameState⟩
            simp only [retire, inst, mirrors.tally, machine.stackDepth_eq]
      · have past := Nat.not_lt.mp inside
        have past' : ram.machine.programEnd ≤ ram.machine.pc := by
          rw [samePc, sameEnd]
          exact past
        rw [tick_at_end running past, tick_at_end running' past']
        exact ⟨rfl, rfl, { mirrors with state := rfl }⟩

theorem Mirrors.trail {count : Nat} (mirrors : Mirrors code length top growable ram)
    (confined : ∀ earlier < count, Confined length top (trail earlier growable).engine) :
    (trail count ram).results = (trail count growable).results ∧
    printedValues (trail count ram).emitted = printedValues (trail count growable).emitted ∧
    Mirrors code length top (trail count growable).engine (trail count ram).engine := by
  induction count generalizing growable ram with
  | zero => exact ⟨rfl, rfl, mirrors⟩
  | succ count ih =>
      obtain ⟨result, printed, after⟩ := mirrors.tick (confined 0 (Nat.zero_lt_succ _))
      obtain ⟨results, printed', reached⟩ := ih after fun earlier before =>
        confined (earlier + 1) (Nat.succ_lt_succ before)
      refine ⟨?_, ?_, reached⟩
      · simp only [Engine.trail, result, results]
      · simp only [Engine.trail, printedValues_append, printed, printed']

def started (settings : Settings) (placement : StackPlacement) (image : List UInt8) : Engine :=
  ((load image).run (ofSettings { settings with placement := placement })).state

theorem started_mirrors (settings : Settings) {image : List UInt8}
    (fits : image.length ≤ memorySize) :
    Mirrors (Memory.zero.overlay 0 image) image.length settings.stackTop
      (started settings .growable image) (started settings .ram image) := by
  have pointer : (started settings .ram image).machine.pointer = settings.stackTop := by
    simp [started, run_load fits, loaded, ofSettings, Machine.ofSettings, Machine.pointer,
      Machine.initialRegisters, Registers.ofStackPointer, Registers.get]
  simp only [started, run_load fits] at pointer ⊢
  refine ⟨?_, rfl, rfl, rfl⟩
  refine ⟨rfl, rfl, rfl, rfl, rfl, ?_, rfl, fun _ _ => rfl, ?_, ?_, ?_⟩
  · intro index other
    have apart : stackPointer ≠ index.val := fun same => other (Fin.ext same.symm)
    simp [loaded, ofSettings, Machine.ofSettings, Machine.initialRegisters,
      Registers.ofStackPointer, Registers.get, Registers.zero, apart]
  · rw [pointer]
    rfl
  · intro nonempty
    exact absurd rfl nonempty
  · rfl

theorem stack_placements_agree (settings : Settings) (image : List UInt8)
    (fits : image.length ≤ memorySize) (count : Nat)
    (confined : ∀ earlier < count, Confined image.length settings.stackTop
      (trail earlier (started settings .growable image)).engine) :
    let growable := trail count (started settings .growable image)
    let ram := trail count (started settings .ram image)
    let pointer := ram.engine.machine.pointer.toNat
    ram.results = growable.results ∧
    printedValues ram.emitted = printedValues growable.emitted ∧
    ram.engine.state = growable.engine.state ∧
    ram.engine.tally = growable.engine.tally ∧
    ram.engine.machine.pc = growable.engine.machine.pc ∧
    (∀ index : Fin registerCount, index.val ≠ stackPointer →
      ram.engine.machine.registers.get index = growable.engine.machine.registers.get index) ∧
    ram.engine.machine.stackDepth = growable.engine.machine.stackDepth ∧
    pointer ≤ settings.stackTop.toNat ∧
    (List.range' pointer (settings.stackTop.toNat - pointer)).map ram.engine.machine.memory.byte? =
      growable.engine.machine.stack.map some ∧
    ∀ address < image.length + 2,
      ram.engine.machine.memory.byte? address =
        (started settings .ram image).machine.memory.byte? address := by
  obtain ⟨results, printed, mirrors⟩ := (started_mirrors settings fits).trail confined
  have depth := mirrors.machine.depth
  have cells := mirrors.machine.cells
  refine ⟨results, printed, mirrors.state, mirrors.tally, mirrors.machine.pc, ?_,
    mirrors.machine.stackDepth_eq, by omega, ?_, ?_⟩
  · intro index other
    exact mirrors.machine.registers index fun same => other (congrArg Fin.val same)
  · rwa [← depth, Nat.add_sub_cancel_left]
  · intro address below
    rw [mirrors.machine.below address below, started, run_load fits]
    rfl

/-- Pushes 1 and 2 and pops them in the same order, so that they change registers. -/
def swap : List UInt8 :=
  [0x82, 0, 1, 0x82, 1, 2, 0x45, 0, 0x45, 1, 0x46, 0, 0x46, 1, 0x47, 0, 0x47, 1, 1]

theorem swap_placements_agree :
    let growable := trail 9 (started {} .growable swap)
    let ram := trail 9 (started {} .ram swap)
    (∀ earlier < 9, Confined swap.length defaultStackTop
      (trail earlier (started {} .growable swap)).engine) ∧
    ram.results = growable.results ∧
    printedValues ram.emitted = [2, 1] ∧
    ram.engine.tally = growable.engine.tally := by
  intro growable ram
  have confined : ∀ earlier < 9, Confined swap.length defaultStackTop
      (trail earlier (started {} .growable swap)).engine := by decide +kernel
  obtain ⟨results, printed, -, tally, -⟩ :=
    stack_placements_agree {} swap (by decide) 9 confined
  refine ⟨confined, results, printed.trans ?_, tally⟩
  decide +kernel

end Engine

end LS8
