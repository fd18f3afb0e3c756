import LS8.Proofs.Decoding
import LS8.Proofs.Sessions

set_option autoImplicit false

namespace LS8

structure Account where
  printed : List UInt8 := []
  -- The depth of the stack after each retired instruction.
  depths : List Nat := []
  deriving DecidableEq

namespace Engine

def retires (engine : Engine) : Bool :=
  match engine.state, (tick.run engine).result with
  | .running, .ok .running | .running, .ok (.halted .hlt) => true
  | _, _ => false

def tickDepths (engine : Engine) : List Nat :=
  if engine.retires then [(tick.run engine).state.machine.stackDepth] else []

def runDepths (engine : Engine) : List Nat :=
  match going : (tick.run engine).result with
  | .ok .running =>
      have _ : (tick.run engine).state.remaining < engine.remaining :=
        remaining_lt_of_tick_running going
      engine.tickDepths ++ runDepths (tick.run engine).state
  | _ => engine.tickDepths
  termination_by engine.remaining

theorem runDepths_concluded {engine : Engine} {result : Except (Failure Fault) HaltReason}
    (last : concluded? (tick.run engine).result = some result) :
    engine.runDepths = engine.tickDepths := by
  rw [runDepths]
  split
  · simp_all [concluded?]
  · rfl

theorem runDepths_running {engine : Engine} (going : (tick.run engine).result = .ok .running) :
    engine.runDepths = engine.tickDepths ++ (tick.run engine).state.runDepths := by
  rw [runDepths]
  split
  · rfl
  · simp_all

end Engine

def Operation.depths : Operation → Engine → List Nat
  | .tick, engine => engine.tickDepths
  | .run, engine => engine.runDepths
  | _, _ => []

def Operation.renews : Operation → Reply → Bool
  | .load _, .done | .reset, _ => true
  | _, _ => false

namespace Account

def add (account : Account) (printed : List UInt8) (depths : List Nat) : Account where
  printed := account.printed ++ printed
  depths := account.depths ++ depths

def after (account : Account) (operation : Operation) (engine : Engine) : Account :=
  let turn := operation.perform engine
  if operation.renews turn.reply then {}
  else account.add (printedValues turn.emitted) (operation.depths engine)

end Account

/--
The engines that come of a new one by its own operations, each with its account, where registers,
memory and the growable stack may become anything between two operations.
-/
inductive Session (settings : Settings) : Account → Engine → Prop
  | new : Session settings {} (.ofSettings settings)
  | operate {account : Account} {engine : Engine} (session : Session settings account engine)
      {operation : Operation} (control : operation.IsControl) :
      Session settings (account.after operation engine) (operation.perform engine).engine
  | edit {account : Account} {engine : Engine} (session : Session settings account engine)
      (registers : Registers) (memory : Memory) (stack : List UInt8) :
      Session settings account
        { engine with machine :=
            { engine.machine with registers := registers, memory := memory, stack := stack } }

namespace Tally

def bytes (tally : Tally) : Nat :=
  3 * (tally.load + tally.arithmetic) + 2 * (tally.print + tally.stack) + tally.system

theorem bytes_record (tally : Tally) {machine : Machine} {inst : Instruction}
    (fetched : machine.fetched = .ok inst) (depth : Nat) :
    (tally.record inst depth).bytes = tally.bytes + inst.width := by
  obtain ⟨mnemonic, a, b, rfl⟩ := Instruction.eq_of_decode fetched
  rw [Instruction.width, Descriptor.width, mnemonic.operandCount_descriptor]
  cases mnemonic <;>
    (simp only [bytes, record, Instruction.mnemonic, Mnemonic.descriptor, Descriptor.ofOpcode]
     omega)

theorem system_record (tally : Tally) (inst : Instruction) (depth : Nat) :
    (tally.record inst depth).system = tally.system + if inst.flow = .halt then 1 else 0 := by
  unfold record Instruction.flow
  cases inst.mnemonic <;> rfl

end Tally

theorem Mnemonic.length_printed {mnemonic : Mnemonic} {a b : UInt8} {machine : Machine}
    {effect : Effect} (reached : mnemonic.effect a b machine = .ok effect) :
    effect.printed.length = if mnemonic = .prn then 1 else 0 := by
  cases mnemonic with
  | hlt =>
      cases reached
      rfl
  | ldi =>
      obtain ⟨target, -, done⟩ := exists_of_bind_eq_ok reached
      cases done
      rfl
  | prn =>
      obtain ⟨source, -, done⟩ := exists_of_bind_eq_ok reached
      cases done
      rfl
  | mul =>
      obtain ⟨target, -, rest⟩ := exists_of_bind_eq_ok reached
      obtain ⟨other, -, done⟩ := exists_of_bind_eq_ok rest
      cases done
      rfl
  | push =>
      obtain ⟨source, -, done⟩ := exists_of_bind_eq_ok reached
      cases done
      rfl
  | pop =>
      obtain ⟨target, -, rest⟩ := exists_of_bind_eq_ok reached
      obtain ⟨⟨value, below⟩, -, done⟩ := exists_of_bind_eq_ok rest
      cases done
      rfl

theorem Machine.length_printed {machine : Machine} {done : Retirement}
    (completed : machine.transition = .ok done) :
    done.printed.length = if done.inst.mnemonic = .prn then 1 else 0 := by
  obtain ⟨fetched, effect, reached, -, printed⟩ := transition_eq_ok completed
  obtain ⟨mnemonic, a, b, same⟩ := Instruction.eq_of_decode fetched
  rw [same, effect_of_descriptor] at reached
  rw [printed, Mnemonic.length_printed reached, same]
  rfl

theorem Tally.print_record (tally : Tally) (inst : Instruction) (depth : Nat) :
    (tally.record inst depth).print =
      tally.print + if inst.mnemonic = .prn then 1 else 0 := by
  unfold record
  cases inst.mnemonic <;> rfl

theorem Retirement.state_eq_iff (done : Retirement) :
    done.state = .halted .hlt ↔ done.inst.flow = .halt := by
  rcases done.inst.flow_eq with flow | flow <;> simp [state, flow]

namespace Account

structure Agrees (account : Account) (engine : Engine) : Prop where
  retired : engine.tally.retired = engine.tally.categories
  pc : engine.machine.pc = engine.machine.entry.toNat + engine.tally.bytes
  print : engine.tally.print = account.printed.length
  system : engine.tally.system = if engine.state = .halted .hlt then 1 else 0
  depths : engine.tally.retired = account.depths.length
  maxDepth : engine.tally.maxDepth = account.depths.foldl max 0

variable {account : Account} {engine : Engine}

theorem agrees_fresh {engine : Engine} (pc : engine.machine.pc = engine.machine.entry.toNat)
    (tally : engine.tally = {}) (running : engine.state = .running) :
    Agrees {} engine := by
  constructor <;> simp [pc, tally, running, Tally.categories, Tally.bytes]

-- As long as it runs, no HLT has been counted.
theorem Agrees.system_of_running (agrees : account.Agrees engine)
    (running : engine.state = .running) : engine.tally.system = 0 := by
  simp only [agrees.system, running, reduceCtorEq, if_false]

theorem Agrees.retire (agrees : account.Agrees engine) {done : Retirement}
    (running : engine.state = .running) (completed : engine.machine.transition = .ok done) :
    (account.add done.printed [done.machine.stackDepth]).Agrees (engine.retire done) where
  retired := by
    simp only [Engine.retire, Tally.retired_record, Tally.categories_record, agrees.retired]
  pc := by
    have moved := Machine.pc_transition completed
    have entry : done.machine.entry = engine.machine.entry :=
      congrArg Machine.Frame.entry (Machine.frame_transition completed)
    have fetched := (Machine.transition_eq_ok completed).1
    simp only [Engine.retire, Tally.bytes_record _ fetched, moved, entry, agrees.pc]
    omega
  print := by
    simp only [Engine.retire, add, Tally.print_record, List.length_append, agrees.print,
      Machine.length_printed completed]
  system := by
    simp only [Engine.retire, Tally.system_record, agrees.system_of_running running,
      done.state_eq_iff, Nat.zero_add]
  depths := by
    simp only [Engine.retire, add, Tally.retired_record, agrees.depths, List.length_append,
      List.length_singleton]
  maxDepth := by
    simp only [Engine.retire, add, Tally.maxDepth_record, agrees.maxDepth, List.foldl_append,
      List.foldl_cons, List.foldl_nil]

theorem add_nil (account : Account) : account.add [] [] = account := by
  simp [add]

theorem Agrees.stop (agrees : account.Agrees engine) (running : engine.state = .running)
    {reason : HaltReason} (other : reason ≠ .hlt) :
    account.Agrees { engine with state := .halted reason } where
  retired := agrees.retired
  pc := agrees.pc
  print := agrees.print
  system := by
    have unequal : RunState.halted reason ≠ .halted .hlt :=
      fun same => other (RunState.halted.inj same)
    rw [agrees.system_of_running running, if_neg unequal]
  depths := agrees.depths
  maxDepth := agrees.maxDepth

theorem Agrees.tick (agrees : account.Agrees engine) :
    (account.add (printedValues (Engine.tick.run engine).emitted) engine.tickDepths).Agrees
      (Engine.tick.run engine).state := by
  have seen := Engine.ticked engine
  rw [Engine.tickDepths, Engine.retires]
  generalize Engine.tick.run engine = outcome at seen ⊢
  cases seen with
  | halted reason stopped =>
      simp only [stopped]
      exact account.add_nil.symm ▸ agrees
  | ended running past =>
      simp only [running]
      exact account.add_nil.symm ▸ agrees.stop running nofun
  | trapped trap running inside failed =>
      simp only [running]
      have silent : printedValues
          (engine.opening ++ [.event (.fatalTrap engine.machine.pc trap)]) = [] := by simp
      rw [silent]
      exact account.add_nil.symm ▸ agrees.stop running nofun
  | retired done running inside completed =>
      -- The snapshots before and after the instruction print nothing.
      have counted := agrees.retire running completed
      have printed : printedValues
          (engine.opening ++ done.printed.map .printed ++ engine.closing done) =
            done.printed := by
        simp
      rw [printed]
      rcases done.inst.flow_eq with flow | flow
      · simpa [running, Retirement.state, flow, Engine.retire] using counted
      · simpa [running, Retirement.state, flow, Engine.retire] using counted

theorem add_add (account : Account) (printed later : List UInt8) (depths deeper : List Nat) :
    (account.add printed depths).add later deeper =
      account.add (printed ++ later) (depths ++ deeper) := by
  simp [add]

theorem Agrees.run (agrees : account.Agrees engine) :
    (account.add (printedValues (Engine.run.run engine).emitted) engine.runDepths).Agrees
      (Engine.run.run engine).state := by
  induction engine using Engine.run_induction generalizing account with
  | last engine result final =>
      rw [Engine.run_concluded final, Engine.runDepths_concluded final]
      exact agrees.tick
  | next engine going ih =>
      rw [Engine.run_running going, Engine.runDepths_running going, Engine.printedValues_append,
        ← add_add]
      exact ih agrees.tick

theorem Agrees.operate (agrees : account.Agrees engine) {operation : Operation}
    (control : operation.IsControl) :
    (account.after operation engine).Agrees (operation.perform engine).engine := by
  cases control with
  | load image =>
      by_cases fits : image.length ≤ memorySize
      · simp only [after, Operation.perform_load fits, Operation.renews, if_true]
        exact agrees_fresh rfl rfl rfl
      · simp only [after, Operation.perform_load_error (Nat.lt_of_not_le fits), Operation.renews]
        exact account.add_nil.symm ▸ agrees
  | tick =>
      simp only [after, Operation.renews, Operation.depths, Operation.perform,
        Operation.engine_answer, Operation.emitted_answer]
      exact agrees.tick
  | run =>
      simp only [after, Operation.renews, Operation.depths, Operation.perform,
        Operation.engine_answer, Operation.emitted_answer]
      exact agrees.run
  | reset => exact agrees_fresh rfl rfl rfl
  | setTracing on =>
      have kept : account.after (.setTracing on) engine = account := account.add_nil
      rw [kept]
      exact { agrees with }

theorem Agrees.edit (agrees : account.Agrees engine) {machine : Machine}
    (kept : machine.frame = engine.machine.frame) :
    account.Agrees { engine with machine := machine } where
  retired := agrees.retired
  pc := by
    have pc : machine.pc = engine.machine.pc := congrArg Machine.Frame.pc kept
    have entry : machine.entry = engine.machine.entry := congrArg Machine.Frame.entry kept
    simp only [pc, entry, agrees.pc]
  print := agrees.print
  system := agrees.system
  depths := agrees.depths
  maxDepth := agrees.maxDepth

end Account

theorem Session.agrees {settings : Settings} {account : Account} {engine : Engine}
    (session : Session settings account engine) : account.Agrees engine := by
  induction session with
  | new => exact Account.agrees_fresh rfl rfl rfl
  | operate session control ih => exact ih.operate control
  | edit session registers memory stack ih => exact ih.edit rfl

theorem Session.setup_eq {settings : Settings} {account : Account} {engine : Engine}
    (session : Session settings account engine) :
    engine.setup = (Engine.ofSettings settings).setup := by
  induction session with
  | new => rfl
  | operate session control ih =>
      refine (Operation.setup_perform ?_ _).trans ih
      cases control <;> rfl
  | edit session registers memory stack ih => exact ih

theorem Session.onMachine {settings : Settings} {account : Account} {engine : Engine} {α : Type}
    (session : Session settings account engine) {action : MachineAction α}
    (kept : action.Keeps Machine.frame) (succeeded : α → Reply) :
    Session settings account (Operation.onMachine action succeeded engine).engine := by
  have same := kept engine.machine
  rw [Operation.engine_onMachine]
  generalize (action.run engine.machine).state = machine at same ⊢
  have edited := session.edit machine.registers machine.memory machine.stack
  simp only [Machine.frame, Machine.Frame.mk.injEq] at same
  obtain ⟨pc, programEnd, entry, placement, stackTop⟩ := same
  simpa only [← pc, ← programEnd, ← entry, ← placement, ← stackTop] using edited

theorem tally_accounts_for_session {settings : Settings} {account : Account} {engine : Engine}
    (session : Session settings account engine) :
    engine.tally.retired = engine.tally.arithmetic + engine.tally.load + engine.tally.print +
      engine.tally.stack + engine.tally.system ∧
    engine.machine.pc = settings.startPc.toNat +
      3 * (engine.tally.load + engine.tally.arithmetic) +
      2 * (engine.tally.print + engine.tally.stack) + engine.tally.system ∧
    engine.tally.print = account.printed.length ∧
    engine.tally.system = (if engine.state = .halted .hlt then 1 else 0) ∧
    engine.tally.retired = account.depths.length ∧
    engine.tally.maxDepth = account.depths.max?.getD 0 := by
  have agrees := session.agrees
  have entry : engine.machine.entry = settings.startPc := congrArg Setup.entry session.setup_eq
  refine ⟨agrees.retired, ?_, agrees.print, agrees.system, agrees.depths, ?_⟩
  · have pc := agrees.pc
    rw [entry, Tally.bytes] at pc
    omega
  · rw [agrees.maxDepth, List.foldl_max, Nat.zero_max]

-- A run from address 1 on that is interrupted for a push, and then a load that is refused.
theorem tally_accounts_for_interrupted_run :
    let settings : Settings := { startPc := 1, placement := .ram }
    let image : List UInt8 := [0xFF, 0x82, 0, 5, 0x45, 0, 0x47, 0, 0x01]
    let operations := [.load image, .tick, .push 9, .run, .load (List.replicate 257 0)]
    let engine := Engine.after (.ofSettings settings) operations
    Session settings ⟨[5], [0, 2, 2, 2]⟩ engine ∧
    engine.state = .halted .hlt ∧
    engine.tally.system = 1 ∧
    engine.tally.print = 1 ∧
    engine.tally.retired = 4 ∧
    engine.tally.maxDepth = 2 := by
  intro settings image operations engine
  have created : Session settings {} (.ofSettings settings) := .new
  have started := (created.operate (.load image)).operate .tick
  have pushed := started.onMachine (Machine.frame_push 9) fun _ => .done
  have refused := (pushed.operate .run).operate (.load (List.replicate 257 0))
  have session : Session settings ⟨[5], [0, 2, 2, 2]⟩ engine := by
    refine Eq.mp (congrArg (Session settings · engine) ?_) refused
    decide +kernel
  have halted : engine.state = .halted .hlt := by decide +kernel
  obtain ⟨-, -, printed, system, retired, deepest⟩ := tally_accounts_for_session session
  rw [if_pos halted] at system
  exact ⟨session, halted, system, printed, retired, deepest⟩

end LS8
