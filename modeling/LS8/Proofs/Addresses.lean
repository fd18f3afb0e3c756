import LS8.Proofs.Decoding
import LS8.Proofs.Sessions

set_option autoImplicit false

namespace LS8

namespace Machine

-- The last byte of an instruction is a byte of memory like the others.
theorem pc_add_width_le {machine : Machine} {inst : Instruction}
    (fetched : machine.fetched = .ok inst) : machine.pc + inst.width ≤ memorySize := by
  have ahead := inst.width_pos
  have held := Instruction.byte_of_decode fetched (Nat.sub_lt ahead Nat.zero_lt_one)
  have last := Memory.exists_byte?_iff.mp held
  omega

/--
Where the program counter can be as long as only programs move it. The last instruction of a
program may reach behind its end, so that the program counter gets at most two bytes past that.
-/
structure InBounds (start : UInt8) (machine : Machine) : Prop where
  entry : machine.entry = start
  inside : machine.pc ≤ memorySize
  near : machine.pc = start.toNat ∨ machine.pc ≤ machine.programEnd + 2

theorem inBounds_of_entry {start : UInt8} {machine : Machine} (entry : machine.entry = start)
    (pc : machine.pc = start.toNat) : machine.InBounds start where
  entry := entry
  inside := pc ▸ Nat.le_of_lt (Memory.toNat_lt_memorySize start)
  near := .inl pc

variable {start : UInt8} {machine changed : Machine}

theorem InBounds.of_frame (bounded : machine.InBounds start)
    (same : changed.frame = machine.frame) : changed.InBounds start := by
  simp only [frame, Frame.mk.injEq] at same
  obtain ⟨pc, programEnd, entry, -, -⟩ := same
  constructor
  · exact entry.trans bounded.entry
  · exact pc ▸ bounded.inside
  · exact pc ▸ programEnd ▸ bounded.near

theorem InBounds.reset (bounded : machine.InBounds start) : machine.reset.InBounds start :=
  inBounds_of_entry bounded.entry (congrArg UInt8.toNat bounded.entry)

theorem InBounds.load (bounded : machine.InBounds start) {image : List UInt8}
    (done : machine.load image = .ok changed) : changed.InBounds start := by
  by_cases fits : image.length ≤ memorySize
  · rw [load_eq_ok fits] at done
    cases done
    exact inBounds_of_entry bounded.entry (congrArg UInt8.toNat bounded.entry)
  · rw [load_eq_error (Nat.lt_of_not_le fits)] at done
    cases done

theorem InBounds.transition (bounded : machine.InBounds start) {done : Retirement}
    (within : machine.pc < machine.programEnd) (completed : machine.transition = .ok done) :
    done.machine.InBounds start := by
  have fetched := (transition_eq_ok completed).1
  have short := width_le_of_fetched fetched
  have kept := frame_transition completed
  simp only [frame, Frame.mk.injEq] at kept
  obtain ⟨pc, programEnd, entry, -, -⟩ := kept
  simp only [maxOperands] at short
  constructor
  · exact entry.trans bounded.entry
  · exact pc ▸ pc_add_width_le fetched
  · right
    rw [pc, programEnd]
    omega

end Machine

namespace Engine

variable {start : UInt8} {engine : Engine}

theorem inBounds_loadMachine (bounded : engine.machine.InBounds start) (image : List UInt8) :
    ((loadMachine image).run engine).state.machine.InBounds start := by
  cases loaded : engine.machine.load image with
  | ok changed =>
      simpa [loadMachine, Action.run_bind, Action.run_update_ok loaded] using bounded.load loaded
  | error trap =>
      simpa [loadMachine, Action.run_bind, Action.run_update_error loaded] using bounded

theorem machine_load (image : List UInt8) (engine : Engine) :
    ((load image).run engine).state.machine =
      ((loadMachine image).run engine).state.machine := by
  rw [load, Action.run_bind]
  split <;> rfl

theorem inBounds_tick (bounded : engine.machine.InBounds start) :
    (tick.run engine).state.machine.InBounds start := by
  have seen := ticked engine
  generalize tick.run engine = outcome at seen ⊢
  cases seen with
  | halted reason stopped => exact bounded
  | ended running past => exact bounded
  | trapped trap running inside failed => exact bounded
  | retired done running inside completed => exact bounded.transition inside completed

theorem inBounds_run (bounded : engine.machine.InBounds start) :
    (run.run engine).state.machine.InBounds start := by
  apply invariant_run (motive := fun reached => reached.machine.InBounds start)
  · intro reached before
    exact inBounds_tick before
  · exact bounded

end Engine

namespace Operation

def movesPc : Operation → Bool
  | .setPc _ | .retire .. => true
  | _ => false

theorem inBounds_perform {start : UInt8} {engine : Engine} {operation : Operation}
    (bounded : engine.machine.InBounds start) (stays : operation.movesPc = false) :
    (operation.perform engine).engine.machine.InBounds start := by
  have kept (apart : operation.touchesFrame = false) :
      (operation.perform engine).engine.machine.InBounds start :=
    bounded.of_frame (frame_perform apart engine)
  cases operation with
  | load image =>
      rw [perform, engine_answer, Engine.machine_load]
      exact Engine.inBounds_loadMachine bounded image
  | loadMachine image =>
      rw [perform, engine_answer]
      exact Engine.inBounds_loadMachine bounded image
  | tick =>
      rw [perform, engine_answer]
      exact Engine.inBounds_tick bounded
  | run =>
      rw [perform, engine_answer]
      exact Engine.inBounds_run bounded
  | reset => exact bounded.reset
  | resetMachine => exact bounded.reset
  | setPc pc => cases stays
  | retire given flow => cases stays
  | setPlacement placement => exact { bounded with }
  | setStackTop value => exact { bounded with }
  | _ => exact kept rfl

end Operation

def addressUpTo (highest base offset : Nat) : Except Defect Nat :=
  if base + offset ≤ highest then .ok (base + offset) else .error .addressOverflow

theorem addressUpTo_of_le {highest base offset : Nat} (inside : base + offset ≤ highest) :
    addressUpTo highest base offset = .ok (base + offset) :=
  if_pos inside

def ByteSource.readUpTo (highest : Nat) (source : ByteSource) (base offset : Nat) :
    Except (Failure Trap) UInt8 := do
  let address ← (addressUpTo highest base offset).mapError .defect
  (source.read address).mapError .raised

theorem ByteSource.readUpTo_of_le {highest base offset : Nat} (source : ByteSource)
    (inside : base + offset ≤ highest) :
    source.readUpTo highest base offset = (source.read (base + offset)).mapError .raised := by
  rw [readUpTo, addressUpTo_of_le inside]
  rfl

namespace Instruction

def operandUpTo (highest : Nat) (source : ByteSource) (pc count slot : Nat) :
    Except (Failure Trap) UInt8 :=
  if slot < count then source.readUpTo highest pc (1 + slot) else .ok 0

def decodeUpTo (highest : Nat) (source : ByteSource) (pc : Nat) :
    Except (Failure Trap) Instruction := do
  let opcode ← source.readUpTo highest pc 0
  match Descriptor.lookup opcode with
  | none => throw (.raised (.illegalInstruction opcode pc))
  | some descriptor =>
      let a ← operandUpTo highest source pc descriptor.operandCount 0
      let b ← operandUpTo highest source pc descriptor.operandCount 1
      return ⟨pc, descriptor, a, b⟩

variable {highest pc : Nat}

theorem operandUpTo_of_le (source : ByteSource) (count : Nat) {slot : Nat}
    (room : pc + maxOperands ≤ highest) (few : slot < maxOperands) :
    operandUpTo highest source pc count slot =
      (operandAt source pc count slot).mapError .raised := by
  unfold operandUpTo operandAt
  split
  · rw [source.readUpTo_of_le (by omega), Nat.add_assoc]
  · rfl

theorem decodeUpTo_of_le (source : ByteSource) (room : pc + maxOperands ≤ highest) :
    decodeUpTo highest source pc = (decode source pc).mapError .raised := by
  rw [decodeUpTo, decode, source.readUpTo_of_le (by omega), Nat.add_zero]
  cases source.read pc with
  | error trap => rfl
  | ok opcode =>
      simp only [Action.ok_mapError, ok_bind]
      cases Descriptor.lookup opcode with
      | none => rfl
      | some descriptor =>
          simp only [operandUpTo_of_le source _ room (show 0 < maxOperands by decide),
            operandUpTo_of_le source _ room (show 1 < maxOperands by decide)]
          cases operandAt source pc descriptor.operandCount 0 with
          | error trap => rfl
          | ok a => cases operandAt source pc descriptor.operandCount 1 <;> rfl

end Instruction

namespace Snapshot

def byteUpTo (highest : Nat) (machine : Machine) (offset : Nat) : Except Defect UInt8 := do
  let address ← addressUpTo highest machine.pc offset
  return (machine.memory.byte? address).getD 0

def captureUpTo (highest : Nat) (machine : Machine) : Except Defect Snapshot := do
  let first ← byteUpTo highest machine 0
  let second ← byteUpTo highest machine 1
  let third ← byteUpTo highest machine 2
  return ⟨machine.pc, #v[first, second, third], machine.registers⟩

theorem captureUpTo_of_le {highest : Nat} {machine : Machine} (room : machine.pc + 2 ≤ highest) :
    captureUpTo highest machine = .ok (ofMachine machine) := by
  have shown {offset : Nat} (few : offset ≤ 2) :
      byteUpTo highest machine offset =
        .ok ((machine.memory.byte? (machine.pc + offset)).getD 0) := by
    rw [byteUpTo, addressUpTo_of_le (by omega)]
    rfl
  rw [captureUpTo, shown (by decide), shown (by decide), shown (by decide)]
  rfl

end Snapshot

def Machine.retiredUpTo (highest : Nat) (inst : Instruction) (flow : Flow) (machine : Machine) :
    Except (Failure Trap) Machine :=
  match flow with
  | .next | .halt => do
      let target ← (addressUpTo highest inst.pc inst.width).mapError .defect
      return { machine with pc := target }
  | .jump target => machine.retired inst (.jump target)

theorem Machine.retiredUpTo_of_le {highest : Nat} {inst : Instruction} {machine : Machine}
    (flow : Flow) (room : inst.pc + inst.width ≤ highest)
    (small : inst.pc + inst.width < addressSpace) :
    machine.retiredUpTo highest inst flow = machine.retired inst flow := by
  cases flow with
  | jump target => rfl
  | next | halt =>
      simp only [retiredUpTo, retired, addressUpTo_of_le room, small, if_true]
      rfl

namespace Engine

def traceUpTo (highest : Nat) : EngineAction (Failure Fault) Unit := do
  let engine ← .get
  match engine.tracing with
  | false => return ()
  | true =>
      let snapshot ← .inspect fun engine =>
        (Snapshot.captureUpTo highest engine.machine).mapError .defect
      .emit (.snapshot snapshot)

def concludeUpTo (highest : Nat) (inst : Instruction) (flow : Flow) :
    EngineAction (Failure Trap) RunState := do
  onMachine (.update (Machine.retiredUpTo highest inst flow))
  let retired ← .get
  record inst retired.machine.stackDepth
  match flow with
  | .halt => do
      let counted ← .get
      .emit (.event (.halted counted.machine.pc counted.tally.retired))
      halt .hlt
  | .next | .jump _ => return .running

def stepUpTo (highest : Nat) : EngineAction (Failure Trap) RunState := do
  let inst ← onMachine (.inspect fun machine =>
    Instruction.decodeUpTo highest machine.memory.byte? machine.pc)
  .emit (.event (.execute inst))
  let flow ← onMachine (Machine.execute inst)
  concludeUpTo highest inst flow

def tickUpTo (highest : Nat) : EngineAction (Failure Fault) RunState := do
  let engine ← .get
  match engine.state with
  | .halted reason => return .halted reason
  | .running =>
      if engine.machine.programEnd ≤ engine.machine.pc then
        .emit (.event (.endOfProgram engine.machine.pc))
        halt .endOfProgram
      else
        traceUpTo highest
        (stepUpTo highest).recover (stepFailed engine.machine.pc)

variable {highest : Nat} {engine : Engine}

theorem run_traceUpTo (room : engine.machine.pc + 2 ≤ highest)
    (inside : engine.machine.pc < engine.machine.programEnd) :
    (traceUpTo highest).run engine = trace.run engine := by
  rw [run_trace inside, shown, traceUpTo]
  cases traced : engine.tracing with
  | false => simp [Action.run_bind, traced]
  | true => simp [Action.run_bind, traced, Snapshot.captureUpTo_of_le room]

theorem run_concludeUpTo {inst : Instruction} {flow : Flow}
    (same : engine.machine.retiredUpTo highest inst flow = engine.machine.retired inst flow) :
    (concludeUpTo highest inst flow).run engine = (conclude inst flow).run engine := by
  apply Action.run_bind_congr
  · rw [run_onMachine, run_onMachine, Machine.retire, Action.run_update_congr same]
  · intro _ _
    rfl

theorem run_stepUpTo (high : memorySize + 1 ≤ highest)
    (inside : engine.machine.pc < engine.machine.programEnd) :
    (stepUpTo highest).run engine = step.run engine := by
  have small := engine.machine.programEnd.isLt
  have decoded := Instruction.decodeUpTo_of_le engine.machine.memory.byte?
    (show engine.machine.pc + maxOperands ≤ highest by simp only [maxOperands]; omega)
  apply Action.run_bind_congr
  · simp only [run_onMachine, Action.run_inspect, decoded]
    rfl
  · intro inst got
    have fetched : engine.machine.fetched = .ok inst := eq_ok_of_mapError got
    have reach := Machine.pc_add_width_le fetched
    rw [← (Instruction.lookup_of_decode fetched).2] at reach
    have retires (machine : Machine) (flow : Flow) :
        machine.retiredUpTo highest inst flow = machine.retired inst flow :=
      Machine.retiredUpTo_of_le flow (by omega) (Nat.lt_of_le_of_lt reach (by decide))
    apply Action.run_bind_congr rfl
    intro _ _
    apply Action.run_bind_congr rfl
    intro flow _
    exact run_concludeUpTo (retires _ flow)

theorem run_tickUpTo (high : memorySize + 1 ≤ highest) (engine : Engine) :
    (tickUpTo highest).run engine = tick.run engine := by
  apply Action.run_bind_congr rfl
  intro _ got
  cases got
  simp only [Action.run_get]
  cases engine.state with
  | halted reason => rfl
  | running =>
      by_cases past : engine.machine.programEnd ≤ engine.machine.pc
      · simp only [past, if_true]
      · simp only [past, if_false]
        have inside := Nat.lt_of_not_le past
        have small := engine.machine.programEnd.isLt
        apply Action.run_bind_congr
        · exact run_traceUpTo (by omega) inside
        · intro _ _
          rw [state_trace, Action.run_recover, Action.run_recover, run_stepUpTo high inside]

theorem pc_le_of_tick_retired (retires : engine.tally.retired <
      (tick.run engine).state.tally.retired) :
    (tick.run engine).state.machine.pc ≤ memorySize := by
  have seen := ticked engine
  generalize tick.run engine = outcome at seen retires ⊢
  cases seen with
  | halted reason stopped => exact absurd retires (Nat.lt_irrefl _)
  | ended running past => exact absurd retires (Nat.lt_irrefl _)
  | trapped trap running inside failed => exact absurd retires (Nat.lt_irrefl _)
  | retired done running inside completed =>
      have moved := Machine.pc_transition completed
      have fetched := (Machine.transition_eq_ok completed).1
      simp only [retire, moved]
      exact Machine.pc_add_width_le fetched

theorem addresses_bounded :
    (∀ (settings : Settings) (operations : List Operation),
      (∀ operation ∈ operations, operation.movesPc = false) →
      let machine := ((ofSettings settings).after operations).machine
      (machine.programEnd : Nat) ≤ memorySize ∧
      machine.pc ≤ memorySize ∧
      (machine.pc = settings.startPc.toNat ∨ machine.pc ≤ machine.programEnd + 2)) ∧
    ∀ engine : Engine,
      (∀ highest, memorySize + 1 ≤ highest →
        (tickUpTo highest).run engine = tick.run engine) ∧
      (∀ defect, (tick.run engine).result ≠ .error (.defect defect)) ∧
      (engine.tally.retired < (tick.run engine).state.tally.retired →
        (tick.run engine).state.machine.pc ≤ memorySize) := by
  constructor
  · intro settings operations stays machine
    have fresh : (ofSettings settings).machine.InBounds settings.startPc :=
      Machine.inBounds_of_entry rfl rfl
    have bounded : machine.InBounds settings.startPc := by
      apply invariant_after (motive := fun reached => reached.machine.InBounds settings.startPc)
      · intro operation member reached before
        exact Operation.inBounds_perform before (stays operation member)
      · exact fresh
    exact ⟨Nat.le_of_lt_succ machine.programEnd.isLt, bounded.inside, bounded.near⟩
  · intro engine
    exact ⟨fun _ high => run_tickUpTo high engine, defect_of_tick_free engine,
      pc_le_of_tick_retired⟩

-- A program that lacks its last two bytes, and a traced HLT that is the last byte of memory.
theorem addresses_bounded_at_last_byte :
    let settings : Settings := {}
    let operations : List Operation := [.load [0x82], .tick, .push 7]
    let machine := ((ofSettings settings).after operations).machine
    let last : Machine :=
      { Machine.ofSettings {} with
        memory := Memory.zero.put 255 1
        pc := 255
        programEnd := 256 }
    let engine : Engine := { machine := last, tracing := true }
    let astray : Engine := { machine := { last with pc := addressSpace - 1 }, tracing := true }
    (∀ operation ∈ operations, operation.movesPc = false) ∧
    machine.pc ≤ memorySize ∧
    (machine.pc = settings.startPc.toNat ∨ machine.pc ≤ machine.programEnd + 2) ∧
    machine.pc = machine.programEnd + 2 ∧
    (tickUpTo (memorySize + 1)).run engine = tick.run engine ∧
    (snapshots (tick.run engine).emitted).length = 1 ∧
    engine.tally.retired < (tick.run engine).state.tally.retired ∧
    (tick.run engine).state.machine.pc ≤ memorySize ∧
    (tickUpTo (memorySize + 1)).run astray = tick.run astray ∧
    (tick.run astray).result = .ok (.halted .endOfProgram) := by
  intro settings operations machine last engine astray
  have stays : ∀ operation ∈ operations, operation.movesPc = false := by decide
  have retires : engine.tally.retired < (tick.run engine).state.tally.retired := by
    decide +kernel
  obtain ⟨sessions, ticks⟩ := addresses_bounded
  obtain ⟨-, inside, near⟩ := sessions settings operations stays
  rw [show ((ofSettings settings).after operations).machine = machine from rfl] at inside near
  obtain ⟨same, -, moved⟩ := ticks engine
  obtain ⟨same', -, -⟩ := ticks astray
  exact ⟨stays, inside, near, by decide +kernel, same _ (Nat.le_refl _), by decide +kernel,
    retires, moved retires, same' _ (Nat.le_refl _), by decide +kernel⟩

-- With one address less, there is not even a snapshot of the last byte.
example :
    let machine := { Machine.ofSettings {} with pc := 255, programEnd := 256 }
    ((tickUpTo memorySize).run { machine := machine, tracing := true }).result =
      .error (.defect .addressOverflow) := by
  decide +kernel

end Engine

end LS8
