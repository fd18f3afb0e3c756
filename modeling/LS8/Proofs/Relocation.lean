import LS8.Proofs.ListedRuns
import LS8.Proofs.Sessions

set_option autoImplicit false

namespace LS8

def Trap.moved (offset : Nat) : Trap → Trap
  | .illegalInstruction opcode pc => .illegalInstruction opcode (pc + offset)
  | trap => trap

def Fault.moved (offset : Nat) (fault : Fault) : Fault where
  pc := fault.pc + offset
  trap := fault.trap.moved offset

def Failure.moved (offset : Nat) : Failure Fault → Failure Fault
  | .raised fault => .raised (fault.moved offset)
  | .defect broken => .defect broken

namespace Instruction

def moved (offset : Nat) (inst : Instruction) : Instruction :=
  { inst with pc := inst.pc + offset }

def movedAttempt (offset : Nat) : Except Trap Instruction → Except Trap Instruction
  | .ok inst => .ok (inst.moved offset)
  | .error trap => .error (trap.moved offset)

theorem movedAttempt_zero (attempt : Except Trap Instruction) :
    movedAttempt 0 attempt = attempt := by
  cases attempt with
  | ok inst => rfl
  | error trap => cases trap <;> rfl

theorem decode_moved {left right : ByteSource} {pc offset : Nat}
    (same : ∀ step ≤ maxOperands, right (pc + offset + step) = left (pc + step))
    (present : ∀ step ≤ maxOperands, ∃ byte, left (pc + step) = some byte) :
    decode right (pc + offset) = movedAttempt offset (decode left pc) := by
  obtain ⟨opcode, here⟩ := present 0 (Nat.zero_le _)
  have there := (same 0 (Nat.zero_le _)).trans here
  rw [Nat.add_zero] at here there
  cases known : Descriptor.lookup opcode with
  | none =>
      rw [decode_illegal here known, decode_illegal there known]
      rfl
  | some descriptor =>
      have operand (slot : Nat) (few : slot < maxOperands) :
          ∃ value, operandAt left pc descriptor.operandCount slot = .ok value ∧
            operandAt right (pc + offset) descriptor.operandCount slot = .ok value := by
        by_cases used : slot < descriptor.operandCount
        · obtain ⟨byte, held⟩ := present (1 + slot) (by omega)
          have held' := (same (1 + slot) (by omega)).trans held
          refine ⟨byte, ?_, ?_⟩
          · rw [operandAt_used used, ByteSource.read_eq_ok_iff, Nat.add_assoc, held]
          · rw [operandAt_used used, ByteSource.read_eq_ok_iff, Nat.add_assoc, held']
        · exact ⟨0, operandAt_unused (Nat.not_lt.mp used), operandAt_unused (Nat.not_lt.mp used)⟩
      obtain ⟨a, first, first'⟩ := operand 0 (by decide)
      obtain ⟨b, second, second'⟩ := operand 1 (by decide)
      rw [decode_known here known, decode_known there known, first, first', second, second']
      rfl

end Instruction

namespace Tally

def add (earlier later : Tally) : Tally where
  retired := earlier.retired + later.retired
  arithmetic := earlier.arithmetic + later.arithmetic
  load := earlier.load + later.load
  print := earlier.print + later.print
  stack := earlier.stack + later.stack
  system := earlier.system + later.system
  maxDepth := max earlier.maxDepth later.maxDepth

@[simp]
theorem add_fresh (tally : Tally) : tally.add {} = tally := by
  simp [add]

@[simp]
theorem fresh_add (tally : Tally) : add {} tally = tally := by
  simp [add]

theorem add_record (earlier later : Tally) (inst : Instruction) (depth : Nat) :
    earlier.add (later.record inst depth) = (earlier.add later).record inst depth := by
  unfold record
  cases inst.mnemonic <;> simp only [add, Nat.add_assoc, Nat.max_assoc]

end Tally

namespace Machine

structure HoldsSame (left right : Machine) : Prop where
  growable : left.placement = .growable
  growable' : right.placement = .growable
  registers : right.registers = left.registers
  stack : right.stack = left.stack

namespace HoldsSame

variable {left right : Machine}

theorem setRegister (same : HoldsSame left right) (index : Fin registerCount) (value : UInt8) :
    HoldsSame (left.setRegister index value) (right.setRegister index value) :=
  { same with registers := congrArg (Registers.set · index value) same.registers }

theorem pushed (same : HoldsSame left right) (value : UInt8) :
    HoldsSame (left.pushed value) (right.pushed value) := by
  rw [pushed_growable same.growable, pushed_growable same.growable']
  exact { same with stack := congrArg (value :: ·) same.stack }

theorem popped (same : HoldsSame left right) :
    Alike (fun top top' => top'.1 = top.1 ∧ HoldsSame top.2 top'.2) left.popped right.popped := by
  rw [popped_growable same.growable, popped_growable same.growable', same.stack]
  cases left.stack with
  | nil => exact .trapped _
  | cons value rest => exact .completed ⟨rfl, { same with stack := rfl }⟩

theorem withPc (same : HoldsSame left right) (pc pc' : Nat) :
    HoldsSame { left with pc := pc } { right with pc := pc' } :=
  { same with }

theorem stackDepth_eq (same : HoldsSame left right) : right.stackDepth = left.stackDepth := by
  simp only [stackDepth, same.growable, same.growable', same.stack]

theorem effect (same : HoldsSame left right) (mnemonic : Mnemonic) (a b : UInt8) :
    Alike (fun effect effect' => effect'.printed = effect.printed ∧
        HoldsSame effect.machine effect'.machine)
      (mnemonic.effect a b left) (mnemonic.effect a b right) := by
  cases mnemonic with
  | hlt => exact .completed ⟨rfl, same⟩
  | ldi =>
      apply (Alike.refl (Registers.checkedIndex a.toNat)).bind
      rintro index _ rfl
      exact .completed ⟨rfl, same.setRegister index b⟩
  | prn =>
      apply (Alike.refl (Registers.checkedIndex a.toNat)).bind
      rintro index _ rfl
      exact .completed ⟨by rw [same.registers], same⟩
  | mul =>
      apply (Alike.refl (Registers.checkedIndex a.toNat)).bind
      rintro target _ rfl
      apply (Alike.refl (Registers.checkedIndex b.toNat)).bind
      rintro other _ rfl
      rw [same.registers]
      exact .completed ⟨rfl, same.setRegister target _⟩
  | push =>
      apply (Alike.refl (Registers.checkedIndex a.toNat)).bind
      rintro index _ rfl
      rw [same.registers]
      exact .completed ⟨rfl, same.pushed _⟩
  | pop =>
      apply (Alike.refl (Registers.checkedIndex a.toNat)).bind
      rintro index _ rfl
      apply same.popped.bind
      rintro ⟨_, rest⟩ ⟨value, rest'⟩ ⟨rfl, same'⟩
      exact .completed ⟨rfl, same'.setRegister index value⟩

end HoldsSame

structure Code where
  memory : Memory
  programEnd : Fin (memorySize + 1)

def code (machine : Machine) : Code where
  memory := machine.memory
  programEnd := machine.programEnd

structure Code.Moved (offset : Nat) (code moved : Code) : Prop where
  programEnd : (moved.programEnd : Nat) = code.programEnd + offset
  room : moved.programEnd + maxOperands ≤ memorySize
  bytes : ∀ address < code.programEnd + maxOperands,
    moved.memory.byte? (address + offset) = code.memory.byte? address

theorem Code.Moved.fetched {offset : Nat} {left right : Machine}
    (moved : Code.Moved offset left.code right.code) (pc : right.pc = left.pc + offset)
    (inside : left.pc < left.programEnd) :
    right.fetched = Instruction.movedAttempt offset left.fetched := by
  have further := moved.programEnd
  have room := moved.room
  simp only [code] at further room
  rw [Machine.fetched, Machine.fetched, pc]
  apply Instruction.decode_moved
  · intro step few
    have bytes := moved.bytes (left.pc + step) (by simp only [code]; omega)
    rwa [Nat.add_right_comm] at bytes
  · intro step few
    exact Memory.exists_byte?_iff.mpr (by omega)

theorem code_transition {machine : Machine} {done : Retirement}
    (growable : machine.placement = .growable) (completed : machine.transition = .ok done) :
    done.machine.code = machine.code := by
  have sameEnd : done.machine.programEnd = machine.programEnd :=
    congrArg Frame.programEnd (frame_transition completed)
  obtain ⟨fetched, effect, reached, moved, -⟩ := transition_eq_ok completed
  obtain ⟨mnemonic, a, b, same⟩ := Instruction.eq_of_decode fetched
  rw [same, effect_of_descriptor] at reached
  have untouched := Mnemonic.memory_effect growable reached
  rw [code, code, sameEnd, moved, untouched]

end Machine

structure Retirement.Moved (offset : Nat) (done moved : Retirement) : Prop where
  inst : moved.inst = done.inst.moved offset
  printed : moved.printed = done.printed
  holds : Machine.HoldsSame done.machine moved.machine
  pc : moved.machine.pc = done.machine.pc + offset

theorem Machine.HoldsSame.transition {left right : Machine} {offset : Nat} {inst : Instruction}
    (same : HoldsSame left right) (fetched : left.fetched = .ok inst)
    (fetched' : right.fetched = .ok (inst.moved offset)) :
    Alike (Retirement.Moved offset) left.transition right.transition := by
  obtain ⟨mnemonic, a, b, rfl⟩ := Instruction.eq_of_decode fetched
  rw [transition_of_fetched fetched, transition_of_fetched fetched', Instruction.moved,
    effect_of_descriptor, effect_of_descriptor]
  apply (same.effect mnemonic a b).map
  rintro effect effect' ⟨printed, holds⟩
  exact ⟨rfl, printed, holds.withPc _ _, Nat.add_right_comm ..⟩

namespace Engine

/-- The engine `moved` is where `engine` is in the same code further up, and counted more. -/
structure Follows (offset : Nat) (earlier : Tally) (engine moved : Engine) : Prop where
  holds : Machine.HoldsSame engine.machine moved.machine
  pc : moved.machine.pc = engine.machine.pc + offset
  tally : moved.tally = earlier.add engine.tally
  state : moved.state = engine.state

structure Reports (offset : Nat) (emitted moved : List Emission) : Prop where
  printed : printedValues moved = printedValues emitted
  decoded : decodedInstructions moved =
    (decodedInstructions emitted).map (Instruction.moved offset)

theorem Reports.append {offset : Nat} {first first' second second' : List Emission}
    (here : Reports offset first first') (there : Reports offset second second') :
    Reports offset (first ++ second) (first' ++ second') where
  printed := by
    simp only [printedValues_append, here.printed, there.printed]
  decoded := by
    simp only [decodedInstructions_append, here.decoded, there.decoded, List.map_append]

abbrev Relocates {α : Type} (offset : Nat) (earlier : Tally)
    (outcome moved : Outcome Emission Engine (Failure Fault) α) : Prop :=
  Parallel (Follows offset earlier) (Reports offset) (Failure.moved offset) outcome moved

variable {offset : Nat} {earlier : Tally} {engine moved : Engine}

theorem Follows.retire (follows : Follows offset earlier engine moved) {done done' : Retirement}
    (same : done.Moved offset done') :
    Follows offset earlier (engine.retire done) (moved.retire done') where
  holds := same.holds
  pc := same.pc
  tally := by
    simp only [Engine.retire, same.inst, same.holds.stackDepth_eq, follows.tally,
      Tally.add_record]
    rfl
  state := by
    simp only [Engine.retire, Retirement.state, same.inst]
    rfl

theorem Follows.stop (follows : Follows offset earlier engine moved) (reason : HaltReason) :
    Follows offset earlier { engine with state := .halted reason }
      { moved with state := .halted reason } :=
  { follows with state := rfl }

theorem decodedInstructions_opening_moved
    (fetches : moved.machine.fetched = Instruction.movedAttempt offset engine.machine.fetched) :
    decodedInstructions moved.opening =
      (decodedInstructions engine.opening).map (Instruction.moved offset) := by
  cases fetched : engine.machine.fetched with
  | error trap =>
      rw [fetched] at fetches
      rw [decodedInstructions_opening_error fetched, decodedInstructions_opening_error fetches]
      rfl
  | ok inst =>
      rw [fetched] at fetches
      rw [decodedInstructions_opening fetched, decodedInstructions_opening fetches]
      rfl

theorem Follows.tick_trapped (follows : Follows offset earlier engine moved) {trap : Trap}
    (running : engine.state = .running)
    (inside : engine.machine.pc < engine.machine.programEnd)
    (inside' : moved.machine.pc < moved.machine.programEnd)
    (fetches : moved.machine.fetched = Instruction.movedAttempt offset engine.machine.fetched)
    (failed : engine.machine.transition = .error trap)
    (failed' : moved.machine.transition = .error (trap.moved offset)) :
    Relocates offset earlier (tick.run engine) (tick.run moved) := by
  rw [Engine.tick_trapped running inside failed,
    Engine.tick_trapped (follows.state.trans running) inside' failed']
  refine ⟨follows.stop .faulted, ⟨by simp, ?_⟩, ?_⟩
  · rw [decodedInstructions_append, decodedInstructions_append,
      decodedInstructions_opening_moved fetches, List.map_append]
    rfl
  · rw [follows.pc]
    rfl

theorem Follows.tick_retired (follows : Follows offset earlier engine moved)
    {done done' : Retirement} (running : engine.state = .running)
    (inside : engine.machine.pc < engine.machine.programEnd)
    (inside' : moved.machine.pc < moved.machine.programEnd)
    (fetches : moved.machine.fetched = Instruction.movedAttempt offset engine.machine.fetched)
    (completed : engine.machine.transition = .ok done)
    (completed' : moved.machine.transition = .ok done') (same : done.Moved offset done') :
    Relocates offset earlier (tick.run engine) (tick.run moved) := by
  have after := follows.retire same
  rw [Engine.tick_retired running inside completed,
    Engine.tick_retired (follows.state.trans running) inside' completed']
  refine ⟨after, ⟨by simp [same.printed], ?_⟩, ?_⟩
  · simp [decodedInstructions_opening_moved fetches]
  · have state : done'.state = done.state := after.state
    rw [state]
    rfl

-- What is fetched is legal, so an instruction that traps does not name its address.
theorem moved_of_trapped {machine : Machine} {inst : Instruction} {trap : Trap} (offset : Nat)
    (fetched : machine.fetched = .ok inst) (failed : machine.transition = .error trap) :
    trap.moved offset = trap := by
  obtain ⟨mnemonic, a, b, rfl⟩ := Instruction.eq_of_decode fetched
  rw [Machine.transition_of_fetched fetched, Machine.effect_of_descriptor] at failed
  cases reached : mnemonic.effect a b machine with
  | ok effect =>
      rw [reached] at failed
      cases failed
  | error cause =>
      rw [reached] at failed
      cases failed
      obtain ⟨index, rfl⟩ | rfl := Mnemonic.trap_of_effect reached
      · rfl
      · rfl

theorem Follows.tick (follows : Follows offset earlier engine moved)
    (ends : moved.machine.pc < moved.machine.programEnd ↔
      engine.machine.pc < engine.machine.programEnd)
    (fetches : engine.machine.pc < engine.machine.programEnd →
      moved.machine.fetched = Instruction.movedAttempt offset engine.machine.fetched) :
    Relocates offset earlier (tick.run engine) (tick.run moved) := by
  cases running : engine.state with
  | halted reason =>
      rw [tick_halted running, tick_halted (follows.state.trans running)]
      exact ⟨follows, ⟨rfl, rfl⟩, rfl⟩
  | running =>
      by_cases inside : engine.machine.pc < engine.machine.programEnd
      · have inside' := ends.mpr inside
        have there := fetches inside
        cases fetched : engine.machine.fetched with
        | error trap =>
            have failed := Machine.transition_of_not_fetched fetched
            have fetched' := there
            rw [fetched] at fetched'
            have failed' := Machine.transition_of_not_fetched fetched'
            exact follows.tick_trapped running inside inside' there failed failed'
        | ok inst =>
            have fetched' := there
            rw [fetched] at fetched'
            have alike := follows.holds.transition fetched fetched'
            generalize reached : engine.machine.transition = left,
              reached' : moved.machine.transition = right at alike
            cases alike with
            | trapped trap =>
                rw [← moved_of_trapped offset fetched reached] at reached'
                exact follows.tick_trapped running inside inside' there reached reached'
            | completed same =>
                exact follows.tick_retired running inside inside' there reached reached' same
      · have past := Nat.not_lt.mp inside
        have past' := Nat.not_lt.mp fun within => inside (ends.mp within)
        rw [tick_at_end running past, tick_at_end (follows.state.trans running) past']
        exact ⟨follows.stop .endOfProgram, ⟨rfl, rfl⟩, rfl⟩

theorem code_tick (growable : engine.machine.placement = .growable) :
    (tick.run engine).state.machine.code = engine.machine.code := by
  have seen := ticked engine
  generalize tick.run engine = outcome at seen ⊢
  cases seen with
  | halted reason stopped => rfl
  | ended running past => rfl
  | trapped trap running inside failed => rfl
  | retired done running inside completed => exact Machine.code_transition growable completed

structure FollowsCode (offset : Nat) (earlier : Tally) (engine moved : Engine) : Prop
    extends Follows offset earlier engine moved where
  code : Machine.Code.Moved offset engine.machine.code moved.machine.code

theorem FollowsCode.tick (follows : FollowsCode offset earlier engine moved) :
    Parallel (FollowsCode offset earlier) (Reports offset) (Failure.moved offset)
      (Engine.tick.run engine) (Engine.tick.run moved) := by
  have further := follows.code.programEnd
  simp only [Machine.code] at further
  have ends : moved.machine.pc < moved.machine.programEnd ↔
      engine.machine.pc < engine.machine.programEnd := by
    rw [follows.pc, further]
    omega
  have ticked := follows.toFollows.tick ends (follows.code.fetched follows.pc)
  refine ⟨⟨ticked.engine, ?_⟩, ticked.emitted, ticked.result⟩
  rw [code_tick follows.holds.growable, code_tick follows.holds.growable']
  exact follows.code

theorem FollowsCode.run (follows : FollowsCode offset earlier engine moved) :
    Parallel (FollowsCode offset earlier) (Reports offset) (Failure.moved offset)
      (Engine.run.run engine) (Engine.run.run moved) :=
  parallel_run Reports.append FollowsCode.tick follows

theorem FollowsCode.trail (follows : FollowsCode offset earlier engine moved) (count : Nat) :
    (trail count moved).results =
      (trail count engine).results.map (Except.mapError (Failure.moved offset)) ∧
    Reports offset (trail count engine).emitted (trail count moved).emitted ∧
    FollowsCode offset earlier (trail count engine).engine (trail count moved).engine := by
  induction count generalizing engine moved with
  | zero => exact ⟨rfl, ⟨rfl, rfl⟩, follows⟩
  | succ count ih =>
      have ticked := follows.tick
      obtain ⟨results, reports, reached⟩ := ih ticked.engine
      refine ⟨?_, ticked.emitted.append reports, reached⟩
      simp only [Engine.trail, results, ticked.result, List.map_cons]

theorem moved_loaded {before image : List UInt8}
    (room : before.length + image.length + maxOperands ≤ memorySize)
    (fits : image.length < memorySize + 1) (fits' : (before ++ image).length < memorySize + 1)
    (engine moved : Engine) :
    Machine.Code.Moved before.length (engine.loaded image fits).machine.code
      (moved.loaded (before ++ image) fits').machine.code := by
  have longer : (before ++ image).length = image.length + before.length := by
    rw [List.length_append, Nat.add_comm]
  simp only [loaded, Machine.code]
  refine ⟨longer, by simp only [longer]; omega, ?_⟩
  intro address below
  simp only at below
  rw [Memory.byte?_overlay_getD (by omega), Memory.byte?_overlay_getD (by omega)]
  simp [List.getD_eq_getElem?_getD, List.getElem?_append_right]

theorem fetched_congr {machine : Machine} {memory : Memory}
    (same : ∀ address, machine.pc ≤ address →
      memory.byte? address = machine.memory.byte? address) :
    { machine with memory := memory }.fetched = machine.fetched := by
  apply Instruction.decode_congr
  intro step _
  exact same _ (Nat.le_add_right ..)

theorem follows_loaded {image image' : List UInt8} (fits : image.length < memorySize + 1)
    (fits' : image'.length < memorySize + 1)
    (same : Machine.HoldsSame engine.machine moved.machine) (entry : engine.machine.entry = 0)
    (entry' : moved.machine.entry.toNat = offset) :
    Follows offset {} (engine.loaded image fits) (moved.loaded image' fits') where
  holds := by constructor <;>
    simp only [loaded, same.growable, same.growable', same.registers, same.stack]
  pc := by simp only [loaded, entry, entry', UInt8.toNat_zero, Nat.zero_add]
  tally := by rw [Tally.fresh_add]; rfl
  state := rfl

theorem entry_point_relocates (before image : List UInt8) (engine moved : Engine)
    (room : before.length + image.length + 2 ≤ memorySize)
    (growable : engine.machine.placement = .growable)
    (growable' : moved.machine.placement = .growable)
    (entry : engine.machine.entry = 0) (entry' : moved.machine.entry.toNat = before.length)
    (registers : moved.machine.registers = engine.machine.registers)
    (stack : moved.machine.stack = engine.machine.stack) :
    let loading := (load image).run engine
    let loading' := (load (before ++ image)).run moved
    loading.result = .ok () ∧
    loading'.result = .ok () ∧
    (∀ count : Nat,
      let here := trail count loading.state
      let there := trail count loading'.state
      there.engine.machine.registers = here.engine.machine.registers ∧
      there.engine.machine.stack = here.engine.machine.stack ∧
      printedValues there.emitted = printedValues here.emitted ∧
      there.engine.tally = here.engine.tally ∧
      there.engine.state = here.engine.state ∧
      there.engine.machine.pc = here.engine.machine.pc + before.length ∧
      there.results = here.results.map (Except.mapError (Failure.moved before.length)) ∧
      (∀ inst ∈ decodedInstructions there.emitted, before.length ≤ inst.pc) ∧
      ∀ memory : Memory,
        (∀ address, before.length ≤ address →
          memory.byte? address = there.engine.machine.memory.byte? address) →
        { there.engine.machine with memory := memory }.fetched = there.engine.machine.fetched) ∧
    (run.run loading'.state).result =
      (run.run loading.state).result.mapError (Failure.moved before.length) := by
  intro loading loading'
  have fits : image.length ≤ memorySize := by omega
  have fits' : (before ++ image).length ≤ memorySize := by
    rw [List.length_append]
    omega
  have placed : loading = _ := run_load fits engine
  have placed' : loading' = _ := run_load fits' moved
  have code := moved_loaded room (Nat.lt_succ_of_le fits) (Nat.lt_succ_of_le fits') engine moved
  have same : Machine.HoldsSame engine.machine moved.machine :=
    ⟨growable, growable', registers, stack⟩
  have started := follows_loaded (Nat.lt_succ_of_le fits) (Nat.lt_succ_of_le fits') same entry
    entry'
  have follows : FollowsCode before.length {} _ _ := ⟨started, code⟩
  rw [placed, placed']
  refine ⟨rfl, rfl, ?_, follows.run.result⟩
  intro count here there
  obtain ⟨results, reports, reached⟩ := follows.trail count
  have tally : there.engine.tally = here.engine.tally := by
    have counted := reached.tally
    rwa [Tally.fresh_add] at counted
  refine ⟨reached.holds.registers, reached.holds.stack, reports.printed, tally, reached.state,
    reached.pc, results, ?_, ?_⟩
  · intro inst member
    rw [show there = trail count _ from rfl, reports.decoded] at member
    obtain ⟨original, -, rfl⟩ := List.mem_map.mp member
    exact Nat.le_add_left ..
  · intro memory same
    apply fetched_congr
    intro address behind
    rw [show there = trail count _ from rfl, reached.pc] at behind
    exact same address (Nat.le_trans (Nat.le_add_left ..) behind)

-- A value on the stack and one in a register, and an image that ends in a byte that is no opcode.
theorem entry_point_relocates_to_illegal_opcode :
    let before : List UInt8 := [0xFF, 0x82, 0]
    let image : List UInt8 := [0x47, 1, 0x46, 0, 0x47, 0, 0xFF]
    let history : List Operation := [.writeRegister 1 9, .push 7]
    let engine := (ofSettings {}).after history
    let moved := (ofSettings { startPc := 3 }).after history
    let loading := (load (before ++ image)).run moved
    let there := trail 4 loading.state
    before.length + image.length + 2 ≤ memorySize ∧
    engine.machine.placement = .growable ∧
    moved.machine.placement = .growable ∧
    engine.machine.entry = 0 ∧
    moved.machine.entry.toNat = before.length ∧
    moved.machine.registers = engine.machine.registers ∧
    moved.machine.stack = engine.machine.stack ∧
    there.results = List.replicate 3 (.ok .running) ++
      [.error (.raised ⟨9, .illegalInstruction 0xFF 9⟩)] ∧
    printedValues there.emitted = [9, 7] ∧
    (run.run loading.state).result = .error (.raised ⟨9, .illegalInstruction 0xFF 9⟩) := by
  intro before image history engine moved loading there
  have registers : moved.machine.registers = engine.machine.registers := by decide +kernel
  have stack : moved.machine.stack = engine.machine.stack := by decide +kernel
  obtain ⟨-, -, ticks, ended⟩ := entry_point_relocates before image engine moved (by decide)
    (by decide +kernel) (by decide +kernel) (by decide +kernel) (by decide +kernel) registers stack
  obtain ⟨-, -, printed, -, -, -, results, -, -⟩ := ticks 4
  refine ⟨by decide, by decide +kernel, by decide +kernel, by decide +kernel, by decide +kernel,
    registers, stack, results.trans ?_, printed.trans ?_, ended.trans ?_⟩
  · decide +kernel
  · decide +kernel
  · decide +kernel

end Engine

end LS8
