import LS8.Proofs.Hazards
import LS8.Proofs.Listing
import LS8.Proofs.Loading

set_option autoImplicit false

namespace LS8

def Emission.decoded? : Emission → Option Instruction
  | .event (.execute inst) => some inst
  | _ => none

def decodedInstructions (emitted : List Emission) : List Instruction :=
  emitted.filterMap Emission.decoded?

@[simp]
theorem decodedInstructions_append (before after : List Emission) :
    decodedInstructions (before ++ after) =
      decodedInstructions before ++ decodedInstructions after :=
  List.filterMap_append

@[simp]
theorem decodedInstructions_printed (values : List UInt8) :
    decodedInstructions (values.map .printed) = [] := by
  induction values with
  | nil => rfl
  | cons value rest ih => exact ih

namespace Engine

@[simp]
theorem decodedInstructions_closing (done : Retirement) (engine : Engine) :
    decodedInstructions (engine.closing done) = [] := by
  rw [closing]
  cases done.inst.flow <;> rfl

theorem decodedInstructions_opening {engine : Engine} {inst : Instruction}
    (fetched : engine.machine.fetched = .ok inst) :
    decodedInstructions engine.opening = [inst] := by
  rw [opening, shown, fetched]
  cases engine.tracing <;> rfl

theorem decodedInstructions_opening_error {engine : Engine} {trap : Trap}
    (failed : engine.machine.fetched = .error trap) :
    decodedInstructions engine.opening = [] := by
  rw [opening, shown, failed]
  cases engine.tracing <;> rfl

end Engine

inductive Ending
  | halted
  | faulted (fault : Fault)
  | data (address : Nat) (byte : UInt8)
  | through
  deriving DecidableEq

structure Walk where
  -- The instructions that were executed; of a walk that faulted the last one has no effect.
  attempted : List Instruction
  machine : Machine
  ending : Ending
  deriving DecidableEq

def walk : List ListingLine → Machine → Walk
  | [], machine => ⟨[], machine, .through⟩
  | .data address byte :: _, machine => ⟨[], machine, .data address byte⟩
  | .instruction inst :: rest, machine =>
      let executed := (Machine.execute inst).run machine
      let retired := { executed.state with pc := inst.pc + inst.width }
      match executed.result with
      | .error trap => ⟨[inst], executed.state, .faulted ⟨inst.pc, trap⟩⟩
      | .ok .halt => ⟨[inst], retired, .halted⟩
      | .ok _ =>
          let later := walk rest retired
          ⟨inst :: later.attempted, later.machine, later.ending⟩

def Instruction.padded (image : List UInt8) (pc : Nat) (descriptor : Descriptor) : Instruction :=
  let operand (slot : Nat) :=
    if slot < descriptor.operandCount then image.getD (pc + 1 + slot) 0 else 0
  ⟨pc, descriptor, operand 0, operand 1⟩

structure Stops (decoded : List Instruction) (result : Except Fault HaltReason) (machine : Machine)
    (running : Outcome Emission Engine (Failure Fault) HaltReason) : Prop where
  decoded : decodedInstructions running.emitted = decoded
  result : running.result = result.mapError .raised
  machine : running.state.machine = machine

namespace Walk

/--
A run that comes to an opcode whose operands the image cuts off. It executes the instruction with
zeros for them and is then past the end of the program, but where memory ends too it faults.
-/
def CutOff (image : List UInt8) (walked : Walk) (address : Nat) (descriptor : Descriptor)
    (running : Outcome Emission Engine (Failure Fault) HaltReason) : Prop :=
  image.length < address + descriptor.width ∧
    if memorySize < address + descriptor.width then
      Stops walked.attempted (.error ⟨address, .outOfRange (.memory memorySize)⟩) walked.machine
        running
    else
      let inst := Instruction.padded image address descriptor
      let executed := (Machine.execute inst).run walked.machine
      match executed.result with
      | .error trap =>
          Stops (walked.attempted ++ [inst]) (.error ⟨address, trap⟩) executed.state running
      | .ok _ =>
          Stops (walked.attempted ++ [inst]) (.ok .endOfProgram)
            { executed.state with pc := address + descriptor.width } running

def Explains (image : List UInt8) (walked : Walk)
    (running : Outcome Emission Engine (Failure Fault) HaltReason) : Prop :=
  match walked.ending with
  | .halted => Stops walked.attempted (.ok .hlt) walked.machine running
  | .faulted fault => Stops walked.attempted (.error fault) walked.machine running
  | .through =>
      Stops walked.attempted (.ok .endOfProgram) walked.machine running ∧
        walked.machine.pc = image.length
  | .data address byte =>
      match Descriptor.lookup byte with
      | none =>
          Stops walked.attempted (.error ⟨address, .illegalInstruction byte address⟩)
            walked.machine running
      | some descriptor => walked.CutOff image address descriptor running

end Walk

theorem walk_trapped {inst : Instruction} {machine : Machine} {trap : Trap}
    (failed : machine.effect inst = .error trap) (rest : List ListingLine) :
    walk (.instruction inst :: rest) machine = ⟨[inst], machine, .faulted ⟨inst.pc, trap⟩⟩ := by
  simp [walk, Machine.run_execute, failed, Machine.settled]

theorem walk_halted {inst : Instruction} {machine : Machine} {effect : Effect}
    (reached : machine.effect inst = .ok effect) (halts : inst.flow = .halt)
    (rest : List ListingLine) :
    walk (.instruction inst :: rest) machine =
      ⟨[inst], { effect.machine with pc := inst.pc + inst.width }, .halted⟩ := by
  simp [walk, Machine.run_execute, reached, Machine.settled, halts]

theorem walk_next {inst : Instruction} {machine : Machine} {effect : Effect}
    (reached : machine.effect inst = .ok effect) (goesOn : inst.flow = .next)
    (rest : List ListingLine) :
    walk (.instruction inst :: rest) machine =
      let later := walk rest { effect.machine with pc := inst.pc + inst.width }
      ⟨inst :: later.attempted, later.machine, later.ending⟩ := by
  simp [walk, Machine.run_execute, reached, Machine.settled, goesOn]

namespace Mnemonic

variable {mnemonic : Mnemonic} {a b : UInt8} {machine : Machine}

theorem memory_effect {effect : Effect} (growable : machine.placement = .growable)
    (reached : mnemonic.effect a b machine = .ok effect) :
    effect.machine.memory = machine.memory := by
  cases mnemonic with
  | hlt =>
      cases reached
      rfl
  | ldi | prn =>
      obtain ⟨index, -, reached⟩ := exists_of_bind_eq_ok reached
      cases reached
      rfl
  | mul =>
      obtain ⟨target, -, reached⟩ := exists_of_bind_eq_ok reached
      obtain ⟨other, -, reached⟩ := exists_of_bind_eq_ok reached
      cases reached
      rfl
  | push =>
      obtain ⟨source, -, reached⟩ := exists_of_bind_eq_ok reached
      cases reached
      simp only [Machine.pushed_growable growable]
  | pop =>
      obtain ⟨target, -, reached⟩ := exists_of_bind_eq_ok reached
      obtain ⟨⟨value, below⟩, popped, reached⟩ := exists_of_bind_eq_ok reached
      cases reached
      rw [Machine.popped_growable growable] at popped
      cases held : machine.stack with
      | nil => simp [held] at popped
      | cons top rest =>
          rw [held] at popped
          cases popped
          rfl

end Mnemonic

namespace Instruction

variable {image : List UInt8} {pc : Nat} {opcode : UInt8} {descriptor : Descriptor}

theorem operandByte_loaded {slot : Nat}
    (inside : slot < descriptor.operandCount → pc + 1 + slot < memorySize) :
    operandByte (Memory.zero.overlay 0 image).byte? pc descriptor.operandCount slot =
      if slot < descriptor.operandCount then image.getD (pc + 1 + slot) 0 else 0 := by
  by_cases used : slot < descriptor.operandCount
  · rw [operandByte, if_pos used, if_pos used, Memory.byte?_overlay_getD (inside used)]
    rfl
  · rw [operandByte, if_neg used, if_neg used]

theorem decode_padded (here : (Memory.zero.overlay 0 image).byte? pc = some opcode)
    (known : Descriptor.lookup opcode = some descriptor)
    (inside : pc + descriptor.width ≤ memorySize) :
    decode (Memory.zero.overlay 0 image).byte? pc = .ok (padded image pc descriptor) := by
  rw [decode_inside (Memory.endsAt _) here known inside]
  simp only [Descriptor.width] at inside
  rw [operandByte_loaded (by omega), operandByte_loaded (by omega)]
  rfl

end Instruction

namespace Engine

structure Reads (image : List UInt8) (lines : List ListingLine) (engine : Engine) : Prop where
  running : engine.state = .running
  growable : engine.machine.placement = .growable
  memory : engine.machine.memory = Memory.zero.overlay 0 image
  programEnd : engine.machine.programEnd = image.length
  inside : engine.machine.pc ≤ image.length
  lines : listingFrom engine.machine.pc (image.drop engine.machine.pc) = lines

namespace Reads

variable {image : List UInt8} {rest : List ListingLine} {engine : Engine} {inst : Instruction}

theorem pc_lt {line : ListingLine} (reads : Reads image (line :: rest) engine) :
    engine.machine.pc < engine.machine.programEnd := by
  rw [reads.programEnd]
  apply Nat.lt_of_not_le
  intro past
  have none : image.drop engine.machine.pc = [] := List.drop_of_length_le past
  have listed := reads.lines
  rw [none, listingFrom_nil] at listed
  cases listed

theorem extended {lines : List ListingLine} (reads : Reads image lines engine)
    (fits : image.length ≤ memorySize) (address : Nat) (byte : UInt8)
    (held : ByteSource.ofList engine.machine.pc (image.drop engine.machine.pc) address =
      some byte) :
    engine.machine.memory.byte? address = some byte := by
  rw [ByteSource.ofList_drop] at held
  split at held
  next =>
    have inside := (List.getElem?_eq_some_iff.mp held).1
    rw [reads.memory, Memory.byte?_overlay_zero inside fits, held]
  next => cases held

theorem fetched (reads : Reads image (.instruction inst :: rest) engine)
    (fits : image.length ≤ memorySize) : engine.machine.fetched = .ok inst := by
  cases firstLine_of_listingFrom reads.lines with
  | instruction decoded whole => exact Instruction.decode_mono (reads.extended fits) decoded

theorem next (reads : Reads image (.instruction inst :: rest) engine) {effect : Effect}
    (fits : image.length ≤ memorySize) (goesOn : inst.flow = .next)
    (reached : engine.machine.effect inst = .ok effect) :
    Reads image rest (engine.retire
      ⟨inst, { effect.machine with pc := inst.pc + inst.width }, effect.printed⟩) := by
  have fetched := reads.fetched fits
  have here := (Instruction.lookup_of_decode fetched).2
  have kept := Machine.frame_effect reached
  obtain ⟨mnemonic, a, b, same⟩ := Instruction.eq_of_decode fetched
  have untouched : effect.machine.memory = engine.machine.memory := by
    rw [same, Machine.effect_of_descriptor] at reached
    exact Mnemonic.memory_effect reads.growable reached
  cases firstLine_of_listingFrom reads.lines with
  | instruction decoded whole =>
      rw [List.length_drop] at whole
      have inside := reads.inside
      refine ⟨by simp [Engine.retire, Retirement.state, goesOn],
        (congrArg Machine.Frame.placement kept).trans reads.growable,
        untouched.trans reads.memory,
        (congrArg (fun frame : Machine.Frame => frame.programEnd.val) kept).trans
          reads.programEnd, ?_, ?_⟩
      · simp only [Engine.retire, here]
        omega
      · simp only [Engine.retire, here, List.drop_drop]

end Reads

section Stopping

variable {engine : Engine} {inst : Instruction} {trap : Trap}

theorem stops_at_end (running : engine.state = .running)
    (past : engine.machine.programEnd ≤ engine.machine.pc) :
    Stops [] (.ok .endOfProgram) engine.machine (run.run engine) := by
  have ended := tick_at_end running past
  rw [run_halted (congrArg Outcome.result ended), ended]
  exact ⟨rfl, rfl, rfl⟩

theorem stops_not_fetched (running : engine.state = .running)
    (inside : engine.machine.pc < engine.machine.programEnd)
    (failed : engine.machine.fetched = .error trap) :
    Stops [] (.error ⟨engine.machine.pc, trap⟩) engine.machine (run.run engine) := by
  have faulted := tick_trapped running inside (Machine.transition_of_not_fetched failed)
  rw [run_error (congrArg Outcome.result faulted), faulted]
  refine ⟨?_, rfl, rfl⟩
  rw [decodedInstructions_append, decodedInstructions_opening_error failed]
  rfl

theorem stops_trapped (running : engine.state = .running)
    (inside : engine.machine.pc < engine.machine.programEnd)
    (fetched : engine.machine.fetched = .ok inst)
    (failed : engine.machine.effect inst = .error trap) :
    Stops [inst] (.error ⟨engine.machine.pc, trap⟩) engine.machine (run.run engine) := by
  have trapped := Machine.transition_of_fetched fetched
  rw [failed, error_map] at trapped
  have faulted := tick_trapped running inside trapped
  rw [run_error (congrArg Outcome.result faulted), faulted]
  refine ⟨?_, rfl, rfl⟩
  rw [decodedInstructions_append, decodedInstructions_opening fetched]
  rfl

variable {effect : Effect}

theorem tick_effect (running : engine.state = .running)
    (inside : engine.machine.pc < engine.machine.programEnd)
    (fetched : engine.machine.fetched = .ok inst)
    (reached : engine.machine.effect inst = .ok effect) :
    let done : Retirement :=
      ⟨inst, { effect.machine with pc := inst.pc + inst.width }, effect.printed⟩
    (tick.run engine).state = engine.retire done ∧
    (tick.run engine).result = .ok done.state ∧
    decodedInstructions (tick.run engine).emitted = [inst] := by
  intro done
  have completed := Machine.transition_of_fetched fetched
  rw [reached, ok_map] at completed
  rw [tick_retired running inside completed]
  refine ⟨rfl, rfl, ?_⟩
  simp [decodedInstructions_opening fetched]

theorem stops_halted (running : engine.state = .running)
    (inside : engine.machine.pc < engine.machine.programEnd)
    (fetched : engine.machine.fetched = .ok inst)
    (reached : engine.machine.effect inst = .ok effect) (halts : inst.flow = .halt) :
    Stops [inst] (.ok .hlt) { effect.machine with pc := inst.pc + inst.width }
      (run.run engine) := by
  obtain ⟨state, result, decoded⟩ := tick_effect running inside fetched reached
  have stopped : (tick.run engine).result = .ok (.halted .hlt) := by
    rw [result, Retirement.state, halts]
  rw [run_halted stopped]
  exact ⟨decoded, rfl, by rw [state]; rfl⟩

theorem Stops.of_next {later : List Instruction} {result : Except Fault HaltReason}
    {machine : Machine} (going : (tick.run engine).result = .ok .running)
    (decoded : decodedInstructions (tick.run engine).emitted = [inst])
    (stops : Stops later result machine (run.run (tick.run engine).state)) :
    Stops (inst :: later) result machine (run.run engine) := by
  rw [run_running going]
  refine ⟨?_, stops.result, stops.machine⟩
  rw [decodedInstructions_append, decoded, stops.decoded]
  rfl

theorem Explains.of_next {image : List UInt8} {walked : Walk}
    (going : (tick.run engine).result = .ok .running)
    (decoded : decodedInstructions (tick.run engine).emitted = [inst])
    (explains : walked.Explains image (run.run (tick.run engine).state)) :
    Walk.Explains image ⟨inst :: walked.attempted, walked.machine, walked.ending⟩
      (run.run engine) := by
  unfold Walk.Explains at explains ⊢
  cases ending : walked.ending with
  | halted | faulted fault =>
      rw [ending] at explains
      exact Stops.of_next going decoded explains
  | through =>
      rw [ending] at explains
      exact ⟨Stops.of_next going decoded explains.1, explains.2⟩
  | data address byte =>
      rw [ending] at explains
      cases known : Descriptor.lookup byte with
      | none =>
          simp only [known] at explains ⊢
          exact Stops.of_next going decoded explains
      | some descriptor =>
          simp only [known, Walk.CutOff] at explains ⊢
          refine ⟨explains.1, ?_⟩
          have rest := explains.2
          by_cases outside : memorySize < address + descriptor.width
          · rw [if_pos outside] at rest ⊢
            exact Stops.of_next going decoded rest
          · rw [if_neg outside] at rest ⊢
            split at rest <;> exact Stops.of_next going decoded rest

end Stopping

theorem flow_padded {image : List UInt8} {pc : Nat} {opcode : UInt8} {descriptor : Descriptor}
    (known : Descriptor.lookup opcode = some descriptor) (operands : 0 < descriptor.operandCount) :
    (Instruction.padded image pc descriptor).flow = .next := by
  obtain ⟨mnemonic, -, rfl⟩ := Descriptor.lookup_eq_some_iff.mp known
  rw [Mnemonic.operandCount_descriptor] at operands
  cases mnemonic with
  | hlt => cases operands
  | ldi | prn | mul | push | pop => rfl

namespace Reads

variable {image : List UInt8} {rest : List ListingLine} {engine : Engine} {address : Nat}
  {byte : UInt8} {descriptor : Descriptor}

theorem address_of_data (reads : Reads image (.data address byte :: rest) engine) :
    address = engine.machine.pc :=
  (firstLine_of_listingFrom reads.lines).address

theorem byte_of_data (reads : Reads image (.data address byte :: rest) engine) :
    ByteSource.ofList address (image.drop address) address = some byte := by
  have lines := reads.lines
  rw [← reads.address_of_data] at lines
  cases firstLine_of_listingFrom lines with
  | data first failed =>
      rw [List.getElem?_drop, Nat.add_zero] at first
      rw [ByteSource.ofList_drop, if_pos (Nat.le_refl _), first]

theorem memory_of_data (reads : Reads image (.data address byte :: rest) engine)
    (fits : image.length ≤ memorySize) : engine.machine.memory.byte? address = some byte := by
  have here := reads.byte_of_data
  rw [reads.address_of_data] at here ⊢
  exact reads.extended fits _ _ here

-- An opcode is listed as data where the image ends before its operands do.
theorem cut_of_data (reads : Reads image (.data address byte :: rest) engine)
    (known : Descriptor.lookup byte = some descriptor) :
    image.length < address + descriptor.width := by
  have here := reads.byte_of_data
  have lines := reads.lines
  rw [← reads.address_of_data] at lines
  cases firstLine_of_listingFrom lines with
  | data first failed =>
      obtain ⟨slot, used, none⟩ := Instruction.missing_of_decode_error here known failed
      rw [ByteSource.ofList_drop, if_pos (by omega), List.getElem?_eq_none_iff] at none
      simp only [Descriptor.width]
      omega

theorem stops_past_end (reads : Reads image (.data address byte :: rest) engine)
    {inst : Instruction} {effect : Effect} (fetched : engine.machine.fetched = .ok inst)
    (reached : engine.machine.effect inst = .ok effect) (goesOn : inst.flow = .next)
    (past : image.length ≤ inst.pc + inst.width) :
    Stops [inst] (.ok .endOfProgram) { effect.machine with pc := inst.pc + inst.width }
      (run.run engine) := by
  obtain ⟨state, result, decoded⟩ := tick_effect reads.running reads.pc_lt fetched reached
  have going : (tick.run engine).result = .ok .running := by
    rw [result, Retirement.state, goesOn]
  have kept := congrArg (fun frame : Machine.Frame => frame.programEnd.val)
    (Machine.frame_effect reached)
  have sameEnd : effect.machine.programEnd.val = image.length := kept.trans reads.programEnd
  have ended : Stops [] (.ok .endOfProgram) (tick.run engine).state.machine
      (run.run (tick.run engine).state) := by
    apply stops_at_end
    · simp [state, Engine.retire, Retirement.state, goesOn]
    · simp only [state, Engine.retire, sameEnd]
      exact past
  have stops := Stops.of_next going decoded ended
  rw [state] at stops
  exact stops

theorem explains_cutOff (reads : Reads image (.data address byte :: rest) engine)
    (fits : image.length ≤ memorySize) (known : Descriptor.lookup byte = some descriptor) :
    Walk.CutOff image ⟨[], engine.machine, .data address byte⟩ address descriptor
      (run.run engine) := by
  have cut := reads.cut_of_data known
  have inside := reads.pc_lt
  have here := reads.memory_of_data fits
  have fetching : engine.machine.fetched =
      Instruction.decode (Memory.zero.overlay 0 image).byte? address := by
    rw [Machine.fetched, reads.memory, reads.address_of_data]
  have short : address < image.length := by
    rw [reads.address_of_data, ← reads.programEnd]
    exact inside
  rw [reads.memory] at here
  refine ⟨cut, ?_⟩
  by_cases outside : memorySize < address + descriptor.width
  · rw [if_pos outside]
    have unread := Instruction.decode_outside (Memory.endsAt _) here known outside
    have stops := stops_not_fetched reads.running inside (fetching.trans unread)
    rwa [← reads.address_of_data] at stops
  · rw [if_neg outside]
    have fetched := fetching.trans
      (Instruction.decode_padded here known (Nat.not_lt.mp outside))
    have goesOn : (Instruction.padded image address descriptor).flow = .next := by
      apply flow_padded known
      simp only [Descriptor.width] at cut
      omega
    simp only [Machine.run_execute]
    cases reached : engine.machine.effect (Instruction.padded image address descriptor) with
    | error trap =>
        have stops := stops_trapped reads.running inside fetched reached
        rwa [← reads.address_of_data] at stops
    | ok effect =>
        exact reads.stops_past_end fetched reached goesOn (Nat.le_of_lt cut)

theorem explains {lines : List ListingLine} {engine : Engine} (reads : Reads image lines engine)
    (fits : image.length ≤ memorySize) :
    (walk lines engine.machine).Explains image (run.run engine) := by
  -- Each line that completes leaves the engine before the lines behind it.
  induction lines generalizing engine with
  | nil =>
      have reached : image.length ≤ engine.machine.pc :=
        List.drop_eq_nil_iff.mp (listingFrom_eq_nil_iff.mp reads.lines)
      exact ⟨stops_at_end reads.running (reads.programEnd ▸ reached),
        Nat.le_antisymm reads.inside reached⟩
  | cons line rest ih =>
      cases line with
      | data address byte =>
          have here := reads.memory_of_data fits
          cases known : Descriptor.lookup byte with
          | some descriptor =>
              simp only [walk, Walk.Explains, known]
              exact reads.explains_cutOff fits known
          | none =>
              simp only [walk, Walk.Explains, known]
              rw [reads.address_of_data] at here ⊢
              exact stops_not_fetched reads.running reads.pc_lt
                (Instruction.decode_illegal here known)
      | instruction inst =>
          have fetched := reads.fetched fits
          have here := (Instruction.lookup_of_decode fetched).2
          cases reached : engine.machine.effect inst with
          | error trap =>
              rw [walk_trapped reached, here]
              exact stops_trapped reads.running reads.pc_lt fetched reached
          | ok effect =>
              rcases inst.flow_eq with next | halt
              · obtain ⟨state, result, decoded⟩ :=
                  tick_effect reads.running reads.pc_lt fetched reached
                have going : (tick.run engine).result = .ok .running := by
                  rw [result, Retirement.state, next]
                have later := ih (reads.next fits next reached)
                rw [← state] at later
                rw [walk_next reached next]
                have walked := Explains.of_next going decoded later
                rw [state] at walked
                exact walked
              · rw [walk_halted reached halt]
                exact stops_halted reads.running reads.pc_lt fetched reached halt

end Reads

end Engine

end LS8
