import LS8.Machine.Execution

set_option autoImplicit false

namespace LS8.Machine

structure Frame where
  pc : Nat
  programEnd : Fin (memorySize + 1)
  entry : UInt8
  placement : StackPlacement
  stackTop : UInt8
  deriving DecidableEq

def frame (machine : Machine) : Frame where
  pc := machine.pc
  programEnd := machine.programEnd
  entry := machine.entry
  placement := machine.placement
  stackTop := machine.stackTop

theorem frame_readRegister (index : Nat) : (readRegister index).Keeps frame :=
  Action.keeps_inspect _ _

theorem frame_readMemory (address : Nat) : (readMemory address).Keeps frame :=
  Action.keeps_inspect _ _

theorem frame_writeRegister (index : Nat) (value : UInt8) :
    (writeRegister index value).Keeps frame := by
  apply Action.keeps_update
  intro machine changed done
  cases written : machine.registers.write index value with
  | error trap => simp [written, bind, Except.bind] at done
  | ok registers =>
      simp only [written, bind, Except.bind, pure, Except.pure, Except.ok.injEq] at done
      subst done
      rfl

theorem frame_writeMemory (address : Nat) (value : UInt8) :
    (writeMemory address value).Keeps frame := by
  apply Action.keeps_update
  intro machine changed done
  cases written : machine.memory.write address value with
  | error trap => simp [written, bind, Except.bind] at done
  | ok memory =>
      simp only [written, bind, Except.bind, pure, Except.pure, Except.ok.injEq] at done
      subst done
      rfl

theorem frame_push (value : UInt8) : (push value).Keeps frame := by
  apply Action.keeps_bind (Action.keeps_get _)
  intro machine
  cases machine.placement with
  | growable => exact Action.keeps_modify fun _ => rfl
  | ram =>
      apply Action.keeps_bind (frame_readRegister _)
      intro pointer
      apply Action.keeps_bind (frame_writeMemory _ _)
      intro _
      exact frame_writeRegister _ _

theorem frame_pop : pop.Keeps frame := by
  apply Action.keeps_bind (Action.keeps_get _)
  intro machine
  cases machine.placement with
  | growable =>
      cases machine.stack with
      | nil => exact Action.keeps_fail _ _
      | cons value rest =>
          refine Action.keeps_bind (Action.keeps_modify ?_) fun _ => Action.keeps_pure _ _
          intro _
          rfl
  | ram =>
      apply Action.keeps_bind (frame_readRegister _)
      intro pointer
      split
      · exact Action.keeps_fail _ _
      · apply Action.keeps_bind (frame_readMemory _)
        intro value
        apply Action.keeps_bind (frame_writeRegister _ _)
        intro _
        exact Action.keeps_pure _ _

theorem frame_executeArithmetic (inst : Instruction) :
    (executeArithmetic inst).Keeps frame := by
  apply Action.keeps_bind (frame_readRegister _)
  intro left
  apply Action.keeps_bind (frame_readRegister _)
  intro right
  apply Action.keeps_bind (Action.keeps_inspect _ _)
  intro value
  apply Action.keeps_bind (frame_writeRegister _ _)
  intro _
  exact Action.keeps_pure _ _

theorem frame_executeGeneral (inst : Instruction) : (executeGeneral inst).Keeps frame := by
  unfold executeGeneral
  cases inst.mnemonic with
  | hlt => exact Action.keeps_pure _ _
  | ldi =>
      apply Action.keeps_bind (frame_writeRegister _ _)
      intro _
      exact Action.keeps_pure _ _
  | prn =>
      apply Action.keeps_bind (frame_readRegister _)
      intro value
      apply Action.keeps_bind (Action.keeps_emit _ _)
      intro _
      exact Action.keeps_pure _ _
  | push =>
      apply Action.keeps_bind (frame_readRegister _)
      intro value
      apply Action.keeps_bind (frame_push _)
      intro _
      exact Action.keeps_pure _ _
  | pop =>
      apply Action.keeps_bind (Action.keeps_inspect _ _)
      intro _
      apply Action.keeps_bind frame_pop
      intro value
      apply Action.keeps_bind (frame_writeRegister _ _)
      intro _
      exact Action.keeps_pure _ _
  | mul => exact Action.keeps_fail _ _

theorem frame_execute (inst : Instruction) : (execute inst).Keeps frame := by
  unfold execute
  cases inst.descriptor.executionUnit with
  | arithmetic => exact frame_executeArithmetic inst
  | general => exact frame_executeGeneral inst

theorem execute_yields_no_jump (inst : Instruction) :
    (execute inst).Yields fun flow => flow = .next ∨ flow = .halt := by
  have next : (pure .next : MachineAction Flow).Yields fun flow => flow = .next ∨ flow = .halt :=
    Action.yields_pure (.inl rfl)
  unfold execute
  cases inst.descriptor.executionUnit with
  | arithmetic =>
      apply Action.yields_bind
      intro left
      apply Action.yields_bind
      intro right
      apply Action.yields_bind
      intro value
      exact Action.yields_bind fun _ => next
  | general =>
      unfold executeGeneral
      cases inst.mnemonic with
      | hlt => exact Action.yields_pure (.inr rfl)
      | ldi => exact Action.yields_bind fun _ => next
      | prn => exact Action.yields_bind fun _ => Action.yields_bind fun _ => next
      | push => exact Action.yields_bind fun _ => Action.yields_bind fun _ => next
      | pop =>
          exact Action.yields_bind fun _ => Action.yields_bind fun _ =>
            Action.yields_bind fun _ => next
      | mul => exact Action.yields_fail _ _

theorem retired_eq_ok {inst : Instruction} {flow : Flow} {machine changed : Machine}
    (fallsThrough : flow = .next ∨ flow = .halt)
    (done : machine.retired inst flow = .ok changed) :
    changed = { machine with pc := inst.pc + inst.width } := by
  obtain rfl | rfl := fallsThrough <;>
    (simp only [retired] at done
     split at done
     · simpa using done.symm
     · cases done)

end LS8.Machine
