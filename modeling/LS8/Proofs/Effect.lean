import LS8.Machine.Frame
import LS8.Proofs.Decoding

set_option autoImplicit false

namespace LS8

section Attempts

variable {ε α β : Type}

@[simp]
theorem ok_bind (value : α) (next : α → Except ε β) : (.ok value >>= next) = next value := rfl

@[simp]
theorem error_bind (cause : ε) (next : α → Except ε β) :
    (.error cause >>= next) = .error cause := rfl

@[simp]
theorem pure_eq_ok (value : α) : (pure value : Except ε α) = .ok value := rfl

@[simp]
theorem throw_eq_error (cause : ε) : (throw cause : Except ε α) = .error cause := rfl

@[simp]
theorem ok_map (change : α → β) (value : α) :
    (Except.ok value : Except ε α).map change = .ok (change value) := rfl

@[simp]
theorem error_map (change : α → β) (cause : ε) :
    (Except.error cause : Except ε α).map change = .error cause := rfl

theorem exists_of_bind_eq_ok {first : Except ε α} {next : α → Except ε β} {result : β}
    (reached : (first >>= next) = .ok result) :
    ∃ value, first = .ok value ∧ next value = .ok result := by
  cases first with
  | error cause => cases reached
  | ok value => exact ⟨value, rfl, reached⟩

theorem mapError_id (attempt : Except ε α) : attempt.mapError id = attempt := by
  cases attempt <;> rfl

theorem eq_ok_of_mapError {ε' : Type} {attempt : Except ε α} {rename : ε → ε'} {value : α}
    (reached : attempt.mapError rename = .ok value) : attempt = .ok value := by
  cases attempt with
  | error cause => cases reached
  | ok result => exact congrArg Except.ok (Except.ok.inj reached)

instance decidableEqExcept [DecidableEq ε] [DecidableEq α] : DecidableEq (Except ε α)
  | .ok left, .ok right => decidable_of_iff (left = right) (by simp)
  | .error left, .error right => decidable_of_iff (left = right) (by simp)
  | .ok _, .error _ => isFalse nofun
  | .error _, .ok _ => isFalse nofun

end Attempts

inductive Alike {α : Type} (related : α → α → Prop) : Except Trap α → Except Trap α → Prop
  | trapped (trap : Trap) : Alike related (.error trap) (.error trap)
  | completed {left right : α} (same : related left right) : Alike related (.ok left) (.ok right)

theorem Alike.refl {α : Type} (attempt : Except Trap α) : Alike Eq attempt attempt := by
  cases attempt with
  | error trap => exact .trapped trap
  | ok value => exact .completed rfl

theorem Alike.map {α β : Type} {related : α → α → Prop} {related' : β → β → Prop}
    {left right : Except Trap α} {first second : α → β} (alike : Alike related left right)
    (lifts : ∀ l r, related l r → related' (first l) (second r)) :
    Alike related' (left.map first) (right.map second) := by
  cases alike with
  | trapped trap => exact .trapped trap
  | completed same => exact .completed (lifts _ _ same)

theorem Alike.bind {α β : Type} {related : α → α → Prop} {related' : β → β → Prop}
    {left right : Except Trap α} {first second : α → Except Trap β}
    (alike : Alike related left right)
    (continues : ∀ l r, related l r → Alike related' (first l) (second r)) :
    Alike related' (left >>= first) (right >>= second) := by
  cases alike with
  | trapped trap => exact .trapped trap
  | completed same => exact continues _ _ same

theorem Registers.checkedIndex_val {index : Nat} {inside : Fin registerCount}
    (checked : checkedIndex index = .ok inside) : inside.val = index := by
  by_cases small : index < registerCount
  · rw [checkedIndex_of_lt small] at checked
    cases checked
    rfl
  · rw [checkedIndex_of_not_lt small] at checked
    cases checked

namespace Memory

theorem toNat_lt_memorySize (address : UInt8) : address.toNat < memorySize :=
  address.toNat_lt

def get (memory : Memory) (address : UInt8) : UInt8 :=
  have inside := toNat_lt_memorySize address
  memory.cells[address.toNat]

def put (memory : Memory) (address value : UInt8) : Memory :=
  ⟨memory.cells.set address.toNat value (toNat_lt_memorySize address)⟩

theorem read_toNat (memory : Memory) (address : UInt8) :
    memory.read address.toNat = .ok (memory.get address) := by
  apply ByteSource.read_eq_ok_iff.mpr
  simp [byte?, get]

theorem write_toNat (memory : Memory) (address value : UInt8) :
    memory.write address.toNat value = .ok (memory.put address value) := by
  simp [write, put, toNat_lt_memorySize]

theorem byte?_toNat (memory : Memory) (address : UInt8) :
    memory.byte? address.toNat = some (memory.get address) := by
  simp [byte?, get]

theorem exists_byte?_iff {memory : Memory} {address : Nat} :
    (∃ byte, memory.byte? address = some byte) ↔ address < memorySize := by
  constructor
  · rintro ⟨byte, held⟩
    exact (Vector.getElem?_eq_some_iff.mp held).1
  · intro inside
    exact ⟨memory.cells[address], Vector.getElem?_eq_getElem inside⟩

theorem endsAt (memory : Memory) : memory.byte?.EndsAt memorySize :=
  fun _ => exists_byte?_iff

theorem byte?_put (memory : Memory) (address value : UInt8) (other : Nat) :
    (memory.put address value).byte? other =
      if other = address.toNat then some value else memory.byte? other := by
  by_cases same : other = address.toNat
  · subst same
    simp [byte?, put]
  · simp [byte?, put, same, Ne.symm same]

end Memory

structure Effect where
  machine : Machine
  printed : List UInt8 := []

def Instruction.flow (inst : Instruction) : Flow :=
  match inst.mnemonic with
  | .hlt => .halt
  | _ => .next

theorem Instruction.flow_eq (inst : Instruction) : inst.flow = .next ∨ inst.flow = .halt := by
  cases mnemonic : inst.mnemonic <;> simp [flow, mnemonic]

namespace Machine

def pointer (machine : Machine) : UInt8 :=
  machine.registers.get ⟨stackPointer, stackPointer_lt⟩

def setRegister (machine : Machine) (index : Fin registerCount) (value : UInt8) : Machine :=
  { machine with registers := machine.registers.set index value }

def setPointer (machine : Machine) (value : UInt8) : Machine :=
  machine.setRegister ⟨stackPointer, stackPointer_lt⟩ value

def pushed (machine : Machine) (value : UInt8) : Machine :=
  match machine.placement with
  | .growable => { machine with stack := value :: machine.stack }
  | .ram =>
      { machine with memory := machine.memory.put (machine.pointer - 1) value }.setPointer
        (machine.pointer - 1)

def popped (machine : Machine) : Except Trap (UInt8 × Machine) :=
  match machine.placement with
  | .growable =>
      match machine.stack with
      | [] => .error .stackUnderflow
      | value :: rest => .ok (value, { machine with stack := rest })
  | .ram =>
      if machine.pointer = machine.stackTop then
        .error .stackUnderflow
      else
        .ok (machine.memory.get machine.pointer, machine.setPointer (machine.pointer + 1))

theorem pushed_growable {machine : Machine} (placed : machine.placement = .growable)
    (value : UInt8) : machine.pushed value = { machine with stack := value :: machine.stack } := by
  simp [pushed, placed]

theorem pushed_ram {machine : Machine} (placed : machine.placement = .ram) (value : UInt8) :
    machine.pushed value =
      { machine with memory := machine.memory.put (machine.pointer - 1) value }.setPointer
        (machine.pointer - 1) := by
  simp [pushed, placed]

theorem popped_growable {machine : Machine} (placed : machine.placement = .growable) :
    machine.popped =
      match machine.stack with
      | [] => .error .stackUnderflow
      | value :: rest => .ok (value, { machine with stack := rest }) := by
  simp [popped, placed]

theorem popped_ram {machine : Machine} (placed : machine.placement = .ram) :
    machine.popped =
      if machine.pointer = machine.stackTop then
        .error .stackUnderflow
      else
        .ok (machine.memory.get machine.pointer, machine.setPointer (machine.pointer + 1)) := by
  simp [popped, placed]

@[simp]
theorem pointer_setPointer (machine : Machine) (value : UInt8) :
    (machine.setPointer value).pointer = value := by
  simp [setPointer, setRegister, pointer, Registers.get_set]

theorem pointer_setRegister {index : Fin registerCount}
    (other : index ≠ ⟨stackPointer, stackPointer_lt⟩) (machine : Machine) (value : UInt8) :
    (machine.setRegister index value).pointer = machine.pointer := by
  simp [setRegister, pointer, Registers.get_set, other]

end Machine

def Mnemonic.effect (mnemonic : Mnemonic) (a b : UInt8) (machine : Machine) :
    Except Trap Effect :=
  match mnemonic with
  | .hlt => return { machine := machine }
  | .ldi => do
      let target ← Registers.checkedIndex a.toNat
      return { machine := machine.setRegister target b }
  | .prn => do
      let source ← Registers.checkedIndex a.toNat
      return { machine := machine, printed := [machine.registers.get source] }
  | .mul => do
      let target ← Registers.checkedIndex a.toNat
      let other ← Registers.checkedIndex b.toNat
      let product := machine.registers.get target * machine.registers.get other
      return { machine := machine.setRegister target product }
  | .push => do
      let source ← Registers.checkedIndex a.toNat
      return { machine := machine.pushed (machine.registers.get source) }
  | .pop => do
      let target ← Registers.checkedIndex a.toNat
      let (value, rest) ← machine.popped
      return { machine := rest.setRegister target value }

namespace Machine

/--
The effect of an instruction, or the trap for which it has none. The arithmetic unit finds out
that it does not know a mnemonic only after it has read both registers.
-/
def effect (inst : Instruction) (machine : Machine) : Except Trap Effect :=
  match inst.descriptor.executionUnit, inst.mnemonic with
  | .arithmetic, .mul => Mnemonic.mul.effect inst.a inst.b machine
  | .arithmetic, other => do
      let _ ← Registers.checkedIndex inst.a.toNat
      let _ ← Registers.checkedIndex inst.b.toNat
      throw (.unsupportedOperation other .arithmetic)
  | .general, .mul => throw (.unsupportedOperation .mul .general)
  | .general, other => other.effect inst.a inst.b machine

def settled {α : Type} (value : α) (machine : Machine) :
    Except Trap Effect → Outcome UInt8 Machine Trap α
  | .ok effect => ⟨effect.machine, effect.printed, .ok value⟩
  | .error trap => ⟨machine, [], .error trap⟩

theorem run_readRegister (index : Nat) (machine : Machine) :
    (readRegister index).run machine =
      ⟨machine, [], (Registers.checkedIndex index).map machine.registers.get⟩ := rfl

theorem run_writeRegister {index : Nat} {target : Fin registerCount}
    (inside : Registers.checkedIndex index = .ok target) (value : UInt8) (machine : Machine) :
    (writeRegister index value).run machine = ⟨machine.setRegister target value, [], .ok ()⟩ := by
  apply Action.run_update_ok
  simp [Registers.write, inside, setRegister]

theorem run_writeRegister_error {index : Nat} {trap : Trap}
    (outside : Registers.checkedIndex index = .error trap) (value : UInt8) (machine : Machine) :
    (writeRegister index value).run machine = ⟨machine, [], .error trap⟩ := by
  apply Action.run_update_error
  simp [Registers.write, outside]

theorem run_writeMemory (address value : UInt8) (machine : Machine) :
    (writeMemory address.toNat value).run machine =
      ⟨{ machine with memory := machine.memory.put address value }, [], .ok ()⟩ := by
  apply Action.run_update_ok
  simp [Memory.write_toNat]

theorem run_readMemory (address : UInt8) (machine : Machine) :
    (readMemory address.toNat).run machine =
      ⟨machine, [], .ok (machine.memory.get address)⟩ := by
  simp [readMemory, Memory.read_toNat]

theorem checkedIndex_stackPointer :
    Registers.checkedIndex stackPointer = .ok ⟨stackPointer, stackPointer_lt⟩ :=
  Registers.checkedIndex_of_lt stackPointer_lt

theorem run_readPointer (machine : Machine) :
    (readRegister stackPointer).run machine = ⟨machine, [], .ok machine.pointer⟩ := by
  rw [run_readRegister, checkedIndex_stackPointer]
  rfl

theorem run_push (value : UInt8) (machine : Machine) :
    (push value).run machine = ⟨machine.pushed value, [], .ok ()⟩ := by
  rw [push, pushed, Action.run_bind]
  cases placed : machine.placement with
  | growable => simp [placed]
  | ram =>
      simp only [Action.run_get, placed, Action.run_bind, run_readPointer, run_writeMemory,
        run_writeRegister checkedIndex_stackPointer, List.append_nil]
      rfl

theorem run_pop (machine : Machine) :
    pop.run machine =
      match machine.popped with
      | .ok (value, rest) => ⟨rest, [], .ok value⟩
      | .error trap => ⟨machine, [], .error trap⟩ := by
  rw [pop, popped, Action.run_bind]
  cases placed : machine.placement with
  | growable =>
      cases held : machine.stack with
      | nil => simp [placed, held]
      | cons value rest => simp [placed, held, Action.run_bind]
  | ram =>
      simp only [Action.run_get, placed, Action.run_bind, run_readPointer]
      by_cases empty : machine.pointer = machine.stackTop
      · simp [empty]
      · simp [empty, Action.run_bind, run_readMemory, run_writeRegister checkedIndex_stackPointer,
          setPointer]

theorem run_executeArithmetic {inst : Instruction} (machine : Machine)
    (placed : inst.descriptor.executionUnit = .arithmetic) :
    (executeArithmetic inst).run machine = settled inst.flow machine (effect inst machine) := by
  rw [executeArithmetic, effect, Instruction.flow, Action.run_bind, run_readRegister, placed]
  cases target : Registers.checkedIndex inst.a.toNat with
  | error trap => cases inst.mnemonic <;> simp [Mnemonic.effect, target, settled]
  | ok first =>
      simp only [ok_map, ok_bind, Action.run_bind, run_readRegister]
      cases other : Registers.checkedIndex inst.b.toNat with
      | error trap => cases inst.mnemonic <;> simp [Mnemonic.effect, target, other, settled]
      | ok second =>
          cases inst.mnemonic <;>
            simp [Mnemonic.compute, Mnemonic.effect, run_writeRegister target, target, other,
              settled]

theorem run_executeGeneral {inst : Instruction} (machine : Machine)
    (placed : inst.descriptor.executionUnit = .general) :
    (executeGeneral inst).run machine = settled inst.flow machine (effect inst machine) := by
  rw [executeGeneral, effect, Instruction.flow, placed]
  cases inst.mnemonic with
  | hlt => rfl
  | mul => rfl
  | ldi =>
      cases target : Registers.checkedIndex inst.a.toNat with
      | error trap =>
          simp [Action.run_bind, run_writeRegister_error target, Mnemonic.effect, target, settled]
      | ok index =>
          simp [Action.run_bind, run_writeRegister target, Mnemonic.effect, target, settled]
  | prn =>
      cases source : Registers.checkedIndex inst.a.toNat <;>
        simp [Action.run_bind, run_readRegister, Mnemonic.effect, source, settled]
  | push =>
      cases source : Registers.checkedIndex inst.a.toNat <;>
        simp [Action.run_bind, run_readRegister, run_push, Mnemonic.effect, source, settled]
  | pop =>
      cases target : Registers.checkedIndex inst.a.toNat with
      | error trap => simp [Action.run_bind, Mnemonic.effect, target, settled]
      | ok index =>
          simp only [Action.run_bind, Action.run_inspect, run_pop, Mnemonic.effect, target, ok_bind]
          cases machine.popped with
          | error trap => rfl
          | ok top => simp [run_writeRegister target, settled]

theorem run_execute (inst : Instruction) (machine : Machine) :
    (execute inst).run machine = settled inst.flow machine (effect inst machine) := by
  rw [execute]
  cases placed : inst.descriptor.executionUnit with
  | arithmetic => exact run_executeArithmetic machine placed
  | general => exact run_executeGeneral machine placed

theorem effect_of_descriptor (mnemonic : Mnemonic) (pc : Nat) (a b : UInt8)
    (machine : Machine) :
    machine.effect ⟨pc, mnemonic.descriptor, a, b⟩ = mnemonic.effect a b machine := by
  cases mnemonic <;> rfl

theorem run_execute_of_descriptor {inst : Instruction} {mnemonic : Mnemonic}
    (listed : inst.descriptor = mnemonic.descriptor) (machine : Machine) :
    (execute inst).run machine =
      settled inst.flow machine (mnemonic.effect inst.a inst.b machine) := by
  obtain ⟨pc, descriptor, a, b⟩ := inst
  subst listed
  rw [run_execute, effect_of_descriptor]

end Machine

end LS8
