import Mathlib.Logic.Function.Basic
import LS8.Proofs.Runs
import LS8.Proofs.Stack

set_option autoImplicit false

namespace LS8

structure Contents where
  registers : Fin registerCount → UInt8
  memory : UInt8 → UInt8
  stack : List UInt8

namespace Contents

def pointer (contents : Contents) : UInt8 :=
  contents.registers ⟨stackPointer, stackPointer_lt⟩

def setRegister (contents : Contents) (index : Fin registerCount) (value : UInt8) : Contents :=
  { contents with registers := Function.update contents.registers index value }

def setPointer (contents : Contents) (value : UInt8) : Contents :=
  contents.setRegister ⟨stackPointer, stackPointer_lt⟩ value

def setByte (contents : Contents) (address value : UInt8) : Contents :=
  { contents with memory := Function.update contents.memory address value }

def setStack (contents : Contents) (stack : List UInt8) : Contents :=
  { contents with stack := stack }

end Contents

inductive Performs (placement : StackPlacement) (before : Contents) (a b : UInt8) :
    Mnemonic → Contents → List UInt8 → Prop
  | hlt : Performs placement before a b .hlt before []
  | ldi {target : Fin registerCount} (named : a.toNat = target) :
      Performs placement before a b .ldi (before.setRegister target b) []
  | prn {source : Fin registerCount} (named : a.toNat = source) :
      Performs placement before a b .prn before [before.registers source]
  | mul {target other : Fin registerCount} (named : a.toNat = target) (named' : b.toNat = other) :
      Performs placement before a b .mul
        (before.setRegister target (before.registers target * before.registers other)) []
  | pushGrowable {source : Fin registerCount} (placed : placement = .growable)
      (named : a.toNat = source) :
      Performs placement before a b .push
        (before.setStack (before.registers source :: before.stack)) []
  | popGrowable {target : Fin registerCount} {value : UInt8} {rest : List UInt8}
      (placed : placement = .growable) (named : a.toNat = target)
      (top : before.stack = value :: rest) :
      Performs placement before a b .pop ((before.setStack rest).setRegister target value) []
  -- The value is read before the stack pointer moves, also where it is the pointer itself.
  | pushRam {source : Fin registerCount} (placed : placement = .ram) (named : a.toNat = source) :
      Performs placement before a b .push
        ((before.setByte (before.pointer - 1) (before.registers source)).setPointer
          (before.pointer - 1)) []
  -- The register is written last, also where it is the stack pointer.
  | popRam {target : Fin registerCount} (placed : placement = .ram) (named : a.toNat = target) :
      Performs placement before a b .pop
        ((before.setPointer (before.pointer + 1)).setRegister target
          (before.memory before.pointer)) []

namespace Performs

variable {placement : StackPlacement} {before after : Contents} {a b : UInt8} {mnemonic : Mnemonic}
  {printed : List UInt8}

theorem printed_eq_nil (performs : Performs placement before a b mnemonic after printed)
    (silent : mnemonic ≠ .prn) : printed = [] := by
  cases performs with
  | prn named => exact absurd rfl silent
  | _ => rfl

theorem memory_eq (performs : Performs placement before a b mnemonic after printed)
    (growable : placement = .growable) : after.memory = before.memory := by
  subst growable
  cases performs with
  | pushRam placed named => cases placed
  | popRam placed named => cases placed
  | _ => rfl

theorem stack_eq (performs : Performs placement before a b mnemonic after printed)
    (inMemory : placement = .ram) : after.stack = before.stack := by
  subst inMemory
  cases performs with
  | pushGrowable placed named => cases placed
  | popGrowable placed named top => cases placed
  | _ => rfl

-- A pop into the stack pointer leaves the popped byte there and not the next address.
theorem pointer_of_pop (performs : Performs .ram before a b .pop after printed)
    (aliased : a.toNat = stackPointer) : after.pointer = before.memory before.pointer := by
  cases performs with
  | popGrowable placed named top => cases placed
  | @popRam target placed named =>
      obtain rfl : target = ⟨stackPointer, stackPointer_lt⟩ := Fin.ext (named.symm.trans aliased)
      simp [Contents.pointer, Contents.setRegister]

end Performs

namespace Machine

def contents (machine : Machine) : Contents where
  registers := machine.registers.get
  memory := machine.memory.get
  stack := machine.stack

variable {machine : Machine}

@[simp]
theorem contents_setRegister (index : Fin registerCount) (value : UInt8) :
    (machine.setRegister index value).contents = machine.contents.setRegister index value := by
  simp only [contents, setRegister, Contents.setRegister, Contents.mk.injEq, and_true]
  funext other
  rw [Registers.get_set, Function.update_apply]
  simp only [eq_comm]

@[simp]
theorem contents_setPointer (value : UInt8) :
    (machine.setPointer value).contents = machine.contents.setPointer value :=
  contents_setRegister _ _

@[simp]
theorem contents_putMemory (address value : UInt8) :
    { machine with memory := machine.memory.put address value }.contents =
      machine.contents.setByte address value := by
  simp only [contents, Contents.setByte, Contents.mk.injEq, true_and, and_true]
  funext other
  rw [Memory.get_put, Function.update_apply]

end Machine

theorem Mnemonic.performs_of_effect {mnemonic : Mnemonic} {a b : UInt8} {machine : Machine}
    {effect : Effect} (reached : mnemonic.effect a b machine = .ok effect) :
    Performs machine.placement machine.contents a b mnemonic effect.machine.contents
      effect.printed := by
  have named {operand : UInt8} {index : Fin registerCount}
      (checked : Registers.checkedIndex operand.toNat = .ok index) : operand.toNat = index :=
    (Registers.checkedIndex_val checked).symm
  cases mnemonic with
  | hlt =>
      cases reached
      exact .hlt
  | ldi =>
      obtain ⟨target, checked, reached⟩ := exists_of_bind_eq_ok reached
      cases reached
      rw [Machine.contents_setRegister]
      exact .ldi (named checked)
  | prn =>
      obtain ⟨source, checked, reached⟩ := exists_of_bind_eq_ok reached
      cases reached
      exact .prn (named checked)
  | mul =>
      obtain ⟨target, checked, reached⟩ := exists_of_bind_eq_ok reached
      obtain ⟨other, checked', reached⟩ := exists_of_bind_eq_ok reached
      cases reached
      rw [Machine.contents_setRegister]
      exact .mul (named checked) (named checked')
  | push =>
      obtain ⟨source, checked, reached⟩ := exists_of_bind_eq_ok reached
      cases reached
      cases placed : machine.placement with
      | growable =>
          rw [Machine.pushed_growable placed]
          exact .pushGrowable rfl (named checked)
      | ram =>
          rw [Machine.pushed_ram placed, Machine.contents_setPointer, Machine.contents_putMemory]
          exact .pushRam rfl (named checked)
  | pop =>
      obtain ⟨target, checked, reached⟩ := exists_of_bind_eq_ok reached
      obtain ⟨⟨value, below⟩, popped, reached⟩ := exists_of_bind_eq_ok reached
      cases reached
      rw [Machine.contents_setRegister]
      cases placed : machine.placement with
      | growable =>
          rw [Machine.popped_growable placed] at popped
          cases top : machine.stack with
          | nil => simp [top] at popped
          | cons first rest =>
              rw [top] at popped
              cases popped
              exact .popGrowable rfl (named checked) top
      | ram =>
          rw [Machine.popped_ram placed] at popped
          split at popped
          · cases popped
          · cases popped
            rw [Machine.contents_setPointer]
            exact .popRam rfl (named checked)

theorem Machine.performs_transition {machine : Machine} {done : Retirement}
    (completed : machine.transition = .ok done) :
    Performs machine.placement machine.contents done.inst.a done.inst.b done.inst.mnemonic
      done.machine.contents done.printed := by
  obtain ⟨fetched, effect, reached, moved, printed⟩ := transition_eq_ok completed
  obtain ⟨mnemonic, a, b, same⟩ := Instruction.eq_of_decode fetched
  rw [same, effect_of_descriptor] at reached
  rw [moved, printed, same]
  exact Mnemonic.performs_of_effect reached

namespace Engine

theorem tick_performs_instruction (engine : Engine) (state : RunState)
    (running : engine.state = .running)
    (inside : engine.machine.pc < engine.machine.programEnd)
    (retires : (tick.run engine).result = .ok state) :
    let before := engine.machine
    let after := (tick.run engine).state.machine
    let printed := printedValues (tick.run engine).emitted
    ∃ inst, before.fetched = .ok inst ∧
      after.frame = { before.frame with pc := before.pc + inst.width } ∧
      Performs before.placement before.contents inst.a inst.b inst.mnemonic after.contents
        printed ∧
      (inst.mnemonic ≠ .prn → printed = []) ∧
      (before.placement = .growable → after.contents.memory = before.contents.memory) ∧
      (before.placement = .ram → after.stack = before.stack) ∧
      (before.placement = .ram → inst.mnemonic = .pop → inst.a.toNat = stackPointer →
        after.pointer = before.memory.get before.pointer) := by
  have seen := ticked engine
  generalize tick.run engine = outcome at seen retires ⊢
  cases seen with
  | halted reason stopped => simp [running] at stopped
  | ended running past => omega
  | trapped trap running inside failed => cases retires
  | retired done running inside completed =>
      intro before after printed
      have shown : printed = done.printed := by simp [printed]
      have performs := Machine.performs_transition completed
      rw [← shown] at performs
      refine ⟨done.inst, (Machine.transition_eq_ok completed).1, Machine.frame_transition completed,
        performs, performs.printed_eq_nil, performs.memory_eq, performs.stack_eq, ?_⟩
      intro inMemory pop aliased
      rw [pop, inMemory] at performs
      exact performs.pointer_of_pop aliased

-- R0 is pushed and popped into R7, which is left at neither the popped cell nor the next one.
theorem tick_performs_pop_of_pointer :
    let loaded := ((load [0x45, 0, 0x46, 7]).run (ofSettings { placement := .ram })).state
    let engine := (trail 1 loaded).engine
    engine.machine.pointer = 0xF3 ∧
    (tick.run engine).result = .ok .running ∧
    (tick.run engine).state.machine.pointer = 0 ∧
    printedValues (tick.run engine).emitted = [] := by
  intro loaded engine
  have retires : (tick.run engine).result = .ok .running := by decide +kernel
  obtain ⟨inst, fetched, -, -, silent, -, -, aliased⟩ :=
    tick_performs_instruction engine .running (by decide +kernel) (by decide +kernel) retires
  have popping : engine.machine.fetched = .ok ⟨2, Mnemonic.pop.descriptor, 7, 0⟩ := by
    decide +kernel
  obtain rfl := Except.ok.inj (fetched.symm.trans popping)
  have popped := aliased (by decide +kernel) rfl rfl
  exact ⟨by decide +kernel, retires, popped.trans (by decide +kernel), silent nofun⟩

end Engine

namespace Registers

variable (registers : Registers) (index : Fin registerCount)

theorem set_set (first second : UInt8) :
    (registers.set index first).set index second = registers.set index second := by
  apply Registers.ext
  intro other
  simp only [get_set]
  split <;> rfl

theorem set_get : registers.set index (registers.get index) = registers := by
  apply Registers.ext
  intro other
  rw [get_set]
  split
  next same => rw [same]
  next => rfl

end Registers

namespace Machine

variable {machine : Machine}

theorem setPointer_setPointer (first second : UInt8) :
    (machine.setPointer first).setPointer second = machine.setPointer second := by
  rw [setPointer, setPointer, setPointer, setRegister, setRegister, setRegister, Registers.set_set]

theorem setRegister_get (machine : Machine) (index : Fin registerCount) :
    machine.setRegister index (machine.registers.get index) = machine := by
  rw [setRegister, Registers.set_get]

/-- What a push that is taken back leaves behind: its value below a stack in memory. -/
def spilled (machine : Machine) (value : UInt8) : Machine :=
  match machine.placement with
  | .growable => machine
  | .ram => { machine with memory := machine.memory.put (machine.pointer - 1) value }

theorem spilled_growable (placed : machine.placement = .growable) (value : UInt8) :
    machine.spilled value = machine := by
  simp [spilled, placed]

theorem spilled_ram (placed : machine.placement = .ram) (value : UInt8) :
    machine.spilled value =
      { machine with memory := machine.memory.put (machine.pointer - 1) value } := by
  simp [spilled, placed]

theorem registers_spilled (machine : Machine) (value : UInt8) :
    (machine.spilled value).registers = machine.registers := by
  cases placed : machine.placement with
  | growable => rw [spilled_growable placed]
  | ram => rw [spilled_ram placed]

theorem stack_spilled (machine : Machine) (value : UInt8) :
    (machine.spilled value).stack = machine.stack := by
  cases placed : machine.placement with
  | growable => rw [spilled_growable placed]
  | ram => rw [spilled_ram placed]

/-- One more value makes a stack in memory look empty. -/
def IsFull (machine : Machine) : Prop :=
  machine.placement = .ram ∧ machine.pointer = machine.stackTop + 1

theorem stackTop_pushed (machine : Machine) (value : UInt8) :
    (machine.pushed value).stackTop = machine.stackTop :=
  congrArg Frame.stackTop (frame_pushed machine value)

theorem popped_pushed_of_full (full : machine.IsFull) (value : UInt8) :
    (machine.pushed value).popped = .error .stackUnderflow := by
  obtain ⟨placed, bottom⟩ := full
  rw [popped_ram ((placement_pushed machine value).trans placed), pointer_pushed_ram placed,
    stackTop_pushed, bottom, UInt8.add_sub_cancel, if_pos rfl]

theorem popped_pushed (room : ¬machine.IsFull) (value : UInt8) :
    (machine.pushed value).popped = .ok (value, machine.spilled value) := by
  have placement := placement_pushed machine value
  cases placed : machine.placement with
  | growable =>
      rw [popped_growable (placement.trans placed), pushed_growable placed,
        spilled_growable placed]
  | ram =>
      have above : machine.pointer - 1 ≠ machine.stackTop := by
        intro bottom
        refine room ⟨placed, ?_⟩
        rw [← bottom, UInt8.sub_add_cancel]
      have stored : (machine.pushed value).memory.get (machine.pointer - 1) = value := by
        rw [pushed_ram placed]
        exact (Memory.get_put ..).trans (if_pos rfl)
      rw [popped_ram (placement.trans placed), pointer_pushed_ram placed, stackTop_pushed,
        if_neg above, stored, UInt8.sub_add_cancel, pushed_ram placed, setPointer_setPointer,
        spilled_ram placed]
      exact congrArg (fun below => Except.ok (value, below)) (setRegister_get _ _)

theorem run_execute_push {push : Instruction} {source : Fin registerCount}
    (pushes : push.descriptor = Mnemonic.push.descriptor) (named : push.a.toNat = source)
    (machine : Machine) :
    (execute push).run machine =
      ⟨machine.pushed (machine.registers.get source), [], .ok .next⟩ := by
  have flow : push.flow = .next := by rw [Instruction.flow, Instruction.mnemonic, pushes]; rfl
  rw [run_execute_of_descriptor pushes, Mnemonic.effect, named,
    Registers.checkedIndex_of_lt source.isLt, flow]
  rfl

theorem run_execute_pop {pop : Instruction} {target : Fin registerCount}
    (pops : pop.descriptor = Mnemonic.pop.descriptor) (named : pop.a.toNat = target)
    (machine : Machine) :
    (execute pop).run machine =
      match machine.popped with
      | .ok (value, below) => ⟨below.setRegister target value, [], .ok .next⟩
      | .error trap => ⟨machine, [], .error trap⟩ := by
  have flow : pop.flow = .next := by rw [Instruction.flow, Instruction.mnemonic, pops]; rfl
  rw [run_execute_of_descriptor pops, Mnemonic.effect, named,
    Registers.checkedIndex_of_lt target.isLt, flow, ok_bind]
  cases machine.popped <;> rfl

theorem push_pop_moves_register (machine : Machine) (push pop : Instruction)
    (pushes : push.descriptor = Mnemonic.push.descriptor)
    (pops : pop.descriptor = Mnemonic.pop.descriptor) (a b : Fin registerCount)
    (source : push.a.toNat = a) (target : pop.a.toNat = b) :
    let pushing := (execute push).run machine
    let popping := (execute pop).run pushing.state
    let full := machine.placement = .ram ∧ machine.pointer = machine.stackTop + 1
    pushing.result = .ok .next ∧
    (full → popping.result = .error .stackUnderflow) ∧
    (¬full →
      popping.result = .ok .next ∧
      popping.state.registers.get b = machine.registers.get a ∧
      (∀ other, other ≠ b → popping.state.registers.get other = machine.registers.get other) ∧
      (a = b → popping.state.registers = machine.registers) ∧
      popping.state.stack = machine.stack ∧
      (machine.placement = .growable → popping.state.memory = machine.memory) ∧
      (machine.placement = .ram →
        popping.state.memory.get (machine.pointer - 1) = machine.registers.get a ∧
        ∀ address, address ≠ machine.pointer - 1 →
          popping.state.memory.get address = machine.memory.get address)) := by
  intro pushing popping full
  have pushed : pushing = _ := run_execute_push pushes source machine
  have popped : popping = _ := run_execute_pop pops target pushing.state
  rw [pushed] at popped
  refine ⟨by rw [pushed], ?_, ?_⟩
  · intro isFull
    rw [popped, popped_pushed_of_full isFull]
  · intro room
    rw [popped_pushed room] at popped
    have registers : popping.state.registers =
        machine.registers.set b (machine.registers.get a) := by
      rw [popped]
      exact congrArg (Registers.set · b _) (registers_spilled ..)
    have memory : popping.state.memory =
        (machine.spilled (machine.registers.get a)).memory := by
      rw [popped]
      rfl
    refine ⟨by rw [popped], ?_, ?_, ?_, ?_, ?_, ?_⟩
    · rw [registers, Registers.get_set, if_pos rfl]
    · intro other apart
      rw [registers, Registers.get_set, if_neg apart.symm]
    · rintro rfl
      rw [registers, Registers.set_get]
    · rw [popped]
      exact stack_spilled ..
    · intro placed
      rw [memory, spilled_growable placed]
    · intro placed
      rw [memory, spilled_ram placed]
      constructor
      · rw [Memory.get_put, if_pos rfl]
      · intro address apart
        rw [Memory.get_put, if_neg apart]

-- R7 pushed and popped by itself at the end of memory, and R0 pushed onto 255 values.
theorem push_pop_moves_stack_pointer :
    let push (a : UInt8) : Instruction := ⟨0, Mnemonic.push.descriptor, a, 0⟩
    let pop : Instruction := ⟨2, Mnemonic.pop.descriptor, 7, 0⟩
    let machine := ofSettings { placement := .ram, stackTop := 0 }
    let full := machine.setPointer 1
    let popping := (execute pop).run ((execute (push 7)).run machine).state
    popping.result = .ok .next ∧
    popping.state.registers = machine.registers ∧
    popping.state.memory.get 255 = 0 ∧
    ((execute pop).run ((execute (push 0)).run full).state).result = .error .stackUnderflow := by
  intro push pop machine full popping
  obtain ⟨-, -, moves⟩ := push_pop_moves_register machine (push 7) pop rfl rfl
    ⟨7, by decide⟩ ⟨7, by decide⟩ rfl rfl
  obtain ⟨result, -, -, same, -, -, below⟩ := moves (by decide +kernel)
  obtain ⟨-, underflows, -⟩ := push_pop_moves_register full (push 0) pop rfl rfl
    ⟨0, by decide⟩ ⟨7, by decide⟩ rfl rfl
  refine ⟨result, same rfl, (below rfl).1.trans ?_, underflows (by decide +kernel)⟩
  decide +kernel

end Machine

end LS8
