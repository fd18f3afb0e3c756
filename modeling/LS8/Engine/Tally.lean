import LS8.Isa.Instruction

set_option autoImplicit false

namespace LS8

structure Tally where
  retired : Nat := 0
  arithmetic : Nat := 0
  load : Nat := 0
  print : Nat := 0
  stack : Nat := 0
  system : Nat := 0
  maxDepth : Nat := 0
  deriving DecidableEq, Repr

namespace Tally

def record (tally : Tally) (inst : Instruction) (depth : Nat) : Tally :=
  let counted := { tally with
    retired := tally.retired + 1
    maxDepth := max tally.maxDepth depth }
  match inst.mnemonic with
  | .mul => { counted with arithmetic := tally.arithmetic + 1 }
  | .ldi => { counted with load := tally.load + 1 }
  | .prn => { counted with print := tally.print + 1 }
  | .push | .pop => { counted with stack := tally.stack + 1 }
  | .hlt => { counted with system := tally.system + 1 }

def categories (tally : Tally) : Nat :=
  tally.arithmetic + tally.load + tally.print + tally.stack + tally.system

theorem retired_record (tally : Tally) (inst : Instruction) (depth : Nat) :
    (tally.record inst depth).retired = tally.retired + 1 := by
  unfold record
  cases inst.mnemonic <;> rfl

theorem maxDepth_record (tally : Tally) (inst : Instruction) (depth : Nat) :
    (tally.record inst depth).maxDepth = max tally.maxDepth depth := by
  unfold record
  cases inst.mnemonic <;> rfl

theorem categories_record (tally : Tally) (inst : Instruction) (depth : Nat) :
    (tally.record inst depth).categories = tally.categories + 1 := by
  unfold record categories
  cases inst.mnemonic <;> simp only <;> omega

end Tally

end LS8
