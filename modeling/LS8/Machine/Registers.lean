import LS8.Trap

set_option autoImplicit false

namespace LS8

def registerCount : Nat := 8

def stackPointer : Nat := 7

theorem stackPointer_lt : stackPointer < registerCount := by decide

structure Registers where
  cells : Vector UInt8 registerCount
  deriving DecidableEq, Repr

namespace Registers

def zero : Registers :=
  ⟨Vector.replicate registerCount 0⟩

def ofStackPointer (pointer : UInt8) : Registers :=
  ⟨zero.cells.set stackPointer pointer stackPointer_lt⟩

def checkedIndex (index : Nat) : Except Trap (Fin registerCount) :=
  if inside : index < registerCount then
    .ok ⟨index, inside⟩
  else
    .error (.outOfRange (.register index))

theorem checkedIndex_of_lt {index : Nat} (inside : index < registerCount) :
    checkedIndex index = .ok ⟨index, inside⟩ := by
  simp [checkedIndex, inside]

theorem checkedIndex_of_not_lt {index : Nat} (outside : ¬index < registerCount) :
    checkedIndex index = .error (.outOfRange (.register index)) := by
  simp [checkedIndex, outside]

def get (registers : Registers) (index : Fin registerCount) : UInt8 :=
  registers.cells[index]

def set (registers : Registers) (index : Fin registerCount) (value : UInt8) : Registers :=
  ⟨registers.cells.set index value⟩

theorem get_set (registers : Registers) (index other : Fin registerCount) (value : UInt8) :
    (registers.set index value).get other =
      if index = other then value else registers.get other := by
  simp [get, set, Vector.getElem_set, Fin.ext_iff]

@[ext]
theorem ext {left right : Registers} (same : ∀ index, left.get index = right.get index) :
    left = right := by
  obtain ⟨cells⟩ := left
  obtain ⟨cells'⟩ := right
  congr
  apply Vector.ext
  intro index inside
  exact same ⟨index, inside⟩

def read (registers : Registers) (index : Nat) : Except Trap UInt8 :=
  (checkedIndex index).map registers.get

def write (registers : Registers) (index : Nat) (value : UInt8) : Except Trap Registers :=
  (checkedIndex index).map fun inside => registers.set inside value

def toList (registers : Registers) : List UInt8 :=
  registers.cells.toList

def dump (registers : Registers) : String :=
  " ".intercalate <| registers.toList.zipIdx.map fun (value, index) =>
    "R" ++ Numeral.decimal index ++ "=" ++ Numeral.hexUpper value.toNat

end Registers

end LS8
