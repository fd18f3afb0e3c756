import LS8.Isa.Instruction

set_option autoImplicit false

namespace LS8

def memorySize : Nat := 256

structure Memory where
  cells : Vector UInt8 memorySize
  deriving DecidableEq, Repr

namespace Memory

def zero : Memory :=
  ⟨Vector.replicate memorySize 0⟩

def byte? (memory : Memory) : ByteSource := fun address =>
  memory.cells[address]?

def read (memory : Memory) (address : Nat) : Except Trap UInt8 :=
  memory.byte?.read address

def write (memory : Memory) (address : Nat) (value : UInt8) : Except Trap Memory :=
  if inside : address < memorySize then
    .ok ⟨memory.cells.set address value inside⟩
  else
    .error (.outOfRange (.memory address))

def overlay (memory : Memory) (base : Nat) (image : List UInt8) : Memory :=
  ⟨Vector.ofFn fun address : Fin memorySize =>
    (ByteSource.ofList base image address).getD memory.cells[address]⟩

theorem byte?_overlay (memory : Memory) (base : Nat) (image : List UInt8) (address : Nat) :
    (memory.overlay base image).byte? address =
      if address < memorySize then
        (ByteSource.ofList base image address).or (memory.byte? address)
      else
        none := by
  unfold overlay byte?
  by_cases inside : address < memorySize
  · cases held : ByteSource.ofList base image address <;> simp [inside, held]
  · simp [inside]

/-- Puts `image` at `base` if all of it fits. The trap names the first address that does not. -/
def store (memory : Memory) (base : Nat) (image : List UInt8) : Except Trap Memory :=
  if base + image.length ≤ memorySize then
    .ok (memory.overlay base image)
  else
    .error (.outOfRange (.memory (max memorySize base)))

theorem fits_of_store {memory stored : Memory} {base : Nat} {image : List UInt8}
    (done : memory.store base image = .ok stored) : base + image.length ≤ memorySize := by
  unfold store at done
  split at done
  next fits => exact fits
  · cases done

def loadAt (memory : Memory) (base : Nat) (image : List UInt8) : Except (Failure Trap) Memory :=
  if base + image.length < addressSpace then
    (memory.store base image).mapError .raised
  else
    .error (.defect .addressOverflow)

def toList (memory : Memory) : List UInt8 :=
  memory.cells.toList

end Memory

end LS8
