import LS8.Machine.Basic

set_option autoImplicit false

namespace LS8

structure Snapshot where
  pc : Nat
  bytes : Vector UInt8 3
  registers : Registers
  deriving DecidableEq, Repr

namespace Snapshot

/-- What a snapshot shows. An address that memory does not have shows as zero. -/
def ofMachine (machine : Machine) : Snapshot where
  pc := machine.pc
  bytes := Vector.ofFn fun offset => (machine.memory.byte? (machine.pc + offset)).getD 0
  registers := machine.registers

def capture (machine : Machine) : Except Defect Snapshot :=
  if machine.pc + 2 < addressSpace then
    .ok (ofMachine machine)
  else
    .error .addressOverflow

def text (snapshot : Snapshot) : String :=
  "TRACE: " ++ Numeral.hexUpper snapshot.pc
    ++ " | " ++ Numeral.hexBytes snapshot.bytes.toList
    ++ " | " ++ Numeral.hexBytes snapshot.registers.toList

end Snapshot

end LS8
