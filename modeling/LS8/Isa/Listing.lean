import LS8.Isa.Instruction
import LS8.Text.Basic

set_option autoImplicit false

namespace LS8

inductive ListingLine
  | instruction (inst : Instruction)
  | data (address : Nat) (byte : UInt8)
  deriving DecidableEq, Repr

namespace ListingLine

def address : ListingLine → Nat
  | .instruction inst => inst.pc
  | .data address _ => address

def bytes : ListingLine → List UInt8
  | .instruction inst => inst.encode
  | .data _ byte => [byte]

def content : ListingLine → String
  | .instruction inst => inst.text
  | .data _ byte => ".byte 0x" ++ Numeral.hex byte.toNat

def text (line : ListingLine) : String :=
  Numeral.hexUpper line.address ++ ": " ++ Text.column 8 (Numeral.hexBytes line.bytes) ++ "  "
    ++ line.content

end ListingLine

def listingFrom (base : Nat) : List UInt8 → List ListingLine
  | [] => []
  | byte :: rest =>
      match Instruction.decode (ByteSource.ofList base (byte :: rest)) base with
      | .ok inst =>
          .instruction inst ::
            listingFrom (base + inst.width) (rest.drop inst.descriptor.operandCount)
      | .error _ => .data base byte :: listingFrom (base + 1) rest
  termination_by bytes => bytes.length
  decreasing_by
    all_goals simp only [List.length_cons, List.length_drop]
    all_goals omega

def listing (image : List UInt8) : List ListingLine :=
  listingFrom 0 image

end LS8
