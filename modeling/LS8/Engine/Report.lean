import LS8.Engine.Tally
import LS8.Number.Rounding
import LS8.Text.Basic

set_option autoImplicit false

namespace LS8.Tally

def hundredths (tally : Tally) (count : Nat) : Nat :=
  (Rounding.BinaryFraction.ofQuotient count (max tally.retired 1)).hundredfold.hundredths

def percentText (tally : Tally) (count : Nat) : String :=
  Numeral.fixed 2 (tally.hundredths count)

def secondsText (microseconds : Nat) : String :=
  Numeral.fixed 6 microseconds

def rule (c : Char) : String :=
  String.ofList (List.replicate 58 c)

def entry (label value : String) : String :=
  Text.column 25 label ++ value

def categoryEntry (tally : Tally) (label : String) (count : Nat) : String :=
  entry label (Numeral.decimal count ++ " (" ++ tally.percentText count ++ "%)")

def report (tally : Tally) (microseconds : Nat) : List String :=
  ["",
    rule '=',
    "LS-8 RUN STATISTICS",
    rule '=',
    entry "host_seconds" (secondsText microseconds ++ " s"),
    entry "sim_insts" (Numeral.decimal tally.retired),
    rule '-',
    "INSTRUCTION MIX",
    tally.categoryEntry "  op.alu" tally.arithmetic,
    tally.categoryEntry "  op.load" tally.load,
    tally.categoryEntry "  op.io" tally.print,
    tally.categoryEntry "  op.stack" tally.stack,
    tally.categoryEntry "  op.system" tally.system,
    rule '-',
    entry "stack.max_depth" (Numeral.decimal tally.maxDepth),
    rule '=']

end LS8.Tally
