import LS8.Engine.Report
import LS8.Proofs.Numerals
import Mathlib.Algebra.Order.Field.Rat
import Mathlib.Data.Nat.Log
import Mathlib.Tactic.FieldSimp
import Mathlib.Tactic.Linarith
import Mathlib.Tactic.Positivity
import Mathlib.Tactic.Ring

set_option autoImplicit false

namespace LS8

namespace Rounding

theorem nearest_le {numerator denominator bound : Nat} (positive : 0 < denominator)
    (within : numerator ≤ denominator * bound) : nearest numerator denominator ≤ bound := by
  have parts := Nat.div_add_mod numerator denominator
  simp only [nearest]
  split
  · exact Nat.div_le_of_le_mul within
  next large =>
    by_contra beyond
    have covered := Nat.mul_le_mul_left denominator (show bound ≤ numerator / denominator by omega)
    omega

theorem nearest_error (numerator : Nat) {denominator : Nat} (positive : 0 < denominator) :
    |(nearest numerator denominator : ℚ) - numerator / denominator| ≤ 1 / 2 := by
  obtain ⟨below, above⟩ := nearest_within_half numerator positive
  have positive' : (0 : ℚ) < denominator := by exact_mod_cast positive
  have below' : (2 * numerator : ℚ) ≤
      2 * (denominator * nearest numerator denominator) + denominator := by exact_mod_cast below
  have above' : (2 * (denominator * nearest numerator denominator) : ℚ) ≤
      2 * numerator + denominator := by exact_mod_cast above
  have quotient : (numerator : ℚ) / denominator * denominator = numerator := by field_simp
  rw [abs_le]
  constructor <;> nlinarith

theorem nearest_shifted_error (numerator scale : Nat) {denominator : Nat}
    (positive : 0 < denominator) :
    |(nearest (numerator <<< scale) denominator : ℚ) / 2 ^ scale - numerator / denominator| ≤
      1 / 2 / 2 ^ scale := by
  have error := nearest_error (numerator <<< scale) positive
  have power : (0 : ℚ) < 2 ^ scale := by positivity
  have shifted : ((numerator <<< scale : Nat) : ℚ) / denominator =
      numerator / denominator * 2 ^ scale := by
    rw [Nat.shiftLeft_eq]
    push_cast
    ring
  have difference : (nearest (numerator <<< scale) denominator : ℚ) / 2 ^ scale -
      numerator / denominator =
        (nearest (numerator <<< scale) denominator - (numerator <<< scale : Nat) / denominator) /
          2 ^ scale := by
    rw [shifted]
    field_simp
  rw [difference, abs_div, abs_of_pos power]
  gcongr

theorem log2_le_log2 {small large : Nat} (below : small ≤ large) : small.log2 ≤ large.log2 := by
  rw [Nat.log2_eq_log_two, Nat.log2_eq_log_two]
  exact Nat.log_mono_right below

namespace BinaryFraction

def value (fraction : BinaryFraction) : ℚ :=
  fraction.numerator / 2 ^ fraction.scale

theorem le_scale_ofQuotient {numerator denominator bits : Nat} (occupied : numerator ≠ 0)
    (room : numerator.log2 + bits ≤ 52 + denominator.log2) :
    bits ≤ (ofQuotient numerator denominator).scale := by
  have least : bits ≤ significantBits - 1 + denominator.log2 - numerator.log2 := by
    have places : significantBits = 53 := rfl
    omega
  simp only [ofQuotient, if_neg occupied, scaleOf]
  split
  · exact Nat.le_succ_of_le least
  · exact least

-- A quotient of which `bits` binary places fit loses at most half of the last of them.
theorem ofQuotient_error {numerator denominator bits : Nat} (positive : 0 < denominator)
    (room : numerator.log2 + bits ≤ 52 + denominator.log2) :
    |(ofQuotient numerator denominator).value - numerator / denominator| ≤ 1 / 2 / 2 ^ bits := by
  by_cases occupied : numerator = 0
  · have none : nearest 0 denominator = 0 := Nat.le_zero.mp (nearest_le positive (Nat.zero_le _))
    simp only [occupied, ofQuotient, value, Nat.zero_shiftLeft, none, Nat.cast_zero, zero_div,
      sub_zero, abs_zero]
    positivity
  · have fine : (2 : ℚ) ^ bits ≤ 2 ^ (ofQuotient numerator denominator).scale :=
      pow_le_pow_right₀ (by norm_num) (le_scale_ofQuotient occupied room)
    calc |(ofQuotient numerator denominator).value - numerator / denominator|
        ≤ 1 / 2 / 2 ^ (ofQuotient numerator denominator).scale :=
          nearest_shifted_error numerator _ positive
      _ ≤ 1 / 2 / 2 ^ bits := by gcongr

theorem numerator_ofQuotient_le {numerator denominator : Nat} (positive : 0 < denominator)
    (part : numerator ≤ denominator) :
    (ofQuotient numerator denominator).numerator ≤
      2 ^ (ofQuotient numerator denominator).scale := by
  apply nearest_le positive
  rw [Nat.shiftLeft_eq]
  exact Nat.mul_le_mul_right _ part

theorem cast_hundredfold (fraction : BinaryFraction) :
    ((100 * fraction.numerator : Nat) : ℚ) / (1 <<< fraction.scale : Nat) =
      100 * fraction.value := by
  rw [value, Nat.shiftLeft_eq]
  push_cast
  ring

theorem hundredfold_error {fraction : BinaryFraction}
    (part : fraction.numerator ≤ 2 ^ fraction.scale) :
    |fraction.hundredfold.value - 100 * fraction.value| ≤ 1 / 2 / 2 ^ 45 := by
  have unit : (1 <<< fraction.scale).log2 = fraction.scale := by simp [Nat.shiftLeft_eq]
  have small : (100 * fraction.numerator).log2 ≤ fraction.scale + 7 := by
    have below : 100 * fraction.numerator ≤ 2 ^ (fraction.scale + 7) := by
      rw [Nat.pow_add]
      omega
    simpa using log2_le_log2 below
  rw [← cast_hundredfold]
  exact ofQuotient_error (by simp [Nat.shiftLeft_eq]) (by omega)

theorem hundredths_error (fraction : BinaryFraction) :
    |(fraction.hundredths : ℚ) - 100 * fraction.value| ≤ 1 / 2 := by
  rw [← cast_hundredfold]
  exact nearest_error _ (by simp [Nat.shiftLeft_eq])

-- The roundings in between do not carry a percentage past the nearest hundredth.
theorem hundredths_of_part {part whole : Nat} (positive : 0 < whole) (within : part ≤ whole)
    (few : whole ≤ 2 ^ 37) :
    2 * |(((ofQuotient part whole).hundredfold.hundredths * whole : Nat) : ℤ) - 10000 * part| ≤
      whole := by
  have share : |(ofQuotient part whole).value - part / whole| ≤ 1 / 2 / 2 ^ 52 := by
    have narrow := log2_le_log2 within
    exact ofQuotient_error positive (by omega)
  have percent := hundredfold_error (numerator_ofQuotient_le positive within)
  have rounded := hundredths_error (ofQuotient part whole).hundredfold
  have positive' : (0 : ℚ) < whole := by exact_mod_cast positive
  have few' : (whole : ℚ) ≤ 2 ^ 37 := by exact_mod_cast few
  generalize (ofQuotient part whole).hundredfold.hundredths = hundredths at rounded ⊢
  generalize (ofQuotient part whole).hundredfold.value = hundredfold at percent rounded
  generalize (ofQuotient part whole).value = value at share percent
  have near : |(hundredths : ℚ) - 10000 * (part / whole)| ≤ 1 / 2 + 22800 / 2 ^ 53 := by
    rw [abs_le] at share percent rounded ⊢
    constructor <;> linarith
  have scaled : (hundredths * whole : ℚ) - 10000 * part =
      (hundredths - 10000 * (part / whole)) * whole := by
    field_simp
  have close : 2 * |(hundredths * whole : ℚ) - 10000 * part| < whole + 1 := by
    rw [scaled, abs_mul, abs_of_pos positive']
    nlinarith
  have close' : 2 * |((hundredths * whole : Nat) : ℤ) - 10000 * part| < whole + 1 := by
    exact_mod_cast close
  exact Int.lt_add_one_iff.mp close'

end BinaryFraction

end Rounding

namespace Tally

def ShowsCount (label : String) (count : Nat) (line : String) : Prop :=
  ∃ number : String, line = label ++ number ∧
    Numeral.read? Numeral.decimalDigits number.toList = some count

def ShowsShare (label : String) (count whole : Nat) (line : String) : Prop :=
  ∃ (number percent : String) (hundredths : Nat),
    line = label ++ number ++ " (" ++ percent ++ "%)" ∧
    Numeral.read? Numeral.decimalDigits number.toList = some count ∧
    Numeral.readFixed? 2 percent.toList = some hundredths ∧
    2 * |((hundredths * whole : Nat) : ℤ) - 10000 * count| ≤ whole

inductive Shown (tally : Tally) (microseconds : Nat) : List String → Prop
  | report {seconds retired arithmetic load print stack system depth : String}
      (elapsed : ∃ number : String, seconds = "host_seconds             " ++ number ++ " s" ∧
        Numeral.readFixed? 6 number.toList = some microseconds)
      (counted : ShowsCount "sim_insts                " tally.retired retired)
      (computed : ShowsShare "  op.alu                 " tally.arithmetic tally.retired arithmetic)
      (loaded : ShowsShare "  op.load                " tally.load tally.retired load)
      (printed : ShowsShare "  op.io                  " tally.print tally.retired print)
      (stacked : ShowsShare "  op.stack               " tally.stack tally.retired stack)
      (ended : ShowsShare "  op.system              " tally.system tally.retired system)
      (deepest : ShowsCount "stack.max_depth          " tally.maxDepth depth) :
      Shown tally microseconds
        ["",
          "==========================================================",
          "LS-8 RUN STATISTICS",
          "==========================================================",
          seconds,
          retired,
          "----------------------------------------------------------",
          "INSTRUCTION MIX",
          arithmetic,
          load,
          print,
          stack,
          system,
          "----------------------------------------------------------",
          depth,
          "=========================================================="]

theorem showsCount_entry {label start : String} (filled : Text.column 25 label = start)
    (count : Nat) : ShowsCount start count (entry label (Numeral.decimal count)) :=
  ⟨Numeral.decimal count, by rw [entry, filled], Numeral.read?_decimal count⟩

theorem hundredths_nearest {tally : Tally} {count : Nat} (part : count ≤ tally.retired)
    (few : tally.retired ≤ 2 ^ 37) :
    2 * |((tally.hundredths count * tally.retired : Nat) : ℤ) - 10000 * count| ≤ tally.retired := by
  rcases Nat.eq_zero_or_pos tally.retired with none | positive
  · obtain rfl : count = 0 := by omega
    simp [none]
  · rw [hundredths, Nat.max_eq_left positive]
    exact Rounding.BinaryFraction.hundredths_of_part positive part few

theorem showsShare_categoryEntry {tally : Tally} {label start : String}
    (filled : Text.column 25 label = start) {count : Nat} (part : count ≤ tally.retired)
    (few : tally.retired ≤ 2 ^ 37) :
    ShowsShare start count tally.retired (tally.categoryEntry label count) := by
  refine ⟨Numeral.decimal count, tally.percentText count, tally.hundredths count, ?_,
    Numeral.read?_decimal count, Numeral.readFixed?_fixed ..,
    hundredths_nearest part few⟩
  simp only [categoryEntry, entry, filled, String.append_assoc]

theorem shown_report {tally : Tally} (complete : tally.categories = tally.retired)
    (few : tally.retired ≤ 2 ^ 37) (microseconds : Nat) :
    tally.Shown microseconds (tally.report microseconds) := by
  have parts : tally.arithmetic ≤ tally.retired ∧ tally.load ≤ tally.retired ∧
      tally.print ≤ tally.retired ∧ tally.stack ≤ tally.retired ∧
      tally.system ≤ tally.retired := by
    unfold categories at complete
    omega
  obtain ⟨computed, loaded, printed, stacked, ended⟩ := parts
  have doubled : rule '=' = "==========================================================" := by
    decide +kernel
  have single : rule '-' = "----------------------------------------------------------" := by
    decide +kernel
  rw [report, doubled, single]
  apply Shown.report
  · refine ⟨secondsText microseconds, ?_, Numeral.readFixed?_fixed ..⟩
    have filled : Text.column 25 "host_seconds" = "host_seconds             " := by
      decide +kernel
    rw [entry, filled, String.append_assoc]
  · exact showsCount_entry (by decide +kernel) _
  · exact showsShare_categoryEntry (by decide +kernel) computed few
  · exact showsShare_categoryEntry (by decide +kernel) loaded few
  · exact showsShare_categoryEntry (by decide +kernel) printed few
  · exact showsShare_categoryEntry (by decide +kernel) stacked few
  · exact showsShare_categoryEntry (by decide +kernel) ended few
  · exact showsCount_entry (by decide +kernel) _

end Tally

end LS8
