import LS8.Program.Source
import LS8.Proofs.Effect
import Mathlib.Data.Nat.Digits.Defs
import Mathlib.Data.List.Forall2

set_option autoImplicit false

namespace LS8

namespace Text

inductive Cut : List Char → List (List Char) → Prop
  | nothing : Cut [] []
  | unended {line : List Char} (nonempty : line ≠ []) (whole : '\n' ∉ line) : Cut line [line]
  | fed {line rest : List Char} {lines : List (List Char)} (whole : '\n' ∉ line)
      (bare : line.getLast? ≠ some '\r') (more : Cut rest lines) :
      Cut (line ++ '\n' :: rest) (line :: lines)
  | returned {line rest : List Char} {lines : List (List Char)} (whole : '\n' ∉ line)
      (more : Cut rest lines) : Cut (line ++ '\r' :: '\n' :: rest) (line :: lines)

theorem lines_append_return {line : List Char} (whole : '\n' ∉ line) (rest : List Char) :
    lines (line ++ '\r' :: '\n' :: rest) = line :: lines rest := by
  have unended : '\n' ∉ line ++ ['\r'] := by simpa using whole
  have split := lines_append (line ++ ['\r']) rest unended
  simpa [withoutReturn] using split

theorem lines_append_feed {line : List Char} (whole : '\n' ∉ line)
    (bare : line.getLast? ≠ some '\r') (rest : List Char) :
    lines (line ++ '\n' :: rest) = line :: lines rest := by
  rw [lines_append line rest whole, withoutReturn, if_neg bare]

theorem Cut.lines_eq {text : List Char} {cut : List (List Char)} (cuts : Cut text cut) :
    lines text = cut := by
  induction cuts with
  | nothing => rfl
  | unended nonempty whole => simp [lines_of_unended whole, lastLine, nonempty]
  | fed whole bare more ih => rw [lines_append_feed whole bare, ih]
  | returned whole more ih => rw [lines_append_return whole, ih]

theorem cut_lines (text : List Char) : Cut text (lines text) := by
  -- The rest behind the first line feed is shorter than the text.
  induction size : text.length using Nat.strongRecOn generalizing text with
  | ind length ih =>
      by_cases ended : '\n' ∈ text
      · obtain ⟨line, rest, rfl, whole⟩ := List.eq_append_cons_of_mem ended
        have shorter : rest.length < length := by
          rw [← size, List.length_append, List.length_cons]
          omega
        have more := ih _ shorter rest rfl
        by_cases bare : line.getLast? = some '\r'
        · obtain ⟨line, rfl⟩ := List.getLast?_eq_some_iff.mp bare
          have whole' : '\n' ∉ line := fun member => whole (List.mem_append_left _ member)
          rw [List.append_assoc, List.singleton_append, lines_append_return whole']
          exact .returned whole' more
        · rw [lines_append_feed whole bare]
          exact .fed whole bare more
      · by_cases empty : text = []
        · subst empty
          exact .nothing
        · rw [lines_of_unended ended, lastLine, if_neg (by simpa using empty)]
          exact .unended empty ended

theorem cut_iff {text : List Char} {cut : List (List Char)} : Cut text cut ↔ lines text = cut :=
  ⟨Cut.lines_eq, fun same => same ▸ cut_lines text⟩

theorem trimLeft_of_visible {text : List Char} (visible : ∀ c ∈ text.head?, isBlank c = false) :
    trimLeft text = text := by
  cases text with
  | nil => rfl
  | cons c rest => exact trimLeft_cons (visible c rfl) rest

theorem visible_head_trimLeft (text : List Char) :
    ∀ c ∈ (trimLeft text).head?, isBlank c = false := by
  intro c first
  have stopped := List.head?_dropWhile_not isBlank text
  rw [show (text.dropWhile isBlank).head? = some c from first] at stopped
  simpa using stopped

theorem trim_surrounded {before code after : List Char}
    (blankBefore : before.all isBlank = true) (blankAfter : after.all isBlank = true)
    (first : ∀ c ∈ code.head?, isBlank c = false)
    (last : ∀ c ∈ code.getLast?, isBlank c = false) : trim (before ++ code ++ after) = code := by
  rw [trim, List.append_assoc, trimLeft_append blankBefore]
  by_cases empty : code = []
  · subst empty
    rw [List.nil_append, trimLeft_of_blank blankAfter]
    rfl
  · have start : ∀ c ∈ (code ++ after).head?, isBlank c = false := by
      intro c member
      rw [List.head?_append_of_ne_nil _ empty] at member
      exact first c member
    rw [trimLeft_of_visible start, List.reverse_append, trimLeft_append (by simpa using blankAfter),
      trimLeft_of_visible (by simpa using last), List.reverse_reverse]

theorem exists_surroundings (text : List Char) :
    ∃ before after : List Char,
      text = before ++ trim text ++ after ∧
      before.all isBlank = true ∧ after.all isBlank = true ∧
      (∀ c ∈ (trim text).head?, isBlank c = false) ∧
      ∀ c ∈ (trim text).getLast?, isBlank c = false := by
  have left : text.takeWhile isBlank ++ trimLeft text = text := List.takeWhile_append_dropWhile
  have right : (trimLeft text).reverse.takeWhile isBlank ++ (trim text).reverse =
      (trimLeft text).reverse := by
    rw [trim, List.reverse_reverse]
    exact List.takeWhile_append_dropWhile
  have inner := congrArg List.reverse right
  rw [List.reverse_append, List.reverse_reverse, List.reverse_reverse] at inner
  refine ⟨text.takeWhile isBlank, ((trimLeft text).reverse.takeWhile isBlank).reverse, ?_,
    List.all_takeWhile, ?_, ?_, ?_⟩
  · rw [List.append_assoc, inner, left]
  · rw [List.all_reverse]
    exact List.all_takeWhile
  · intro c first
    apply visible_head_trimLeft text
    rw [← inner, List.head?_append_of_ne_nil]
    · exact first
    · rintro empty
      simp [empty] at first
  · have visible := visible_head_trimLeft (trimLeft text).reverse
    simpa [trim] using visible

end Text

namespace Program

inductive HasCode : List Char → List Char → Prop
  | intro {before code after comment : List Char} (blankBefore : before.all Text.isBlank = true)
      (blankAfter : after.all Text.isBlank = true) (noSign : '#' ∉ code)
      (first : ∀ c ∈ code.head?, Text.isBlank c = false)
      (last : ∀ c ∈ code.getLast?, Text.isBlank c = false)
      (sign : comment = [] ∨ comment.head? = some '#') :
      HasCode (before ++ code ++ after ++ comment) code

theorem takeWhile_before_sign {text comment : List Char} (noSign : '#' ∉ text)
    (sign : comment = [] ∨ comment.head? = some '#') :
    (text ++ comment).takeWhile (fun c => c != '#') = text := by
  have inside : ∀ c ∈ text, (c != '#') = true := by
    intro c member
    simp only [bne_iff_ne]
    rintro rfl
    exact noSign member
  rw [List.takeWhile_append_of_pos inside]
  rcases sign with rfl | sign
  · simp
  · cases comment with
    | nil => cases sign
    | cons c rest =>
        cases sign
        simp

theorem HasCode.codeOf_eq {line code : List Char} (has : HasCode line code) :
    codeOf line = code := by
  cases has with
  | @intro before code after comment blankBefore blankAfter noSign first last sign =>
      have blank (text : List Char) (blanks : text.all Text.isBlank = true) : '#' ∉ text := by
        intro member
        have visible := List.all_eq_true.mp blanks '#' member
        revert visible
        decide
      have clean : '#' ∉ before ++ code ++ after := by
        simp [blank before blankBefore, blank after blankAfter, noSign]
      rw [codeOf, takeWhile_before_sign clean sign]
      exact Text.trim_surrounded blankBefore blankAfter first last

theorem hasCode_codeOf (line : List Char) : HasCode line (codeOf line) := by
  obtain ⟨before, after, split, blankBefore, blankAfter, first, last⟩ :=
    Text.exists_surroundings (line.takeWhile fun c => c != '#')
  have noSign : '#' ∉ codeOf line := by
    intro member
    have inside : '#' ∈ line.takeWhile fun c => c != '#' := by
      rw [split]
      exact List.mem_append_left _ (List.mem_append_right _ member)
    simpa using List.all_eq_true.mp List.all_takeWhile '#' inside
  have sign : (line.dropWhile fun c => c != '#') = [] ∨
      (line.dropWhile fun c => c != '#').head? = some '#' := by
    have stopped := List.head?_dropWhile_not (fun c => c != '#') line
    cases rest : line.dropWhile fun c => c != '#' with
    | nil => exact .inl rfl
    | cons c others => simpa [rest] using stopped
  have whole : line.takeWhile (fun c => c != '#') ++ line.dropWhile (fun c => c != '#') = line :=
    List.takeWhile_append_dropWhile
  have has := HasCode.intro blankBefore blankAfter noSign first last sign
  rw [codeOf, ← split, whole] at has
  exact has

theorem hasCode_iff {line code : List Char} : HasCode line code ↔ codeOf line = code :=
  ⟨HasCode.codeOf_eq, fun same => same ▸ hasCode_codeOf line⟩

theorem forall₂_hasCode_iff {lines codes : List (List Char)} :
    List.Forall₂ HasCode lines codes ↔ lines.map codeOf = codes := by
  have pointwise : HasCode = fun line code => codeOf line = code := by
    funext line code
    exact propext hasCode_iff
  rw [pointwise, ← List.forall₂_map_left_iff, List.forall₂_eq_eq_eq]

def IsNumeral (code : List Char) : Prop :=
  code ≠ [] ∧ code.length ≤ 8 ∧ ∀ c ∈ code, c = '0' ∨ c = '1'

def WellFormed (code : List Char) : Prop :=
  code = [] ∨ IsNumeral code

instance (code : List Char) : Decidable (WellFormed code) :=
  inferInstanceAs (Decidable (_ ∨ _ ∧ _ ∧ _))

def bit (c : Char) : Nat :=
  if c = '1' then 1 else 0

def baseTwo (code : List Char) : Nat :=
  Nat.ofDigits 2 (code.reverse.map bit)

theorem baseTwo_cons (c : Char) (code : List Char) :
    baseTwo (c :: code) = 2 ^ code.length * bit c + baseTwo code := by
  simp [baseTwo, Nat.ofDigits_append, Nat.add_comm]

theorem baseTwo_lt (code : List Char) : baseTwo code < 2 ^ code.length := by
  have bits : ∀ digit ∈ code.reverse.map bit, digit < 2 := by
    intro digit member
    obtain ⟨c, -, rfl⟩ := List.mem_map.mp member
    unfold bit
    split <;> decide
  simpa [baseTwo] using Nat.ofDigits_lt_base_pow_length (by decide) bits

theorem binaryValue_eq (code : List Char) : binaryValue code = baseTwo code := by
  -- The fold has read some digits already, and they stand above all the others.
  have behind (value : Nat) : code.foldl
      (fun value digit => 2 * value + if digit == '1' then 1 else 0) value =
        2 ^ code.length * value + baseTwo code := by
    induction code generalizing value with
    | nil => simp [baseTwo]
    | cons c code ih =>
        rw [List.foldl_cons, ih, baseTwo_cons, List.length_cons, Nat.pow_succ]
        simp only [bit, beq_iff_eq]
        ring
  simpa [binaryValue] using behind 0

theorem byteOf?_numeral {code : List Char} (numeral : IsNumeral code) :
    byteOf? code = some (.ofNat (baseTwo code)) := by
  obtain ⟨-, short, digits⟩ := numeral
  have binary : code.all isBinary = true := by
    simpa [isBinary] using digits
  rw [byteOf?, binaryValue_eq]
  simp [short, binary]

theorem toNat_ofNat_baseTwo {code : List Char} (numeral : IsNumeral code) :
    (UInt8.ofNat (baseTwo code)).toNat = baseTwo code := by
  obtain ⟨-, short, -⟩ := numeral
  have bound : baseTwo code < 2 ^ 8 :=
    Nat.lt_of_lt_of_le (baseTwo_lt code) (Nat.pow_le_pow_right (by decide) short)
  exact UInt8.toNat_ofNat_of_lt' bound

theorem byteOf?_malformed {code : List Char} (malformed : ¬ WellFormed code) :
    byteOf? code = none := by
  simp only [byteOf?, ite_eq_right_iff]
  intro accepted
  exfalso
  apply malformed
  by_cases empty : code = []
  · exact .inl empty
  · simp only [Bool.and_eq_true, decide_eq_true_eq, List.all_eq_true, isBinary, Bool.or_eq_true,
      beq_iff_eq] at accepted
    exact .inr ⟨empty, accepted⟩

def numbered (number : Nat) (codes : List (List Char)) : List (List Char × Nat) :=
  (codes.zipIdx number).filter fun (code, _) => !code.isEmpty

theorem numbered_cons (number : Nat) {code : List Char} (nonempty : code ≠ [])
    (codes : List (List Char)) :
    numbered number (code :: codes) = (code, number) :: numbered (number + 1) codes := by
  simp [numbered, nonempty]

def occupied (codes : List (List Char)) : List (List Char) :=
  codes.filter fun code => code ≠ []

theorem read_wellFormed {codes : List (List Char)} (good : ∀ code ∈ codes, WellFormed code)
    (number : Nat) : ∃ bytes : List UInt8, (numbered number codes).mapM readCode = .ok bytes ∧
      bytes.map UInt8.toNat = (occupied codes).map baseTwo := by
  induction codes generalizing number with
  | nil => exact ⟨[], rfl, rfl⟩
  | cons code codes ih =>
      obtain ⟨head, tail⟩ := List.forall_mem_cons.mp good
      obtain ⟨bytes, read, values⟩ := ih tail (number + 1)
      rcases head with rfl | numeral
      · exact ⟨bytes, read, values⟩
      · refine ⟨.ofNat (baseTwo code) :: bytes, ?_, ?_⟩
        · rw [numbered_cons number numeral.1, List.mapM_cons, read, readCode,
            byteOf?_numeral numeral]
          rfl
        · rw [occupied, List.filter_cons_of_pos (by simpa using numeral.1), ← occupied,
            List.map_cons, List.map_cons, toNat_ofNat_baseTwo numeral, values]

theorem read_malformed {before : List (List Char)} (good : ∀ code ∈ before, WellFormed code)
    {code : List Char} (bad : ¬ WellFormed code) (after : List (List Char)) (number : Nat) :
    (numbered number (before ++ code :: after)).mapM readCode =
      .error (.malformed (number + before.length) (String.ofList code)) := by
  induction before generalizing number with
  | nil =>
      have nonempty : code ≠ [] := fun empty => bad (.inl empty)
      rw [List.nil_append, numbered_cons number nonempty, List.mapM_cons, readCode,
        byteOf?_malformed bad]
      rfl
  | cons first before ih =>
      obtain ⟨head, tail⟩ := List.forall_mem_cons.mp good
      have rest := ih tail (number + 1)
      rw [List.length_cons, show number + (before.length + 1) = number + 1 + before.length by omega]
      rcases head with rfl | numeral
      · exact rest
      · rw [List.cons_append, numbered_cons number numeral.1, List.mapM_cons, rest, readCode,
          byteOf?_numeral numeral]
        rfl

theorem exists_first_malformed {codes : List (List Char)}
    (bad : ¬ ∀ code ∈ codes, WellFormed code) :
    ∃ (before : List (List Char)) (code : List Char) (after : List (List Char)),
      codes = before ++ code :: after ∧ (∀ code ∈ before, WellFormed code) ∧
        ¬ WellFormed code := by
  cases found : codes.find? fun code => ¬ WellFormed code with
  | none =>
      rw [List.find?_eq_none] at found
      exact absurd (by simpa using found) bad
  | some code =>
      obtain ⟨malformed, before, after, split, good⟩ := List.find?_eq_some_iff_append.mp found
      exact ⟨before, code, after, split, by simpa using good, by simpa using malformed⟩

/--
What the codes of a text, line by line, spell. A malformed code outranks the size, and the first
one is reported.
-/
inductive Spells : List (List Char) → Except LoadError (List UInt8) → Prop
  | malformed {before : List (List Char)} {code : List Char} {after : List (List Char)}
      (good : ∀ code ∈ before, WellFormed code) (bad : ¬ WellFormed code) :
      Spells (before ++ code :: after)
        (.error (.malformed (before.length + 1) (String.ofList code)))
  | tooLarge {codes : List (List Char)} {error : LoadError}
      (good : ∀ code ∈ codes, WellFormed code) (large : 256 < (occupied codes).length)
      (counted : error = .tooLarge (occupied codes).length 256)
      (worded : error.text = "program is " ++ Numeral.decimal (occupied codes).length
        ++ " bytes but memory holds " ++ Numeral.decimal 256) :
      Spells codes (.error error)
  | read {codes : List (List Char)} {bytes : List UInt8} (good : ∀ code ∈ codes, WellFormed code)
      (fits : (occupied codes).length ≤ 256)
      (values : bytes.map UInt8.toNat = (occupied codes).map baseTwo) :
      Spells codes (.ok bytes)

def readCodes (codes : List (List Char)) : Except LoadError (List UInt8) := do
  let bytes ← (numbered 1 codes).mapM readCode
  checkSize bytes

theorem readCodes_malformed {before : List (List Char)}
    (good : ∀ code ∈ before, WellFormed code) {code : List Char} (bad : ¬ WellFormed code)
    (after : List (List Char)) :
    readCodes (before ++ code :: after) =
      .error (.malformed (before.length + 1) (String.ofList code)) := by
  rw [readCodes, read_malformed good bad, Nat.add_comm]
  rfl

theorem readCodes_wellFormed {codes : List (List Char)}
    (good : ∀ code ∈ codes, WellFormed code) :
    ∃ bytes : List UInt8, readCodes codes = checkSize bytes ∧
      bytes.map UInt8.toNat = (occupied codes).map baseTwo := by
  obtain ⟨bytes, read, values⟩ := read_wellFormed good 1
  refine ⟨bytes, ?_, values⟩
  rw [readCodes, read]
  rfl

theorem length_of_values {bytes : List UInt8} {codes : List (List Char)}
    (values : bytes.map UInt8.toNat = codes.map baseTwo) : bytes.length = codes.length := by
  simpa using congrArg List.length values

theorem checkSize_of_large {bytes : List UInt8} {length : Nat} (large : 256 < length)
    (counted : bytes.length = length) :
    checkSize bytes = .error (.tooLarge length 256) := by
  rw [checkSize, counted]
  exact if_pos large

theorem checkSize_of_fits {bytes : List UInt8} {length : Nat} (fits : length ≤ 256)
    (counted : bytes.length = length) : checkSize bytes = .ok bytes := by
  rw [checkSize, counted]
  exact if_neg (Nat.not_lt.mpr fits)

theorem Spells.readCodes_eq {codes : List (List Char)} {result : Except LoadError (List UInt8)}
    (spells : Spells codes result) : readCodes codes = result := by
  cases spells with
  | malformed good bad => exact readCodes_malformed good bad _
  | tooLarge good large counted worded =>
      obtain ⟨bytes, read, values⟩ := readCodes_wellFormed good
      rw [read, checkSize_of_large large (length_of_values values), counted]
  | read good fits values =>
      obtain ⟨bytes, read, others⟩ := readCodes_wellFormed good
      have same := List.map_injective_iff.mpr (fun _ _ => UInt8.toNat.inj) (others.trans values.symm)
      rw [read, checkSize_of_fits fits (length_of_values others), same]

theorem spells_readCodes (codes : List (List Char)) : Spells codes (readCodes codes) := by
  by_cases good : ∀ code ∈ codes, WellFormed code
  · obtain ⟨bytes, read, values⟩ := readCodes_wellFormed good
    rw [read]
    rcases Nat.lt_or_ge 256 (occupied codes).length with large | fits
    · rw [checkSize_of_large large (length_of_values values)]
      exact .tooLarge good large rfl rfl
    · rw [checkSize_of_fits fits (length_of_values values)]
      exact .read good fits values
  · obtain ⟨before, code, after, rfl, good, bad⟩ := exists_first_malformed good
    rw [readCodes_malformed good bad]
    exact .malformed good bad

theorem spells_iff {codes : List (List Char)} {result : Except LoadError (List UInt8)} :
    Spells codes result ↔ readCodes codes = result :=
  ⟨Spells.readCodes_eq, fun same => same ▸ spells_readCodes codes⟩

theorem parse_eq_iff {text : String} {result : Except LoadError (List UInt8)} :
    parse text = result ↔
      ∃ lines codes : List (List Char),
        Text.Cut text.toList lines ∧ List.Forall₂ HasCode lines codes ∧ Spells codes result := by
  simp only [Text.cut_iff, forall₂_hasCode_iff, spells_iff]
  constructor
  · intro read
    exact ⟨Text.lines text.toList, _, rfl, rfl, read⟩
  · rintro ⟨lines, codes, rfl, rfl, read⟩
    exact read

end Program

end LS8
