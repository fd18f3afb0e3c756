import LS8.Proofs.Spelling

set_option autoImplicit false

namespace LS8.Json

namespace Number

theorem exists_digits {literal rest : List Char} (read : afterDigits literal = some rest) :
    ∃ digits, literal = digits ++ rest ∧ Digits digits := by
  unfold afterDigits at read
  split at read
  next => cases read
  next given =>
    cases read
    refine ⟨literal.takeWhile Char.isDigit, List.takeWhile_append_dropWhile.symm, ?_, ?_⟩
    · simpa using given
    · exact List.all_takeWhile

theorem exists_sign (literal : List Char) :
    ∃ sign, literal = sign ++ afterSign literal ∧ (sign = [] ∨ sign = ['-']) := by
  unfold afterSign
  split
  next => exact ⟨['-'], rfl, .inr rfl⟩
  next => exact ⟨[], rfl, .inl rfl⟩

theorem exists_integer {literal rest : List Char} (read : afterInteger literal = some rest) :
    ∃ integer, literal = integer ++ rest ∧ SpelledInteger integer := by
  unfold afterInteger at read
  split at read
  next =>
    cases read
    exact ⟨['0'], rfl, .zero⟩
  next literal nonzero =>
    obtain ⟨digits, rfl, given⟩ := exists_digits read
    obtain ⟨first, more, rfl⟩ := List.exists_cons_of_ne_nil given.1
    refine ⟨first :: more, rfl, .leading ?_ given⟩
    rintro rfl
    exact nonzero _ rfl

theorem exists_fraction {literal rest : List Char} (read : afterFraction literal = some rest) :
    ∃ fraction, literal = fraction ++ rest ∧ SpelledFraction fraction := by
  unfold afterFraction at read
  split at read
  next =>
    obtain ⟨digits, rfl, given⟩ := exists_digits read
    exact ⟨'.' :: digits, rfl, .digits given⟩
  next =>
    cases read
    exact ⟨[], rfl, .absent⟩

theorem exists_exponentSign (literal : List Char) :
    ∃ sign, literal = sign ++ afterExponentSign literal ∧
      (sign = [] ∨ sign = ['+'] ∨ sign = ['-']) := by
  unfold afterExponentSign
  split
  next => exact ⟨['+'], rfl, .inr (.inl rfl)⟩
  next => exact ⟨['-'], rfl, .inr (.inr rfl)⟩
  next => exact ⟨[], rfl, .inl rfl⟩

theorem spelledExponent_of_read {literal : List Char} (read : afterExponent literal = some []) :
    SpelledExponent literal := by
  have marked {mark : Char} {rest : List Char} (is : mark = 'e' ∨ mark = 'E')
      (read : afterDigits (afterExponentSign rest) = some []) : SpelledExponent (mark :: rest) := by
    obtain ⟨sign, split, signed⟩ := exists_exponentSign rest
    obtain ⟨digits, same, given⟩ := exists_digits read
    rw [split, same, List.append_nil]
    exact .digits is signed given
  unfold afterExponent at read
  split at read
  next => exact marked (.inl rfl) read
  next => exact marked (.inr rfl) read
  next =>
    cases read
    exact .absent

theorem spelled_of_isLiteral {literal : List Char} (is : isLiteral literal = true) :
    Spelled literal := by
  obtain ⟨sign, split, signed⟩ := exists_sign literal
  rw [isLiteral, beq_iff_eq] at is
  obtain ⟨scaled, read, scale⟩ := Option.bind_eq_some_iff.mp is
  obtain ⟨fractional, whole, part⟩ := Option.bind_eq_some_iff.mp read
  obtain ⟨integer, splitInteger, spelledInteger⟩ := exists_integer whole
  obtain ⟨fraction, rfl, spelledFraction⟩ := exists_fraction part
  rw [split, splitInteger]
  exact .intro signed spelledInteger spelledFraction (spelledExponent_of_read scale)

end Number

theorem Blanks.cons {text : List Char} {c : Char} (blanks : Blanks text)
    (blank : isBlank c = true) : Blanks (c :: text) := by
  rw [Blanks, List.all_cons, blank]
  exact blanks

theorem spelled_append_blanks {value : Value} {front after : List Char}
    (spelled : Spelled (.value value) front) (blanks : Blanks after) :
    Spelled (.value value) (front ++ after) :=
  .surrounded (by rfl : Blanks []) spelled blanks

theorem Spelled.cons_blank {phrase : Phrase} {text : List Char} {c : Char}
    (spelled : Spelled phrase text) (blank : isBlank c = true) : Spelled phrase (c :: text) := by
  have value {value : Value} {text : List Char} (spelled : Spelled (.value value) text) :
      Spelled (.value value) (c :: text) := by
    simpa using Spelled.surrounded (.cons (by rfl : Blanks []) blank) spelled (by rfl : Blanks [])
  have member {key : Units} {value : Value} {text : List Char}
      (spelled : Spelled (.member key value) text) : Spelled (.member key value) (c :: text) := by
    cases spelled with
    | member blankBefore named blankAfter spelled =>
        exact .member (blankBefore.cons blank) named blankAfter spelled
  cases phrase with
  | value => exact value spelled
  | items =>
      cases spelled with
      | lastItem spelled => exact .lastItem (value spelled)
      | item spelled more => exact .item (value spelled) more
  | member => exact member spelled
  | members =>
      cases spelled with
      | lastMember spelled => exact .lastMember (member spelled)
      | members spelled more => exact .members (member spelled) more

namespace Reader

theorem hexDigit_of_read {c : Char} {value : Nat} (read : hexDigit? c = some value) :
    HexDigit value c := by
  have known : ∀ code < 103, ∀ value ∈ hexDigit? (Char.ofNat code),
      value < 16 ∧ (Char.ofNat code = value.digitChar ∨
        Char.ofNat code = value.digitChar.toUpper) := by
    decide +kernel
  have small : c.toNat < 103 := by
    unfold hexDigit? at read
    split at read
    next digit =>
      simp only [Char.isDigit, Bool.and_eq_true, decide_eq_true_eq, UInt32.le_iff_toNat_le] at digit
      exact Nat.lt_of_le_of_lt digit.2 (by decide)
    next =>
      split at read
      next lower => exact Nat.lt_of_le_of_lt lower.2 (by decide)
      next =>
        split at read
        next upper => exact Nat.lt_of_le_of_lt upper.2 (by decide)
        next => cases read
  have is := known c.toNat small value (by rwa [Char.ofNat_toNat])
  rwa [Char.ofNat_toNat] at is

theorem exists_shortEscape {letter : Char} {unit : UInt16}
    (read : shortEscape? letter = some unit) :
    ∃ c, (letter, c) ∈ shortEscapes ∧ Units.ofChar c = [unit] := by
  refine ⟨Char.ofNat unit.toNat, ?_⟩
  unfold shortEscape? at read
  split at read
  all_goals cases read
  all_goals decide

/-- The text behind a value that is read in these frames, if the value of it all is `whole`. -/
def Finishes (whole : Value) : List Frame → Value → List Char → Prop
  | [], value, text => Blanks text ∧ value = whole
  | .array before :: frames, value, text =>
      ∃ after tail, Blanks after ∧
        ((text = after ++ ']' :: tail ∧
            Finishes whole frames (.array (before.reverse ++ [value])) tail) ∨
          ∃ items front, text = after ++ ',' :: (front ++ ']' :: tail) ∧
            Spelled (.items items) front ∧
            Finishes whole frames (.array (before.reverse ++ value :: items)) tail)
  | .object before key :: frames, value, text =>
      ∃ after tail, Blanks after ∧
        ((text = after ++ '}' :: tail ∧
            Finishes whole frames (.object (before.reverse ++ [(key, value)])) tail) ∨
          ∃ members front, text = after ++ ',' :: (front ++ '}' :: tail) ∧
            Spelled (.members members) front ∧
            Finishes whole frames (.object (before.reverse ++ (key, value) :: members)) tail)

theorem finishes_blank {whole value : Value} {frames : List Frame} {c : Char} {text : List Char}
    (blank : isBlank c = true) (finishes : Finishes whole frames value text) :
    Finishes whole frames value (c :: text) := by
  match frames, finishes with
  | [], ⟨blanks, same⟩ => exact ⟨blanks.cons blank, same⟩
  | .array before :: frames, ⟨after, tail, blanks, closed⟩ =>
      refine ⟨c :: after, tail, blanks.cons blank, ?_⟩
      rcases closed with ⟨rfl, inside⟩ | ⟨items, front, rfl, inside⟩
      · exact .inl ⟨rfl, inside⟩
      · exact .inr ⟨items, front, rfl, inside⟩
  | .object before key :: frames, ⟨after, tail, blanks, closed⟩ =>
      refine ⟨c :: after, tail, blanks.cons blank, ?_⟩
      rcases closed with ⟨rfl, inside⟩ | ⟨members, front, rfl, inside⟩
      · exact .inl ⟨rfl, inside⟩
      · exact .inr ⟨members, front, rfl, inside⟩

def ValueAhead (whole : Value) (frames : List Frame) (text : List Char) : Prop :=
  ∃ value front tail, text = front ++ tail ∧ Spelled (.value value) front ∧
    Finishes whole frames value tail

def ItemsAhead (whole : Value) (frames : List Frame) (before : List Value) (text : List Char) :
    Prop :=
  ∃ items front tail, text = front ++ ']' :: tail ∧ Spelled (.items items) front ∧
    Finishes whole frames (.array (before.reverse ++ items)) tail

def MembersAhead (whole : Value) (frames : List Frame) (before : List (Units × Value))
    (text : List Char) : Prop :=
  ∃ members front tail, text = front ++ '}' :: tail ∧ Spelled (.members members) front ∧
    Finishes whole frames (.object (before.reverse ++ members)) tail

def ColonAhead (whole : Value) (frames : List Frame) (before : List (Units × Value)) (key : Units)
    (text : List Char) : Prop :=
  ∃ between rest, text = between ++ ':' :: rest ∧ Blanks between ∧
    ValueAhead whole (.object before key :: frames) rest

theorem itemsAhead_of_valueAhead {whole : Value} {frames : List Frame} {before : List Value}
    {text : List Char} (ahead : ValueAhead whole (.array before :: frames) text) :
    ItemsAhead whole frames before text := by
  obtain ⟨value, front, _, rfl, spelled, after, tail, blanks, closed⟩ := ahead
  have spelled := spelled_append_blanks spelled blanks
  rcases closed with ⟨rfl, finishes⟩ | ⟨items, more, rfl, spelledItems, finishes⟩
  · exact ⟨[value], front ++ after, tail, by simp, .lastItem spelled, finishes⟩
  · exact ⟨value :: items, front ++ after ++ ',' :: more, tail, by simp,
      .item spelled spelledItems, finishes⟩

theorem membersAhead_of_colonAhead {whole : Value} {frames : List Frame}
    {before : List (Units × Value)} {key : Units} {name text : List Char}
    (named : SpelledUnits key name) (ahead : ColonAhead whole frames before key text) :
    MembersAhead whole frames before ('"' :: (name ++ '"' :: text)) := by
  obtain ⟨between, _, rfl, blanksBetween, value, front, _, rfl, spelled, after, tail, blanks,
    closed⟩ := ahead
  have spelled := spelled_append_blanks spelled blanks
  have member := Spelled.member (by rfl : Blanks []) named blanksBetween spelled
  rcases closed with ⟨rfl, finishes⟩ | ⟨members, more, rfl, spelledMembers, finishes⟩
  · exact ⟨[(key, value)], _, tail, by simp, .lastMember member, finishes⟩
  · exact ⟨(key, value) :: members, _, tail, by simp, .members member spelledMembers, finishes⟩

def DigitsRest : Nat → Nat → Units → List Char → Prop
  | 0, value, units, text => ∃ rest, units = .ofNat value :: rest ∧ SpelledUnits rest text
  | count + 1, value, units, text =>
      ∃ digit c rest, text = c :: rest ∧ HexDigit digit c ∧
        DigitsRest count (16 * value + digit) units rest

def StringRest : Escape → Units → List Char → Prop
  | .none, units, text => SpelledUnits units text
  | .opened, units, text => SpelledUnits units ('\\' :: text)
  | .unicode digits value, units, text => digits ≤ 3 → DigitsRest (4 - digits) value units text

def RoleAhead (whole : Value) (frames : List Frame) (units : Units) (text : List Char) :
    StringRole → Prop
  | .value => Finishes whole frames (.string units) text
  | .key before => ColonAhead whole frames before units text

/-- What the grammar asks for behind a reader, if the value of it all is `whole`. -/
def Continues (whole : Value) (frames : List Frame) (text : List Char) : State → Prop
  | .beforeValue => ValueAhead whole frames text
  | .firstItem =>
      (∃ between tail, text = between ++ ']' :: tail ∧ Blanks between ∧
        Finishes whole frames (.array []) tail) ∨
      ItemsAhead whole frames [] text
  | .firstKey =>
      (∃ between tail, text = between ++ '}' :: tail ∧ Blanks between ∧
        Finishes whole frames (.object []) tail) ∨
      MembersAhead whole frames [] text
  | .nextKey before => MembersAhead whole frames before text
  | .beforeColon before key => ColonAhead whole frames before key text
  | .afterValue value => Finishes whole frames value text
  | .word letters value => ∃ tail, text = letters ++ tail ∧ Finishes whole frames value tail
  | .number before =>
      ∃ front tail, text = front ++ tail ∧ Number.Spelled (before.reverse ++ front) ∧
        Finishes whole frames (.number (before.reverse ++ front)) tail
  | .string role escape before =>
      ∃ units front tail, text = front ++ '"' :: tail ∧ StringRest escape units front ∧
        RoleAhead whole frames (before.reverse ++ units) tail role

section Step

variable {whole : Value} {frames : List Frame} {next : Reader} {c : Char} {rest : List Char}

theorem valueAhead_of_begin (stepped : beginValue frames c = some next)
    (later : Continues whole next.frames rest next.state) :
    ValueAhead whole frames (c :: rest) := by
  unfold beginValue at stepped
  split at stepped
  next =>
    cases stepped
    rcases later with ⟨between, tail, rfl, blanks, finishes⟩ | ⟨items, front, tail, rfl, inside,
      finishes⟩
    · exact ⟨.array [], '[' :: (between ++ [']']), tail, by simp, .emptyArray blanks, finishes⟩
    · exact ⟨.array items, '[' :: (front ++ [']']), tail, by simp, .array inside, finishes⟩
  next =>
    cases stepped
    rcases later with ⟨between, tail, rfl, blanks, finishes⟩ | ⟨members, front, tail, rfl, inside,
      finishes⟩
    · exact ⟨.object [], '{' :: (between ++ ['}']), tail, by simp, .emptyObject blanks, finishes⟩
    · exact ⟨.object members, '{' :: (front ++ ['}']), tail, by simp, .object inside, finishes⟩
  next =>
    cases stepped
    obtain ⟨units, front, tail, rfl, spelled, finishes⟩ := later
    exact ⟨.string units, '"' :: (front ++ ['"']), tail, by simp, .string spelled, finishes⟩
  next =>
    cases stepped
    obtain ⟨tail, rfl, finishes⟩ := later
    exact ⟨.null, _, tail, rfl, .null, finishes⟩
  next =>
    cases stepped
    obtain ⟨tail, rfl, finishes⟩ := later
    exact ⟨.bool true, _, tail, rfl, .holds, finishes⟩
  next =>
    cases stepped
    obtain ⟨tail, rfl, finishes⟩ := later
    exact ⟨.bool false, _, tail, rfl, .fails, finishes⟩
  next =>
    split at stepped
    · cases stepped
      obtain ⟨front, tail, rfl, spelled, finishes⟩ := later
      exact ⟨.number (c :: front), c :: front, tail, rfl, .number spelled, finishes⟩
    · cases stepped

theorem finishes_of_separate {value : Value} (stepped : separate frames value c = some next)
    (later : Continues whole next.frames rest next.state) :
    Finishes whole frames value (c :: rest) := by
  have none : Blanks [] := rfl
  unfold separate at stepped
  split at stepped
  next items frames =>
    cases stepped
    obtain ⟨more, front, tail, rfl, spelled, finishes⟩ := itemsAhead_of_valueAhead later
    exact ⟨[], tail, none, .inr ⟨more, front, rfl, spelled, by simpa using finishes⟩⟩
  next items frames =>
    cases stepped
    exact ⟨[], rest, none, .inl ⟨rfl, by simpa [Continues] using later⟩⟩
  next members key frames =>
    cases stepped
    obtain ⟨more, front, tail, rfl, spelled, finishes⟩ := later
    exact ⟨[], tail, none, .inr ⟨more, front, rfl, spelled, by simpa using finishes⟩⟩
  next members key frames =>
    cases stepped
    exact ⟨[], rest, none, .inl ⟨rfl, by simpa [Continues] using later⟩⟩
  next => cases stepped

theorem finishes_of_stepAfter {value : Value} (stepped : stepAfter frames value c = some next)
    (later : Continues whole next.frames rest next.state) :
    Finishes whole frames value (c :: rest) := by
  unfold stepAfter at stepped
  split at stepped
  next blank =>
    cases stepped
    exact finishes_blank blank later
  next => exact finishes_of_separate stepped later

theorem continues_of_stepWord {letters : List Char} {value : Value}
    (stepped : stepWord frames value c letters = some next)
    (later : Continues whole next.frames rest next.state) :
    Continues whole frames (c :: rest) (.word letters value) := by
  unfold stepWord at stepped
  split at stepped
  next => cases stepped
  next letter =>
    split at stepped
    next same =>
      cases stepped
      obtain rfl := eq_of_beq same
      exact ⟨rest, rfl, later⟩
    next => cases stepped
  next letter letters _ =>
    split at stepped
    next same =>
      cases stepped
      obtain rfl := eq_of_beq same
      obtain ⟨tail, rfl, finishes⟩ := later
      exact ⟨tail, rfl, finishes⟩
    next => cases stepped

theorem continues_of_stepNumber {before : List Char}
    (stepped : stepNumber frames before c = some next)
    (later : Continues whole next.frames rest next.state) :
    Continues whole frames (c :: rest) (.number before) := by
  unfold stepNumber at stepped
  split at stepped
  next =>
    cases stepped
    obtain ⟨front, tail, rfl, spelled, finishes⟩ := later
    exact ⟨c :: front, tail, rfl, by simpa using spelled, by simpa using finishes⟩
  next =>
    split at stepped
    next literal =>
      have finishes := finishes_of_stepAfter stepped later
      have spelled := Number.spelled_of_isLiteral literal
      exact ⟨[], c :: rest, rfl, by simpa using spelled, by simpa using finishes⟩
    next => cases stepped

theorem roleAhead_of_close {role : StringRole} {units : Units}
    (later : Continues whole (closeString frames role units).frames rest
      (closeString frames role units).state) :
    RoleAhead whole frames units rest role := by
  cases role <;> exact later

theorem spelledUnits_of_digitsRest {units : Units} {text : List Char}
    (digits : DigitsRest 4 0 units text) : SpelledUnits units ('\\' :: 'u' :: text) := by
  obtain ⟨first, a, _, rfl, isFirst, second, b, _, rfl, isSecond, third, c, _, rfl, isThird,
    fourth, d, _, rfl, isFourth, rest, rfl, spelled⟩ := digits
  have coded := SpelledUnits.coded ⟨isFirst, isSecond, isThird, isFourth⟩ spelled
  have same : 16 * (16 * (16 * (16 * 0 + first) + second) + third) + fourth =
      ((first * 16 + second) * 16 + third) * 16 + fourth := by
    omega
  rwa [same]

theorem continues_of_stepString {role : StringRole} {escape : Escape} {before : Units}
    (stepped : stepString frames role before c escape = some next)
    (later : Continues whole next.frames rest next.state) :
    Continues whole frames (c :: rest) (.string role escape before) := by
  cases escape with
  | none =>
      simp only [stepString] at stepped
      split at stepped
      next quote =>
        cases stepped
        obtain rfl := eq_of_beq quote
        exact ⟨[], [], rest, rfl, .nothing, by simpa using roleAhead_of_close later⟩
      next notQuote =>
        split at stepped
        next backslash =>
          cases stepped
          obtain rfl := eq_of_beq backslash
          obtain ⟨units, front, tail, rfl, spelled, ahead⟩ := later
          exact ⟨units, '\\' :: front, tail, rfl, spelled, ahead⟩
        next notBackslash =>
          split at stepped
          next => cases stepped
          next printable =>
            cases stepped
            obtain ⟨units, front, tail, rfl, spelled, ahead⟩ := later
            have plain := spelled.plain (Nat.not_lt.mp printable) (by simpa using notQuote)
              (by simpa using notBackslash)
            exact ⟨_, c :: front, tail, rfl, plain, by simpa using ahead⟩
  | opened =>
      simp only [stepString] at stepped
      split at stepped
      next unicode =>
        cases stepped
        obtain rfl := eq_of_beq unicode
        obtain ⟨units, front, tail, rfl, digits, ahead⟩ := later
        exact ⟨units, 'u' :: front, tail, rfl, spelledUnits_of_digitsRest (digits (by decide)),
          ahead⟩
      next =>
        obtain ⟨unit, found, rfl⟩ := Option.map_eq_some_iff.mp stepped
        obtain ⟨character, stands, same⟩ := exists_shortEscape found
        obtain ⟨units, front, tail, rfl, spelled, ahead⟩ := later
        have short := spelled.short stands
        rw [same] at short
        exact ⟨_, c :: front, tail, rfl, short, by simpa using ahead⟩
  | unicode digits value =>
      obtain ⟨digit, found, rfl⟩ := Option.map_eq_some_iff.mp stepped
      have hex := hexDigit_of_read found
      split at later
      next last =>
        subst last
        obtain ⟨units, front, tail, rfl, spelled, ahead⟩ := later
        rw [List.reverse_cons, List.append_assoc] at ahead
        refine ⟨.ofNat (16 * value + digit) :: units, c :: front, tail, rfl, ?_, ahead⟩
        intro _
        exact ⟨digit, c, front, rfl, hex, units, rfl, spelled⟩
      next more =>
        obtain ⟨units, front, tail, rfl, digitsRest, ahead⟩ := later
        refine ⟨units, c :: front, tail, rfl, ?_, ahead⟩
        intro few
        have one : 4 - digits = 4 - (digits + 1) + 1 := by omega
        rw [one]
        exact ⟨digit, c, front, rfl, hex, digitsRest (by omega)⟩

theorem continues_cons_blank {state : State} (skips : State.skipsBlanks state = true)
    (blank : isBlank c = true) (later : Continues whole frames rest state) :
    Continues whole frames (c :: rest) state := by
  cases state with
  | beforeValue =>
      obtain ⟨value, front, tail, rfl, spelled, finishes⟩ := later
      exact ⟨value, c :: front, tail, rfl, spelled.cons_blank blank, finishes⟩
  | firstItem =>
      rcases later with ⟨between, tail, rfl, blanks, finishes⟩ | ⟨items, front, tail, rfl, inside,
        finishes⟩
      · exact .inl ⟨c :: between, tail, rfl, blanks.cons blank, finishes⟩
      · exact .inr ⟨items, c :: front, tail, rfl, inside.cons_blank blank, finishes⟩
  | firstKey =>
      rcases later with ⟨between, tail, rfl, blanks, finishes⟩ | ⟨members, front, tail, rfl, inside,
        finishes⟩
      · exact .inl ⟨c :: between, tail, rfl, blanks.cons blank, finishes⟩
      · exact .inr ⟨members, c :: front, tail, rfl, inside.cons_blank blank, finishes⟩
  | nextKey before =>
      obtain ⟨members, front, tail, rfl, inside, finishes⟩ := later
      exact ⟨members, c :: front, tail, rfl, inside.cons_blank blank, finishes⟩
  | beforeColon before key =>
      obtain ⟨between, rest, rfl, blanks, ahead⟩ := later
      exact ⟨c :: between, rest, rfl, blanks.cons blank, ahead⟩
  | _ => cases skips

theorem continues_of_step {state : State} (stepped : Reader.step ⟨frames, state⟩ c = some next)
    (later : Continues whole next.frames rest next.state) :
    Continues whole frames (c :: rest) state := by
  unfold step at stepped
  split at stepped
  next skipped =>
    rw [Bool.and_eq_true] at skipped
    cases stepped
    exact continues_cons_blank skipped.1 skipped.2 later
  cases state with
  | beforeValue => exact valueAhead_of_begin stepped later
  | firstItem =>
      dsimp only at stepped
      split at stepped
      next bracket =>
        cases stepped
        obtain rfl := eq_of_beq bracket
        exact .inl ⟨[], rest, rfl, rfl, later⟩
      next => exact .inr (itemsAhead_of_valueAhead (valueAhead_of_begin stepped later))
  | firstKey =>
      dsimp only at stepped
      split at stepped
      next brace =>
        cases stepped
        obtain rfl := eq_of_beq brace
        exact .inl ⟨[], rest, rfl, rfl, later⟩
      next =>
        split at stepped
        next quote =>
          cases stepped
          obtain rfl := eq_of_beq quote
          obtain ⟨units, front, tail, rfl, spelled, ahead⟩ := later
          exact .inr (membersAhead_of_colonAhead spelled ahead)
        next => cases stepped
  | nextKey before =>
      dsimp only at stepped
      split at stepped
      next quote =>
        cases stepped
        obtain rfl := eq_of_beq quote
        obtain ⟨units, front, tail, rfl, spelled, ahead⟩ := later
        exact membersAhead_of_colonAhead spelled ahead
      next => cases stepped
  | beforeColon before key =>
      dsimp only at stepped
      split at stepped
      next colon =>
        cases stepped
        obtain rfl := eq_of_beq colon
        exact ⟨[], rest, rfl, rfl, later⟩
      next => cases stepped
  | afterValue value => exact finishes_of_stepAfter stepped later
  | word letters value => exact continues_of_stepWord stepped later
  | number before => exact continues_of_stepNumber stepped later
  | string role escape before => exact continues_of_stepString stepped later

end Step

theorem continues_of_finish {whole : Value} {frames : List Frame} {state : State}
    (finished : Reader.finish ⟨frames, state⟩ = some whole) : Continues whole frames [] state := by
  unfold finish at finished
  split at finished
  next value empty same =>
    cases finished
    cases empty
    cases same
    exact ⟨rfl, rfl⟩
  next before empty same =>
    cases empty
    cases same
    split at finished
    next literal =>
      cases finished
      have spelled := Number.spelled_of_isLiteral literal
      exact ⟨[], [], rfl, by simpa using spelled, rfl, by simp⟩
    next => cases finished
  next => cases finished

theorem continues_of_read {whole : Value} {frames : List Frame} {state : State}
    {text : List Char}
    (read : (Reader.read ⟨frames, state⟩ text).bind finish = some whole) :
    Continues whole frames text state := by
  induction text generalizing frames state with
  | nil => exact continues_of_finish read
  | cons c rest ih =>
      rw [read_cons, Option.bind_assoc] at read
      obtain ⟨next, stepped, later⟩ := Option.bind_eq_some_iff.mp read
      exact continues_of_step stepped (ih later)

end Reader

theorem parse?_eq_some_iff {text : List Char} {value : Value} :
    parse? text = some value ↔ Spelled (.value value) text := by
  constructor
  · intro read
    obtain ⟨found, front, tail, rfl, spelled, blanks, rfl⟩ := Reader.continues_of_read read
    exact spelled_append_blanks spelled blanks
  · exact parse?_of_spelled

end LS8.Json
