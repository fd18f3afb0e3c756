import Mathlib.Data.List.Basic
import Mathlib.Data.List.Induction
import Mathlib.Data.Nat.Digits.Defs
import LS8.Json.Reading

set_option autoImplicit false

namespace LS8.Json

namespace Number

def Digits (digits : List Char) : Prop :=
  digits ≠ [] ∧ digits.all Char.isDigit = true

inductive SpelledInteger : List Char → Prop
  | zero : SpelledInteger ['0']
  | leading {first : Char} {rest : List Char} (nonzero : first ≠ '0')
      (digits : Digits (first :: rest)) : SpelledInteger (first :: rest)

inductive SpelledFraction : List Char → Prop
  | absent : SpelledFraction []
  | digits {digits : List Char} (given : Digits digits) : SpelledFraction ('.' :: digits)

inductive SpelledExponent : List Char → Prop
  | absent : SpelledExponent []
  | digits {mark : Char} {sign digits : List Char} (marked : mark = 'e' ∨ mark = 'E')
      (signed : sign = [] ∨ sign = ['+'] ∨ sign = ['-']) (given : Digits digits) :
      SpelledExponent (mark :: (sign ++ digits))

inductive Spelled : List Char → Prop
  | intro {sign integer fraction exponent : List Char} (signed : sign = [] ∨ sign = ['-'])
      (whole : SpelledInteger integer) (part : SpelledFraction fraction)
      (scale : SpelledExponent exponent) : Spelled (sign ++ (integer ++ (fraction ++ exponent)))

theorem afterDigits_append {digits rest : List Char} (given : Digits digits)
    (stops : ∀ c ∈ rest.head?, c.isDigit = false) : afterDigits (digits ++ rest) = some rest := by
  have all : ∀ c ∈ digits, c.isDigit = true := by simpa using given.2
  have left : rest.dropWhile Char.isDigit = rest := by
    cases rest with
    | nil => rfl
    | cons c rest => exact List.dropWhile_cons_of_neg (by simpa using stops c rfl)
  rw [afterDigits, List.takeWhile_append_of_pos all, List.dropWhile_append_of_pos all, left]
  simp [given.1]

theorem Digits.isDigit_head {digits : List Char} (given : Digits digits) {c : Char}
    (first : c ∈ digits.head?) : c.isDigit = true :=
  List.all_eq_true.mp given.2 c (List.mem_of_mem_head? first)

theorem SpelledInteger.digits {integer : List Char} (spelled : SpelledInteger integer) :
    Digits integer := by
  cases spelled with
  | zero => exact ⟨nofun, rfl⟩
  | leading nonzero digits => exact digits

theorem afterInteger_append {integer rest : List Char} (spelled : SpelledInteger integer)
    (stops : ∀ c ∈ rest.head?, c.isDigit = false) : afterInteger (integer ++ rest) = some rest := by
  cases spelled with
  | zero => rfl
  | leading nonzero digits =>
      rw [← afterDigits_append digits stops, List.cons_append]
      unfold afterInteger
      split
      next zero => cases zero; exact absurd rfl nonzero
      next => rfl

theorem afterSign_digits {literal : List Char}
    (unsigned : ∀ c ∈ literal.head?, c.isDigit = true) : afterSign literal = literal := by
  unfold afterSign
  split
  next => exact absurd (unsigned '-' rfl) (by decide)
  next => rfl

theorem afterExponentSign_digits {literal : List Char}
    (unsigned : ∀ c ∈ literal.head?, c.isDigit = true) : afterExponentSign literal = literal := by
  unfold afterExponentSign
  split
  next => exact absurd (unsigned '+' rfl) (by decide)
  next => exact absurd (unsigned '-' rfl) (by decide)
  next => rfl

theorem SpelledExponent.head {exponent : List Char} (spelled : SpelledExponent exponent) {c : Char}
    (first : c ∈ exponent.head?) : c = 'e' ∨ c = 'E' := by
  cases spelled with
  | absent => cases first
  | digits marked signed given =>
      cases first
      exact marked

theorem afterExponent_spelled {exponent : List Char} (spelled : SpelledExponent exponent) :
    afterExponent exponent = some [] := by
  cases spelled with
  | absent => rfl
  | @digits mark sign digits marked signed given =>
      have unsigned : afterExponentSign (sign ++ digits) = digits := by
        rcases signed with rfl | rfl | rfl
        · exact afterExponentSign_digits fun _ => given.isDigit_head
        · rfl
        · rfl
      have stops : ∀ c ∈ ([] : List Char).head?, c.isDigit = false := nofun
      have ended : afterDigits digits = some [] := by
        simpa using afterDigits_append given stops
      rcases marked with rfl | rfl <;> rw [afterExponent, unsigned, ended]

theorem afterFraction_append {fraction exponent : List Char} (part : SpelledFraction fraction)
    (scale : SpelledExponent exponent) : afterFraction (fraction ++ exponent) = some exponent := by
  cases part with
  | absent =>
      cases scale with
      | absent => rfl
      | digits marked signed given => rcases marked with rfl | rfl <;> rfl
  | digits given =>
      apply afterDigits_append given
      intro c first
      rcases scale.head first with rfl | rfl <;> decide

theorem isLiteral_of_spelled {literal : List Char} (spelled : Spelled literal) :
    isLiteral literal = true := by
  obtain @⟨sign, integer, fraction, exponent, signed, whole, part, scale⟩ := spelled
  have unsigned : afterSign (sign ++ (integer ++ (fraction ++ exponent))) =
      integer ++ (fraction ++ exponent) := by
    rcases signed with rfl | rfl
    · apply afterSign_digits
      intro c first
      rw [List.nil_append, List.head?_append_of_ne_nil _ whole.digits.1] at first
      exact whole.digits.isDigit_head first
    · rfl
  have stops : ∀ c ∈ (fraction ++ exponent).head?, c.isDigit = false := by
    intro c first
    cases part with
    | absent => rcases scale.head first with rfl | rfl <;> decide
    | digits given =>
        cases first
        decide
  rw [isLiteral, unsigned, afterInteger_append whole stops, Option.bind_some,
    afterFraction_append part scale, Option.bind_some, afterExponent_spelled scale]
  rfl

theorem Spelled.exists_cons {literal : List Char} (spelled : Spelled literal) :
    ∃ c rest, literal = c :: rest := by
  obtain ⟨-, whole, -, -⟩ := spelled
  apply List.exists_cons_of_ne_nil
  simp [whole.digits.1]

theorem Digits.parts {digits : List Char} (given : Digits digits) : digits.all isPart = true := by
  rw [List.all_eq_true]
  intro c member
  simp [isPart, List.all_eq_true.mp given.2 c member]

theorem isPart_of_spelled {literal : List Char} (spelled : Spelled literal) :
    literal.all isPart = true := by
  obtain ⟨signed, whole, part, scale⟩ := spelled
  simp only [List.all_append, Bool.and_eq_true]
  refine ⟨?_, whole.digits.parts, ?_, ?_⟩
  · rcases signed with rfl | rfl <;> rfl
  · cases part with
    | absent => rfl
    | digits given => rw [List.all_cons, given.parts]; rfl
  · cases scale with
    | absent => rfl
    | digits marked signed given =>
        rw [List.all_cons, List.all_append, given.parts]
        rcases marked with rfl | rfl <;> rcases signed with rfl | rfl | rfl <;> rfl

theorem natural?_toDigits (n : Nat) : natural? (Nat.toDigits 10 n) = some n := by
  have digits : (Nat.toDigits 10 n).all Char.isDigit = true := by
    rw [List.all_eq_true]
    exact fun c => Nat.isDigit_of_mem_toDigits (by decide) (by decide)
  rw [natural?, if_pos digits]
  exact congrArg some (Nat.ofDigitChars_toDigits (by decide) (by decide))

theorem digitChar_digitValue {c : Char} (digit : c.isDigit = true) :
    (digitValue c).digitChar = c ∧ digitValue c < 10 := by
  have known : ∀ code < 58, 48 ≤ code →
      (digitValue (Char.ofNat code)).digitChar = Char.ofNat code ∧
        digitValue (Char.ofNat code) < 10 := by
    decide
  simp only [Char.isDigit, Bool.and_eq_true, decide_eq_true_eq, UInt32.le_iff_toNat_le] at digit
  have is := known c.toNat (Nat.lt_succ_of_le digit.2) digit.1
  rwa [Char.ofNat_toNat] at is

theorem exists_toDigits_of_leading {first : Char} {rest : List Char} (nonzero : first ≠ '0')
    (digits : (first :: rest).all Char.isDigit = true) :
    ∃ n, 0 < n ∧ first :: rest = Nat.toDigits 10 n := by
  induction rest using List.reverseRecOn with
  | nil =>
      simp only [List.all_cons, Bool.and_eq_true] at digits
      obtain ⟨same, small⟩ := digitChar_digitValue digits.1
      refine ⟨digitValue first, ?_, ?_⟩
      · rw [Nat.pos_iff_ne_zero]
        intro zero
        rw [zero] at same
        exact nonzero same.symm
      · rw [Nat.toDigits_of_lt_base small, same]
  | append_singleton rest last ih =>
      simp only [← List.cons_append, List.all_append, Bool.and_eq_true] at digits
      obtain ⟨n, positive, numeral⟩ := ih digits.1
      obtain ⟨same, small⟩ := digitChar_digitValue (c := last) (by simpa using digits.2)
      refine ⟨10 * n + digitValue last, by omega, ?_⟩
      rw [← Nat.toDigits_append_toDigits (by decide) positive small, ← numeral,
        Nat.toDigits_of_lt_base small, same, List.cons_append]

theorem exists_toDigits {literal : List Char} (spelled : Spelled literal)
    (digits : literal.all Char.isDigit = true) : ∃ n, literal = Nat.toDigits 10 n := by
  obtain @⟨sign, integer, fraction, exponent, signed, whole, part, scale⟩ := spelled
  simp only [List.all_append, Bool.and_eq_true] at digits
  obtain ⟨noSign, digits, noPart, noScale⟩ := digits
  have unsigned : sign = [] := by
    rcases signed with rfl | rfl
    · rfl
    · cases noSign
  have integral : fraction = [] := by
    cases part with
    | absent => rfl
    | digits given => cases noPart
  have unscaled : exponent = [] := by
    cases scale with
    | absent => rfl
    | digits marked signed given => rcases marked with rfl | rfl <;> cases noScale
  subst unsigned integral unscaled
  rw [List.nil_append, List.append_nil, List.append_nil]
  cases whole with
  | zero => exact ⟨0, rfl⟩
  | leading nonzero _ =>
      obtain ⟨n, -, numeral⟩ := exists_toDigits_of_leading nonzero digits
      exact ⟨n, numeral⟩

theorem natural?_eq_some_iff {literal : List Char} (spelled : Spelled literal) {n : Nat} :
    natural? literal = some n ↔ literal = Nat.toDigits 10 n := by
  refine ⟨fun reads => ?_, fun same => same ▸ natural?_toDigits n⟩
  have digits : literal.all Char.isDigit = true := by
    unfold natural? at reads
    split at reads
    · assumption
    · cases reads
  obtain ⟨m, rfl⟩ := exists_toDigits spelled digits
  rw [natural?_toDigits] at reads
  cases reads
  rfl

end Number

def shortEscapes : List (Char × Char) :=
  [('"', '"'), ('\\', '\\'), ('/', '/'), ('b', '\x08'), ('f', '\x0C'), ('n', '\n'), ('r', '\r'),
    ('t', '\t')]

def HexDigit (value : Nat) (digit : Char) : Prop :=
  value < 16 ∧ (digit = value.digitChar ∨ digit = value.digitChar.toUpper)

inductive SpelledUnits : Units → List Char → Prop
  | nothing : SpelledUnits [] []
  | plain {c : Char} {units : Units} {text : List Char} (printable : 0x20 ≤ c.toNat)
      (notQuote : c ≠ '"') (notBackslash : c ≠ '\\') (more : SpelledUnits units text) :
      SpelledUnits (Units.ofChar c ++ units) (c :: text)
  | short {letter c : Char} {units : Units} {text : List Char} (stands : (letter, c) ∈ shortEscapes)
      (more : SpelledUnits units text) :
      SpelledUnits (Units.ofChar c ++ units) ('\\' :: letter :: text)
  | coded {first second third fourth : Nat} {a b c d : Char} {units : Units} {text : List Char}
      (digits : HexDigit first a ∧ HexDigit second b ∧ HexDigit third c ∧ HexDigit fourth d)
      (more : SpelledUnits units text) :
      SpelledUnits (.ofNat (((first * 16 + second) * 16 + third) * 16 + fourth) :: units)
        ('\\' :: 'u' :: a :: b :: c :: d :: text)

theorem SpelledUnits.append {units units' : Units} {text text' : List Char}
    (first : SpelledUnits units text) (rest : SpelledUnits units' text') :
    SpelledUnits (units ++ units') (text ++ text') := by
  induction first with
  | nothing => exact rest
  | plain printable notQuote notBackslash more ih =>
      rw [List.append_assoc]
      exact .plain printable notQuote notBackslash ih
  | short stands more ih =>
      rw [List.append_assoc]
      exact .short stands ih
  | coded digits more ih => exact .coded digits ih

theorem spelledUnits_plain {text : List Char}
    (plain : ∀ c ∈ text, 0x20 ≤ c.toNat ∧ c ≠ '"' ∧ c ≠ '\\') :
    SpelledUnits (text.flatMap Units.ofChar) text := by
  induction text with
  | nil => exact .nothing
  | cons c rest ih =>
      obtain ⟨⟨printable, notQuote, notBackslash⟩, later⟩ := List.forall_mem_cons.mp plain
      exact .plain printable notQuote notBackslash (ih later)

def Blanks (text : List Char) : Prop :=
  text.all isBlank = true

inductive Phrase
  | value (value : Value)
  | items (items : List Value)
  | member (key : Units) (value : Value)
  | members (members : List (Units × Value))

inductive Spelled : Phrase → List Char → Prop
  | null : Spelled (.value .null) ['n', 'u', 'l', 'l']
  | holds : Spelled (.value (.bool true)) ['t', 'r', 'u', 'e']
  | fails : Spelled (.value (.bool false)) ['f', 'a', 'l', 's', 'e']
  | number {literal : List Char} (spelled : Number.Spelled literal) :
      Spelled (.value (.number literal)) literal
  | string {units : Units} {text : List Char} (spelled : SpelledUnits units text) :
      Spelled (.value (.string units)) ('"' :: (text ++ ['"']))
  | emptyArray {between : List Char} (blank : Blanks between) :
      Spelled (.value (.array [])) ('[' :: (between ++ [']']))
  | array {items : List Value} {text : List Char} (inside : Spelled (.items items) text) :
      Spelled (.value (.array items)) ('[' :: (text ++ [']']))
  | emptyObject {between : List Char} (blank : Blanks between) :
      Spelled (.value (.object [])) ('{' :: (between ++ ['}']))
  | object {members : List (Units × Value)} {text : List Char}
      (inside : Spelled (.members members) text) :
      Spelled (.value (.object members)) ('{' :: (text ++ ['}']))
  | surrounded {value : Value} {before text after : List Char} (blankBefore : Blanks before)
      (spelled : Spelled (.value value) text) (blankAfter : Blanks after) :
      Spelled (.value value) (before ++ (text ++ after))
  | lastItem {item : Value} {text : List Char} (spelled : Spelled (.value item) text) :
      Spelled (.items [item]) text
  | item {item : Value} {items : List Value} {text rest : List Char}
      (spelled : Spelled (.value item) text) (more : Spelled (.items items) rest) :
      Spelled (.items (item :: items)) (text ++ ',' :: rest)
  | member {key : Units} {value : Value} {before name after text : List Char}
      (blankBefore : Blanks before) (named : SpelledUnits key name) (blankAfter : Blanks after)
      (spelled : Spelled (.value value) text) :
      Spelled (.member key value) (before ++ '"' :: (name ++ '"' :: (after ++ ':' :: text)))
  | lastMember {key : Units} {value : Value} {text : List Char}
      (spelled : Spelled (.member key value) text) : Spelled (.members [(key, value)]) text
  | members {key : Units} {value : Value} {members : List (Units × Value)} {text rest : List Char}
      (spelled : Spelled (.member key value) text) (more : Spelled (.members members) rest) :
      Spelled (.members ((key, value) :: members)) (text ++ ',' :: rest)

def Value.Spellable (value : Value) : Prop :=
  ∃ text, Spelled (.value value) text

def PartsSpelled : Phrase → Prop
  | .value (.number literal) => Number.Spelled literal
  | .value (.array inside) | .items inside => ∀ item ∈ inside, item.Spellable
  | .value (.object inside) | .members inside => ∀ member ∈ inside, member.2.Spellable
  | .member _ value => value.Spellable
  | .value _ => True

theorem partsSpelled_of_spelled {phrase : Phrase} {text : List Char}
    (spelled : Spelled phrase text) : PartsSpelled phrase := by
  induction spelled with
  | number spelled => exact spelled
  | emptyArray blank | emptyObject blank => exact nofun
  | array inside ih | object inside ih => exact ih
  | surrounded blankBefore spelled blankAfter ih => exact ih
  | lastItem spelled ih => exact List.forall_mem_singleton.mpr ⟨_, spelled⟩
  | lastMember spelled ih => exact List.forall_mem_singleton.mpr ih
  | item spelled more first rest => exact List.forall_mem_cons.mpr ⟨⟨_, spelled⟩, rest⟩
  | member blankBefore named blankAfter spelled ih => exact ⟨_, spelled⟩
  | members spelled more first rest => exact List.forall_mem_cons.mpr ⟨first, rest⟩
  | _ => trivial

namespace Reader

theorem hexDigit?_of_hexDigit {value : Nat} {digit : Char} (is : HexDigit value digit) :
    hexDigit? digit = some value := by
  have known : ∀ value < 16,
      hexDigit? value.digitChar = some value ∧
        hexDigit? value.digitChar.toUpper = some value := by
    decide
  rcases is with ⟨small, rfl | rfl⟩
  · exact (known value small).1
  · exact (known value small).2

theorem shortEscape?_of_mem {letter c : Char} (stands : (letter, c) ∈ shortEscapes) :
    (shortEscape? letter).map ([·]) = some (Units.ofChar c) ∧ letter ≠ 'u' := by
  have known : ∀ escape ∈ shortEscapes,
      (shortEscape? escape.1).map ([·]) = some (Units.ofChar escape.2) ∧ escape.1 ≠ 'u' := by
    decide
  exact known _ stands

theorem step_string (frames : List Frame) (role : StringRole) (escape : Escape) (before : Units)
    (c : Char) :
    Reader.step ⟨frames, .string role escape before⟩ c = stepString frames role before c escape :=
  rfl

theorem read_units {units : Units} {text : List Char} (spelled : SpelledUnits units text)
    (frames : List Frame) (role : StringRole) (before : Units) :
    Reader.read ⟨frames, .string role .none before⟩ text =
      some ⟨frames, .string role .none (units.reverse ++ before)⟩ := by
  induction spelled generalizing before with
  | nothing => rfl
  | plain printable notQuote notBackslash more ih =>
      have kept : ¬_ < 0x20 := Nat.not_lt.mpr printable
      simp [read_cons, step_string, stepString, notQuote, notBackslash, kept, ih]
  | short stands more ih =>
      obtain ⟨known, notUnicode⟩ := shortEscape?_of_mem stands
      obtain ⟨unit, found, same⟩ := Option.map_eq_some_iff.mp known
      simp [read_cons, step_string, stepString, notUnicode, found, ← same, ih]
  | coded digits more ih =>
      obtain ⟨a, b, c, d⟩ := digits
      simp [read_cons, step_string, stepString, hexDigit?_of_hexDigit a, hexDigit?_of_hexDigit b,
        hexDigit?_of_hexDigit c, hexDigit?_of_hexDigit d, ih, Nat.mul_comm 16]

theorem read_quoted {units : Units} {text : List Char} (spelled : SpelledUnits units text)
    (frames : List Frame) (role : StringRole) (rest : List Char) :
    Reader.read ⟨frames, beginString role⟩ (text ++ '"' :: rest) =
      (closeString frames role units).read rest := by
  rw [beginString, read_append, read_units spelled, Option.bind_some, read_cons, step_string]
  simp [stepString]

inductive Completed (value : Value) : State → Prop
  | after : Completed value (.afterValue value)
  | number {read : List Char} (literal : Number.isLiteral read.reverse = true)
      (same : value = .number read.reverse) : Completed value (.number read)

theorem isPart_of_isBlank {c : Char} (blank : isBlank c = true) : Number.isPart c = false := by
  simp only [isBlank, Bool.or_eq_true, beq_iff_eq] at blank
  rcases blank with ((rfl | rfl) | rfl) | rfl <;> decide

theorem visible_of_isPart {c : Char} (part : Number.isPart c = true) : isBlank c = false := by
  cases blank : isBlank c with
  | false => rfl
  | true => simp [isPart_of_isBlank blank] at part

theorem step_completed {value : Value} {state : State} (completed : Completed value state)
    (frames : List Frame) {c : Char} (apart : Number.isPart c = false) :
    Reader.step ⟨frames, state⟩ c = stepAfter frames value c := by
  cases completed with
  | after => rfl
  | number literal same =>
      subst same
      simp [step, State.skipsBlanks, stepNumber, apart, literal]

theorem step_separator {value : Value} {state : State} (completed : Completed value state)
    (frames : List Frame) {c : Char} (separates : c = ',' ∨ c = ']' ∨ c = '}') :
    Reader.step ⟨frames, state⟩ c = separate frames value c := by
  have apart : Number.isPart c = false ∧ isBlank c = false := by
    rcases separates with rfl | rfl | rfl <;> decide
  rw [step_completed completed frames apart.1, stepAfter, apart.2]
  rfl

theorem read_blanks {reader : Reader} {text : List Char} (blank : Blanks text)
    (stays : ∀ c, isBlank c = true → reader.step c = some reader) :
    reader.read text = some reader := by
  induction text with
  | nil => rfl
  | cons c rest ih =>
      simp only [Blanks, List.all_cons, Bool.and_eq_true] at blank
      rw [read_cons, stays c blank.1, Option.bind_some, ih blank.2]

theorem read_skipped {state : State} (skips : State.skipsBlanks state = true) (frames : List Frame)
    {text : List Char} (blank : Blanks text) :
    Reader.read ⟨frames, state⟩ text = some ⟨frames, state⟩ := by
  apply read_blanks blank
  intro c here
  simp [step, skips, here]

theorem read_behind {value : Value} {state : State} (completed : Completed value state)
    (frames : List Frame) {text : List Char} (blank : Blanks text) :
    ∃ next, Completed value next ∧ Reader.read ⟨frames, state⟩ text = some ⟨frames, next⟩ := by
  cases text with
  | nil => exact ⟨state, completed, rfl⟩
  | cons c rest =>
      simp only [Blanks, List.all_cons, Bool.and_eq_true] at blank
      have behind (c : Char) (here : isBlank c = true) :
          stepAfter frames value c = some ⟨frames, .afterValue value⟩ := by
        rw [stepAfter, if_pos here]
      refine ⟨.afterValue value, .after, ?_⟩
      rw [read_cons, step_completed completed frames (isPart_of_isBlank blank.1), behind c blank.1,
        Option.bind_some]
      exact read_blanks blank.2 behind

theorem beginValue_number {c : Char} (part : Number.isPart c = true) (frames : List Frame) :
    beginValue frames c = some ⟨frames, .number [c]⟩ := by
  unfold beginValue
  split
  case h_7 => rw [if_pos part]
  all_goals exact absurd part (by decide)

theorem read_parts {text : List Char} (parts : text.all Number.isPart = true)
    (frames : List Frame) (before : List Char) :
    Reader.read ⟨frames, .number before⟩ text =
      some ⟨frames, .number (text.reverse ++ before)⟩ := by
  induction text generalizing before with
  | nil => rfl
  | cons c rest ih =>
      simp only [List.all_cons, Bool.and_eq_true] at parts
      simp [read_cons, step, State.skipsBlanks, stepNumber, parts.1, ih parts.2]

theorem read_number {literal : List Char} (spelled : Number.Spelled literal)
    (frames : List Frame) :
    Reader.read ⟨frames, .beforeValue⟩ literal = some ⟨frames, .number literal.reverse⟩ := by
  obtain ⟨c, rest, rfl⟩ := spelled.exists_cons
  have parts := Number.isPart_of_spelled spelled
  simp only [List.all_cons, Bool.and_eq_true] at parts
  simp [read_cons, step, visible_of_isPart parts.1, beginValue_number parts.1, read_parts parts.2]

-- A phrase starts with a character that neither closes a bracket nor is skipped.
theorem exists_opening {phrase : Phrase} {text : List Char} (spelled : Spelled phrase text) :
    ∃ before c rest, text = before ++ c :: rest ∧ Blanks before ∧ isBlank c = false ∧
      c ≠ ']' ∧ c ≠ '}' := by
  induction spelled with
  | number spelled =>
      obtain ⟨c, rest, rfl⟩ := spelled.exists_cons
      have parts := Number.isPart_of_spelled spelled
      simp only [List.all_cons, Bool.and_eq_true] at parts
      refine ⟨[], c, rest, rfl, rfl, ?_, ?_, ?_⟩
      · exact visible_of_isPart parts.1
      · rintro rfl
        cases parts.1
      · rintro rfl
        cases parts.1
  | surrounded blankBefore spelled blankAfter ih =>
      obtain ⟨before, c, rest, rfl, blank, visible⟩ := ih
      refine ⟨_ ++ before, c, _, by simp only [List.append_assoc, List.cons_append]; rfl, ?_,
        visible⟩
      rw [Blanks, List.all_append, blankBefore, blank]
      rfl
  | member blankBefore named blankAfter spelled ih =>
      exact ⟨_, '"', _, rfl, blankBefore, by decide, by decide, by decide⟩
  | lastItem spelled ih => exact ih
  | lastMember spelled ih => exact ih
  | item spelled more first _ | members spelled more first _ =>
      obtain ⟨before, c, rest, rfl, opening⟩ := first
      exact ⟨before, c, _, by rw [List.append_assoc, List.cons_append], opening⟩
  | _ => exact ⟨[], _, _, rfl, rfl, by decide, by decide, by decide⟩

theorem read_firstItem {items : List Value} {text : List Char}
    (spelled : Spelled (.items items) text) (frames : List Frame) (rest : List Char) :
    Reader.read ⟨frames, .firstItem⟩ (text ++ rest) =
      Reader.read ⟨.array [] :: frames, .beforeValue⟩ (text ++ rest) := by
  obtain ⟨before, c, behind, rfl, blank, visible, inside, -⟩ := exists_opening spelled
  rw [List.append_assoc, read_append, read_append _ before, read_skipped rfl _ blank,
    read_skipped rfl _ blank]
  simp [read_cons, step, visible, inside]

theorem read_firstKey {members : List (Units × Value)} {text : List Char}
    (spelled : Spelled (.members members) text) (frames : List Frame) (rest : List Char) :
    Reader.read ⟨frames, .firstKey⟩ (text ++ rest) =
      Reader.read ⟨frames, .nextKey []⟩ (text ++ rest) := by
  obtain ⟨before, c, behind, rfl, blank, visible, -, inside⟩ := exists_opening spelled
  rw [List.append_assoc, read_append, read_append _ before, read_skipped rfl _ blank,
    read_skipped rfl _ blank]
  simp [read_cons, step, visible, inside]

def Reads : Phrase → List Char → Prop
  | .value value, text =>
      ∀ frames, ∃ state, Completed value state ∧
        Reader.read ⟨frames, .beforeValue⟩ text = some ⟨frames, state⟩
  | .items items, text =>
      ∀ frames before,
        Reader.read ⟨.array before :: frames, .beforeValue⟩ (text ++ [']']) =
          some ⟨frames, .afterValue (.array (before.reverse ++ items))⟩
  | .member key value, text =>
      ∀ frames before, ∃ state, Completed value state ∧
        Reader.read ⟨frames, .nextKey before⟩ text = some ⟨.object before key :: frames, state⟩
  | .members members, text =>
      ∀ frames before,
        Reader.read ⟨frames, .nextKey before⟩ (text ++ ['}']) =
          some ⟨frames, .afterValue (.object (before.reverse ++ members))⟩

theorem reads_of_spelled {phrase : Phrase} {text : List Char} (spelled : Spelled phrase text) :
    Reads phrase text := by
  induction spelled with
  | null => exact fun frames => ⟨_, .after, rfl⟩
  | holds => exact fun frames => ⟨_, .after, rfl⟩
  | fails => exact fun frames => ⟨_, .after, rfl⟩
  | number spelled =>
      intro frames
      refine ⟨_, .number ?_ ?_, read_number spelled frames⟩
      · rw [List.reverse_reverse]
        exact Number.isLiteral_of_spelled spelled
      · rw [List.reverse_reverse]
  | string spelled =>
      intro frames
      refine ⟨_, .after, ?_⟩
      rw [read_cons]
      exact read_quoted spelled frames .value []
  | emptyArray blank =>
      intro frames
      refine ⟨_, .after, ?_⟩
      rw [read_cons]
      change Reader.read ⟨frames, .firstItem⟩ _ = _
      rw [read_append, read_skipped rfl frames blank]
      rfl
  | array inside ih =>
      intro frames
      refine ⟨_, .after, ?_⟩
      rw [read_cons]
      exact (read_firstItem inside frames _).trans (ih frames [])
  | emptyObject blank =>
      intro frames
      refine ⟨_, .after, ?_⟩
      rw [read_cons]
      change Reader.read ⟨frames, .firstKey⟩ _ = _
      rw [read_append, read_skipped rfl frames blank]
      rfl
  | object inside ih =>
      intro frames
      refine ⟨_, .after, ?_⟩
      rw [read_cons]
      exact (read_firstKey inside frames _).trans (ih frames [])
  | surrounded blankBefore spelled blankAfter ih =>
      intro frames
      obtain ⟨state, completed, read⟩ := ih frames
      obtain ⟨next, still, behind⟩ := read_behind completed frames blankAfter
      refine ⟨next, still, ?_⟩
      rw [read_append, read_skipped rfl frames blankBefore, Option.bind_some, read_append, read,
        Option.bind_some, behind]
  | lastItem spelled ih =>
      intro frames before
      obtain ⟨state, completed, read⟩ := ih (.array before :: frames)
      rw [read_append, read, Option.bind_some, read_cons, step_separator completed _ (by simp)]
      simp [separate]
  | item spelled more first second =>
      intro frames before
      obtain ⟨state, completed, read⟩ := first (.array before :: frames)
      rw [List.append_assoc, read_append, read, Option.bind_some, List.cons_append, read_cons,
        step_separator completed _ (by simp)]
      simp [separate, second frames]
  | member blankBefore named blankAfter spelled ih =>
      intro frames before
      obtain ⟨state, completed, read⟩ := ih (.object before _ :: frames)
      refine ⟨state, completed, ?_⟩
      rw [read_append, read_skipped rfl frames blankBefore, Option.bind_some, read_cons]
      refine (read_quoted named frames (.key before) _).trans ?_
      rw [closeString, read_append, read_skipped rfl frames blankAfter, Option.bind_some, read_cons]
      exact read
  | lastMember spelled ih =>
      intro frames before
      obtain ⟨state, completed, read⟩ := ih frames before
      rw [read_append, read, Option.bind_some, read_cons, step_separator completed _ (by simp)]
      simp [separate]
  | members spelled more first second =>
      intro frames before
      obtain ⟨state, completed, read⟩ := first frames before
      rw [List.append_assoc, read_append, read, Option.bind_some, List.cons_append, read_cons,
        step_separator completed _ (by simp)]
      simp [separate, second frames]

end Reader

theorem parse?_of_spelled {value : Value} {text : List Char}
    (spelled : Spelled (.value value) text) : parse? text = some value := by
  obtain ⟨state, completed, read⟩ := Reader.reads_of_spelled spelled []
  rw [parse?, Reader.start, read, Option.bind_some]
  cases completed with
  | after => rfl
  | number literal same => simp [Reader.finish, literal, same]

end LS8.Json
