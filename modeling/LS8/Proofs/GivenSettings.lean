import LS8.Proofs.Acceptance
import LS8.Proofs.Records

set_option autoImplicit false

namespace LS8

namespace Json

inductive Kind
  | null
  | bool
  | number
  | string
  | array
  | object
  deriving DecidableEq

def Value.kind : Value → Kind
  | .null => .null
  | .bool _ => .bool
  | .number _ => .number
  | .string _ => .string
  | .array _ => .array
  | .object _ => .object

end Json

namespace Settings

open Json

inductive WritesFlag : Bool → Value → Prop
  | intro (holds : Bool) : WritesFlag holds (.bool holds)

inductive WritesByte : UInt8 → Value → Prop
  | intro (byte : UInt8) : WritesByte byte (.number (Nat.toDigits 10 byte.toNat))

def spellings : StackPlacement → List String
  | .growable => ["Growable", "growable", "GROWABLE"]
  | .ram => ["Ram", "ram", "RAM"]

inductive WritesPlacement (placement : StackPlacement) : Value → Prop
  | name {name : String} (known : name ∈ spellings placement) :
      WritesPlacement placement (.string (.ofString name))
  | key {name : String} (known : name ∈ spellings placement) :
      WritesPlacement placement (.object [(.ofString name, .null)])

def Finds {α γ : Type} (read : Value → Option γ) (writes : α → Value → Prop) (view : α → γ) :
    Prop :=
  ∀ value : Value, value.Spellable →
    ∀ result, read value = some result ↔ ∃ given, writes given value ∧ view given = result

theorem finds_flag : Finds flag? WritesFlag id := by
  intro value _ result
  constructor
  · intro reads
    unfold flag? at reads
    split at reads
    · cases reads
      exact ⟨_, .intro _, rfl⟩
    · cases reads
  · rintro ⟨_, ⟨⟩, rfl⟩
    rfl

theorem finds_byte : Finds byte? WritesByte id := by
  rintro value ⟨text, spelled⟩ result
  constructor
  · intro reads
    unfold byte? at reads
    split at reads
    · next literal =>
        have literal : Number.Spelled literal := partsSpelled_of_spelled spelled
        obtain ⟨n, reads, fits⟩ := Option.bind_eq_some_iff.mp reads
        obtain rfl := (Number.natural?_eq_some_iff literal).mp reads
        split at fits
        · next small =>
            cases fits
            refine ⟨.ofNat n, ?_, rfl⟩
            have same : (UInt8.ofNat n).toNat = n := UInt8.toNat_ofNat_of_lt small
            have writes := WritesByte.intro (.ofNat n)
            rwa [same] at writes
        · cases fits
    · cases reads
  · rintro ⟨byte, ⟨⟩, rfl⟩
    simp [byte?, Number.natural?_toDigits, byte.toNat_lt]

theorem placementNamed?_eq_some_iff {name : String} {placement : StackPlacement} :
    placementNamed? name = some placement ↔ name ∈ spellings placement := by
  unfold placementNamed?
  split <;> cases placement <;> simp_all [spellings]

theorem finds_placement : Finds placement? WritesPlacement id := by
  intro value _ result
  constructor
  · intro reads
    unfold placement? at reads
    split at reads
    · obtain ⟨name, same, known⟩ := Option.bind_eq_some_iff.mp reads
      obtain rfl := Units.text?_eq_some_iff.mp same
      exact ⟨result, .name (placementNamed?_eq_some_iff.mp known), rfl⟩
    · obtain ⟨name, same, known⟩ := Option.bind_eq_some_iff.mp reads
      obtain rfl := Units.text?_eq_some_iff.mp same
      exact ⟨result, .key (placementNamed?_eq_some_iff.mp known), rfl⟩
    · cases reads
  · rintro ⟨_, known | known, rfl⟩
    · simp [placement?, Units.text?_ofString, placementNamed?_eq_some_iff.mpr known]
    · simp [placement?, Units.text?_ofString, placementNamed?_eq_some_iff.mpr known]

theorem field_eq_some_iff {α γ : Type} {read : Value → Option γ} {writes : α → Value → Prop}
    {view : α → γ} (finds : Finds read writes view) {value? : Option Value}
    (spellable : ∀ value ∈ value?, value.Spellable) {default result : γ} :
    field read default value? = some result ↔
      ∃ given, Option.Rel writes given value? ∧ (given.map view).getD default = result := by
  cases value? with
  | none =>
      constructor
      · rintro ⟨rfl⟩
        exact ⟨none, .none, rfl⟩
      · rintro ⟨_, ⟨⟩, rfl⟩
        rfl
  | some value =>
      rw [field, finds value (spellable value rfl)]
      constructor
      · rintro ⟨given, written, rfl⟩
        exact ⟨some given, .some written, rfl⟩
      · rintro ⟨_, ⟨written⟩, rfl⟩
        exact ⟨_, written, rfl⟩

def WritesFields {α β : Type} (first second : String) (writesFirst : α → Value → Prop)
    (writesSecond : β → Value → Prop) (left : Option α) (right : Option β) (value : Value) : Prop :=
  ∃ leftValue rightValue,
    GivesFields first second leftValue rightValue value ∧
    Option.Rel writesFirst left leftValue ∧ Option.Rel writesSecond right rightValue

-- The second field may be read in view of what the first one came to.
theorem fields_iff {α β γ δ : Type} {first second : String} {readFirst : Value → Option γ}
    {readSecond : γ → Value → Option δ} {writesFirst : α → Value → Prop}
    {writesSecond : β → Value → Prop} {viewFirst : α → γ} {viewSecond : γ → β → δ}
    (findsFirst : Finds readFirst writesFirst viewFirst)
    (findsSecond : ∀ found, Finds (readSecond found) writesSecond (viewSecond found))
    {value : Value} (spellable : value.Spellable) {default : γ} {defaultSecond : γ → δ}
    {done : γ → δ → Prop} :
    (∃ fields, twoFields first second value = some fields ∧
      ∃ found, field readFirst default fields.1 = some found ∧
      ∃ last, field (readSecond found) (defaultSecond found) fields.2 = some last ∧
        done found last) ↔
    ∃ left right, WritesFields first second writesFirst writesSecond left right value ∧
      let found := (left.map viewFirst).getD default
      done found ((right.map (viewSecond found)).getD (defaultSecond found)) := by
  constructor
  · rintro ⟨⟨leftValue, rightValue⟩, both, found, readsLeft, last, readsRight, concluded⟩
    have gives := twoFields_eq_some_iff.mp both
    obtain ⟨spellableLeft, spellableRight⟩ := gives.spellable spellable
    obtain ⟨left, writesLeft, rfl⟩ := (field_eq_some_iff findsFirst spellableLeft).mp readsLeft
    obtain ⟨right, writesRight, rfl⟩ :=
      (field_eq_some_iff (findsSecond _) spellableRight).mp readsRight
    exact ⟨left, right, ⟨_, _, gives, writesLeft, writesRight⟩, concluded⟩
  · rintro ⟨left, right, ⟨leftValue, rightValue, gives, writesLeft, writesRight⟩, concluded⟩
    obtain ⟨spellableLeft, spellableRight⟩ := gives.spellable spellable
    exact ⟨_, twoFields_eq_some_iff.mpr gives,
      _, (field_eq_some_iff findsFirst spellableLeft).mpr ⟨left, writesLeft, rfl⟩,
      _, (field_eq_some_iff (findsSecond _) spellableRight).mpr ⟨right, writesRight, rfl⟩,
      concluded⟩

structure GivenGeneral where
  traceInstructions : Option Bool
  startPc : Option UInt8

structure GivenMemory where
  placement : Option StackPlacement
  stackTop : Option UInt8

structure Given where
  general : Option GivenGeneral
  memory : Option GivenMemory

def GivenGeneral.Writes (given : GivenGeneral) : Value → Prop :=
  WritesFields "trace_instructions" "start_pc" WritesFlag WritesByte given.traceInstructions
    given.startPc

def GivenMemory.Writes (given : GivenMemory) : Value → Prop :=
  WritesFields "stack" "stack_top" WritesPlacement WritesByte given.placement given.stackTop

def Given.Writes (given : Given) : Value → Prop :=
  WritesFields "general" "memory" GivenGeneral.Writes GivenMemory.Writes given.general given.memory

def Given.settings (given : Given) : Settings where
  traceInstructions := (given.general.bind (·.traceInstructions)).getD false
  startPc := (given.general.bind (·.startPc)).getD 0
  placement := (given.memory.bind (·.placement)).getD .growable
  stackTop := (given.memory.bind (·.stackTop)).getD 0xF4

def GivenGeneral.onto (settings : Settings) (given : GivenGeneral) : Settings :=
  { settings with
    traceInstructions := given.traceInstructions.getD settings.traceInstructions
    startPc := given.startPc.getD settings.startPc }

def GivenMemory.onto (settings : Settings) (given : GivenMemory) : Settings :=
  { settings with
    placement := given.placement.getD settings.placement
    stackTop := given.stackTop.getD settings.stackTop }

theorem finds_general (settings : Settings) :
    Finds (general? settings) GivenGeneral.Writes (GivenGeneral.onto settings) := by
  intro value spellable result
  simp only [general?, Option.bind_eq_bind, Option.bind_eq_some_iff, Option.pure_def,
    Option.some.injEq]
  rw [fields_iff finds_flag (fun _ => finds_byte) spellable]
  constructor
  · rintro ⟨trace, start, writes, rfl⟩
    exact ⟨⟨trace, start⟩, writes, by simp [GivenGeneral.onto]⟩
  · rintro ⟨⟨trace, start⟩, writes, rfl⟩
    exact ⟨trace, start, writes, by simp [GivenGeneral.onto]⟩

theorem finds_memory (settings : Settings) :
    Finds (memory? settings) GivenMemory.Writes (GivenMemory.onto settings) := by
  intro value spellable result
  simp only [memory?, Option.bind_eq_bind, Option.bind_eq_some_iff, Option.pure_def,
    Option.some.injEq]
  rw [fields_iff finds_placement (fun _ => finds_byte) spellable]
  constructor
  · rintro ⟨placement, top, writes, rfl⟩
    exact ⟨⟨placement, top⟩, writes, by simp [GivenMemory.onto]⟩
  · rintro ⟨⟨placement, top⟩, writes, rfl⟩
    exact ⟨placement, top, writes, by simp [GivenMemory.onto]⟩

theorem Given.settings_eq (general : Option GivenGeneral) (memory : Option GivenMemory) :
    Given.settings ⟨general, memory⟩ =
      let settings := (general.map (GivenGeneral.onto {})).getD {}
      (memory.map (GivenMemory.onto settings)).getD settings := by
  cases general <;> cases memory <;> rfl

theorem finds_settings : Finds ofValue? Given.Writes Given.settings := by
  intro value spellable settings
  have reads : ofValue? value = some settings ↔
      ∃ fields, twoFields "general" "memory" value = some fields ∧
        ∃ found, field (general? {}) {} fields.1 = some found ∧
        ∃ last, field (memory? found) found fields.2 = some last ∧ last = settings := by
    simp only [ofValue?, Option.bind_eq_bind, Option.bind_eq_some_iff, exists_eq_right]
  rw [reads, fields_iff (finds_general {}) finds_memory spellable]
  constructor
  · rintro ⟨general, memory, writes, rfl⟩
    exact ⟨⟨general, memory⟩, writes, Given.settings_eq general memory⟩
  · rintro ⟨⟨general, memory⟩, writes, rfl⟩
    exact ⟨general, memory, writes, (Given.settings_eq general memory).symm⟩

theorem parse?_eq_some_iff {text : String} {settings : Settings} :
    parse? text = some settings ↔
      ∃ value, Spelled (.value value) text.toList ∧
        ∃ given : Given, given.Writes value ∧ given.settings = settings := by
  rw [parse?, Option.bind_eq_some_iff]
  refine exists_congr fun value => ?_
  rw [Json.parse?_eq_some_iff]
  exact and_congr_right fun spelled => finds_settings value ⟨_, spelled⟩ settings

inductive DefectiveFields (first second : String) (defectiveFirst defectiveSecond : Value → Prop) :
    Value → Prop
  | kind {value : Value} (notObject : value.kind ≠ .object) (notArray : value.kind ≠ .array) :
      DefectiveFields first second defectiveFirst defectiveSecond value
  | repeated {members : List (Units × Value)} {key : String} (known : key = first ∨ key = second)
      (twice : 2 ≤ (members.map Prod.fst).count (.ofString key)) :
      DefectiveFields first second defectiveFirst defectiveSecond (.object members)
  | extra {items : List Value} (more : 2 < items.length) :
      DefectiveFields first second defectiveFirst defectiveSecond (.array items)
  | first {members : List (Units × Value)} {value : Value}
      (given : (.ofString first, value) ∈ members) (defective : defectiveFirst value) :
      DefectiveFields first second defectiveFirst defectiveSecond (.object members)
  | second {members : List (Units × Value)} {value : Value}
      (given : (.ofString second, value) ∈ members) (defective : defectiveSecond value) :
      DefectiveFields first second defectiveFirst defectiveSecond (.object members)
  | firstItem {value : Value} {rest : List Value} (defective : defectiveFirst value) :
      DefectiveFields first second defectiveFirst defectiveSecond (.array (value :: rest))
  | secondItem {before value : Value} {rest : List Value} (defective : defectiveSecond value) :
      DefectiveFields first second defectiveFirst defectiveSecond (.array (before :: value :: rest))

def DefectiveFlag (value : Value) : Prop :=
  value.kind ≠ .bool

/-- A sign, a fraction or an exponent is no digit, whatever number they make. -/
inductive DefectiveByte : Value → Prop
  | kind {value : Value} (notNumber : value.kind ≠ .number) : DefectiveByte value
  | notPlain {literal : List Char} {c : Char} (part : c ∈ literal) (notDigit : c.isDigit = false) :
      DefectiveByte (.number literal)
  | outside {n : Nat} (large : 255 < n) : DefectiveByte (.number (Nat.toDigits 10 n))

def DefectivePlacement (value : Value) : Prop :=
  value.kind ≠ .string ∧ value.kind ≠ .object

def DefectiveGeneral : Value → Prop :=
  DefectiveFields "trace_instructions" "start_pc" DefectiveFlag DefectiveByte

def DefectiveMemory : Value → Prop :=
  DefectiveFields "stack" "stack_top" DefectivePlacement DefectiveByte

def Defective : Value → Prop :=
  DefectiveFields "general" "memory" DefectiveGeneral DefectiveMemory

theorem Gives.count_le_one {key : String} {members : List (Units × Value)} {value? : Option Value}
    (gives : Gives key members value?) : (members.map Prod.fst).count (.ofString key) ≤ 1 := by
  have none {members : List (Units × Value)}
      (others : ∀ member ∈ members, member.1 ≠ .ofString key) :
      (members.map Prod.fst).count (.ofString key) = 0 := by
    rw [List.count_eq_zero, List.mem_map]
    rintro ⟨member, inside, same⟩
    exact others member inside same
  cases gives with
  | absent others => simp [none others]
  | present others =>
      rw [List.forall_mem_append] at others
      simp [List.count_append, none others.1, none others.2]

theorem Gives.eq_of_mem {key : String} {members : List (Units × Value)} {value? : Option Value}
    {value : Value} (gives : Gives key members value?)
    (given : (.ofString key, value) ∈ members) : value? = some value := by
  cases gives with
  | absent others => exact absurd rfl (others _ given)
  | present others =>
      rw [List.forall_mem_append] at others
      rcases List.mem_append.mp given with before | here
      · exact absurd rfl (others.1 _ before)
      · rcases List.mem_cons.mp here with same | after
        · cases same
          rfl
        · exact absurd rfl (others.2 _ after)

theorem not_defectiveFields_of_writes {α β : Type} {first second : String}
    {writesFirst : α → Value → Prop} {writesSecond : β → Value → Prop}
    {defectiveFirst defectiveSecond : Value → Prop}
    (apartFirst : ∀ given value, writesFirst given value → ¬defectiveFirst value)
    (apartSecond : ∀ given value, writesSecond given value → ¬defectiveSecond value)
    {left : Option α} {right : Option β} {value : Value}
    (writes : WritesFields first second writesFirst writesSecond left right value) :
    ¬DefectiveFields first second defectiveFirst defectiveSecond value := by
  obtain ⟨leftValue, rightValue, gives, writesLeft, writesRight⟩ := writes
  have soundLeft (value : Value) (given : leftValue = some value) : ¬defectiveFirst value := by
    subst given
    cases writesLeft with
    | some writes => exact apartFirst _ value writes
  have soundRight (value : Value) (given : rightValue = some value) : ¬defectiveSecond value := by
    subst given
    cases writesRight with
    | some writes => exact apartSecond _ value writes
  intro defective
  cases defective with
  | kind notObject notArray =>
      cases gives with
      | object keys givesLeft givesRight => exact notObject rfl
      | nothing | first | both => exact notArray rfl
  | repeated known twice =>
      obtain ⟨keys, givesLeft, givesRight⟩ := gives
      rcases known with rfl | rfl
      · exact Nat.not_le.mpr twice givesLeft.count_le_one
      · exact Nat.not_le.mpr twice givesRight.count_le_one
  | extra more => cases gives <;> simp at more
  | first given defective =>
      obtain ⟨keys, givesLeft, givesRight⟩ := gives
      exact soundLeft _ (givesLeft.eq_of_mem given) defective
  | second given defective =>
      obtain ⟨keys, givesLeft, givesRight⟩ := gives
      exact soundRight _ (givesRight.eq_of_mem given) defective
  | firstItem defective => cases gives <;> exact soundLeft _ rfl defective
  | secondItem defective =>
      cases gives
      exact soundRight _ rfl defective

theorem not_defectiveFlag_of_writes (holds : Bool) (value : Value)
    (writes : WritesFlag holds value) : ¬DefectiveFlag value := by
  cases writes
  exact not_not_intro rfl

theorem not_defectiveByte_of_writes (byte : UInt8) (value : Value)
    (writes : WritesByte byte value) : ¬DefectiveByte value := by
  obtain ⟨byte⟩ := writes
  generalize numeral : Value.number (Nat.toDigits 10 byte.toNat) = value
  rintro (notNumber | ⟨part, notDigit⟩ | large)
  · subst numeral
    exact notNumber rfl
  · cases numeral
    simp [Nat.isDigit_of_mem_toDigits (by decide) (by decide) part] at notDigit
  · injection numeral with same
    have equal := congrArg Number.natural? same
    simp only [Number.natural?_toDigits, Option.some.injEq] at equal
    exact absurd byte.toNat_lt (by omega)

theorem not_defectivePlacement_of_writes (placement : StackPlacement) (value : Value)
    (writes : WritesPlacement placement value) : ¬DefectivePlacement value := by
  rintro ⟨notString, notObject⟩
  cases writes with
  | name known => exact notString rfl
  | key known => exact notObject rfl

theorem not_defectiveGeneral_of_writes (given : GivenGeneral) (value : Value)
    (writes : given.Writes value) : ¬DefectiveGeneral value :=
  not_defectiveFields_of_writes not_defectiveFlag_of_writes not_defectiveByte_of_writes writes

theorem not_defectiveMemory_of_writes (given : GivenMemory) (value : Value)
    (writes : given.Writes value) : ¬DefectiveMemory value :=
  not_defectiveFields_of_writes not_defectivePlacement_of_writes not_defectiveByte_of_writes writes

theorem not_defective_of_writes {given : Given} {value : Value} (writes : given.Writes value) :
    ¬Defective value :=
  not_defectiveFields_of_writes not_defectiveGeneral_of_writes not_defectiveMemory_of_writes writes

theorem parse?_exact {value : Value} {text : String}
    (spelled : Spelled (.value value) text.toList) :
    (∀ settings, parse? text = some settings ↔
      ∃ given : Given, given.Writes value ∧ given.settings = settings) ∧
    (Defective value → parse? text = none) := by
  have reads (settings : Settings) : parse? text = some settings ↔
      ∃ given : Given, given.Writes value ∧ given.settings = settings := by
    rw [parse?, parse?_of_spelled spelled]
    exact finds_settings value ⟨_, spelled⟩ settings
  refine ⟨reads, fun defective => ?_⟩
  rw [Option.eq_none_iff_forall_ne_some]
  intro settings read
  obtain ⟨given, writes, -⟩ := (reads settings).mp read
  exact not_defective_of_writes writes defective

-- An array holds the first section, an object with an unknown key and one that has an escape.
theorem parse?_exact_of_escaped_key :
    let text := "[\x7b\"x\":null, \"start_p\\u0063\":7\x7d]"
    parse? text = some { startPc := 7 } ∧ parse? "[null]" = none := by
  intro text
  have unit : SpelledUnits [0x63] ['\\', 'u', '0', '0', '6', '3'] := by
    have spelled (first : HexDigit 0 '0') (third : HexDigit 6 '6') (fourth : HexDigit 3 '3') :=
      SpelledUnits.coded ⟨first, first, third, fourth⟩ .nothing
    exact spelled ⟨by decide, .inl rfl⟩ ⟨by decide, .inl rfl⟩ ⟨by decide, .inl rfl⟩
  have escaped : SpelledUnits (.ofString "start_pc")
      ['s', 't', 'a', 'r', 't', '_', 'p', '\\', 'u', '0', '0', '6', '3'] := by
    have start : SpelledUnits _ ['s', 't', 'a', 'r', 't', '_', 'p'] :=
      spelledUnits_plain (by simp)
    have same : Units.ofString "start_pc" =
        ['s', 't', 'a', 'r', 't', '_', 'p'].flatMap Units.ofChar ++ [0x63] := by
      decide +kernel
    rw [same]
    exact start.append unit
  have plain : SpelledUnits (.ofString "x") ['x'] := by
    have same : Units.ofString "x" = ['x'].flatMap Units.ofChar := by decide +kernel
    rw [same]
    exact spelledUnits_plain (by simp)
  have whole : Number.SpelledInteger ['7'] := .leading (by decide) ⟨nofun, rfl⟩
  have number : Spelled (.value (.number ['7'])) ['7'] :=
    .number (.intro (.inl rfl) whole .absent .absent)
  have tight : Blanks [] := rfl
  have spaced : Blanks [' '] := rfl
  have unknown := Spelled.member tight plain tight .null
  have known := Spelled.member spaced escaped tight number
  have spelled := Spelled.array (.lastItem (.object (.members unknown (.lastMember known))))
  let members : List (Units × Value) :=
    [(.ofString "x", .null)] ++ (.ofString "start_pc", .number ['7']) :: []
  have spelledText : Spelled (.value (.array [.object members])) text.toList := by
    refine Eq.mp (congrArg (Spelled _) ?_) spelled
    decide +kernel
  have gives : GivesFields "trace_instructions" "start_pc" none (some (.number ['7']))
      (.object members) := by
    have keys := exists_coded_iff.mp ⟨[("x", .null), ("start_pc", .number ['7'])], rfl⟩
    refine .object keys (.absent ?_) (.present ?_)
    all_goals simp [Units.ofString_injective.eq_iff, members]
  constructor
  · apply ((parse?_exact spelledText).1 _).mpr
    refine ⟨⟨some ⟨none, some 7⟩, none⟩, ?_, rfl⟩
    exact ⟨_, _, .first, .some ⟨_, _, gives, .none, .some (.intro 7)⟩, .none⟩
  · have nothing : Spelled (.value (.array [.null])) "[null]".toList := by
      simpa using Spelled.array (.lastItem .null)
    exact (parse?_exact nothing).2 (.firstItem (.kind (by decide) (by decide)))

end Settings

end LS8
