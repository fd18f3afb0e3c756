import LS8.Proofs.CodeUnits
import LS8.Proofs.Spelling
import LS8.Settings.Reading

set_option autoImplicit false

namespace LS8.Settings

open Json

inductive Gives (key : String) : List (Units × Value) → Option Value → Prop
  | absent {members : List (Units × Value)}
      (others : ∀ member ∈ members, member.1 ≠ .ofString key) : Gives key members none
  | present {before after : List (Units × Value)} {value : Value}
      (others : ∀ member ∈ before ++ after, member.1 ≠ .ofString key) :
      Gives key (before ++ (.ofString key, value) :: after) (some value)

inductive GivesFields (first second : String) : Option Value → Option Value → Value → Prop
  | object {members : List (Units × Value)} {left right : Option Value}
      (keys : ∀ member ∈ members, ∃ key, member.1 = .ofString key)
      (givesLeft : Gives first members left) (givesRight : Gives second members right) :
      GivesFields first second left right (.object members)
  | nothing : GivesFields first second none none (.array [])
  | first {left : Value} : GivesFields first second (some left) none (.array [left])
  | both {left right : Value} :
      GivesFields first second (some left) (some right) (.array [left, right])

def coded (named : List (String × Value)) : List (Units × Value) :=
  named.map fun (key, value) => (.ofString key, value)

theorem mapM_eq_some_iff {α β : Type} {read : α → Option β} {write : β → α}
    (reads : ∀ given result, read given = some result ↔ given = write result) {given : List α}
    {results : List β} : given.mapM read = some results ↔ given = results.map write := by
  induction given generalizing results with
  | nil => cases results <;> simp
  | cons first rest ih =>
      rw [List.mapM_cons]
      simp only [Option.bind_eq_bind, Option.bind_eq_some_iff, Option.pure_def, Option.some.injEq,
        reads, ih]
      constructor
      · rintro ⟨result, rfl, results, rfl, rfl⟩
        rfl
      · intro same
        obtain ⟨result, results, rfl, rfl, rfl⟩ := List.map_eq_cons_iff.mp same.symm
        exact ⟨result, rfl, results, rfl, rfl⟩

theorem named_eq_some_iff {members : List (Units × Value)} {named : List (String × Value)} :
    (members.mapM fun (key, value) => return (← key.text?, value)) = some named ↔
      members = coded named := by
  apply mapM_eq_some_iff
  rintro ⟨key, value⟩ ⟨name, given⟩
  simp [Option.bind_eq_some_iff, Units.text?_eq_some_iff]

theorem atMostOne_eq_some_iff {values : List Value} {value? : Option Value} :
    atMostOne values = some value? ↔ values = value?.toList := by
  unfold atMostOne
  split <;> cases value? <;> simp_all

@[simp]
theorem coded_append (before after : List (String × Value)) :
    coded (before ++ after) = coded before ++ coded after :=
  List.map_append

theorem valuesOf_append (key : String) (before after : List (String × Value)) :
    valuesOf key (before ++ after) = valuesOf key before ++ valuesOf key after := by
  simp [valuesOf]

theorem valuesOf_cons_self (key : String) (value : Value) (rest : List (String × Value)) :
    valuesOf key ((key, value) :: rest) = value :: valuesOf key rest := by
  simp [valuesOf]

theorem valuesOf_eq_nil_iff {key : String} {named : List (String × Value)} :
    valuesOf key named = [] ↔ ∀ member ∈ named, member.1 ≠ key := by
  simp [valuesOf]

theorem others_coded_iff {key : String} {named : List (String × Value)} :
    (∀ member ∈ coded named, member.1 ≠ .ofString key) ↔ valuesOf key named = [] := by
  rw [valuesOf_eq_nil_iff, coded, List.forall_mem_map]
  exact forall₂_congr fun member _ => not_congr Units.ofString_injective.eq_iff

theorem valuesOf_eq_singleton_iff {key : String} {named : List (String × Value)} {value : Value} :
    valuesOf key named = [value] ↔
      ∃ before after, named = before ++ (key, value) :: after ∧
        valuesOf key (before ++ after) = [] := by
  constructor
  · intro only
    obtain ⟨⟨name, given⟩, others, found, rfl, none⟩ := List.map_eq_cons_iff.mp only
    obtain ⟨before, after, rfl, unlike, like, rest⟩ := List.filter_eq_cons_iff.mp found
    obtain rfl : name = key := by simpa using like
    refine ⟨before, after, rfl, ?_⟩
    rw [valuesOf_append, List.append_eq_nil_iff]
    refine ⟨valuesOf_eq_nil_iff.mpr fun member inside => by simpa using unlike member inside, ?_⟩
    rw [valuesOf, rest, none]
  · rintro ⟨before, after, rfl, none⟩
    rw [valuesOf_append, List.append_eq_nil_iff] at none
    rw [valuesOf_append, valuesOf_cons_self, none.1, none.2]
    rfl

theorem gives_coded_iff {key : String} {named : List (String × Value)} {value? : Option Value} :
    Gives key (coded named) value? ↔ valuesOf key named = value?.toList := by
  constructor
  · generalize same : coded named = members
    rintro (@⟨_, others⟩ | @⟨before, after, value, others⟩)
    · subst same
      exact others_coded_iff.mp others
    · obtain ⟨first, rest, rfl, rfl, cut⟩ := List.map_eq_append_iff.mp same
      obtain ⟨⟨name, given⟩, last, rfl, here, rfl⟩ := List.map_eq_cons_iff.mp cut
      rw [Prod.mk.injEq, Units.ofString_injective.eq_iff] at here
      obtain ⟨rfl, rfl⟩ := here
      rw [← List.map_append] at others
      exact valuesOf_eq_singleton_iff.mpr ⟨first, last, rfl, others_coded_iff.mp others⟩
  · intro values
    cases value? with
    | none => exact .absent (others_coded_iff.mpr values)
    | some value =>
        obtain ⟨before, after, rfl, none⟩ := valuesOf_eq_singleton_iff.mp values
        rw [← others_coded_iff, coded_append] at none
        rw [coded_append]
        exact .present none

theorem exists_coded_iff {members : List (Units × Value)} :
    (∃ named, members = coded named) ↔ ∀ member ∈ members, ∃ key, member.1 = .ofString key := by
  constructor
  · rintro ⟨named, rfl⟩
    exact List.forall_mem_map.mpr fun member _ => ⟨member.1, rfl⟩
  · intro keys
    induction members with
    | nil => exact ⟨[], rfl⟩
    | cons member rest ih =>
        obtain ⟨units, value⟩ := member
        obtain ⟨⟨key, rfl⟩, later⟩ := List.forall_mem_cons.mp keys
        obtain ⟨named, rfl⟩ := ih later
        exact ⟨(key, value) :: named, rfl⟩

theorem twoFields_object_iff {first second : String} {members : List (Units × Value)}
    {left right : Option Value} :
    twoFields first second (.object members) = some (left, right) ↔
      ∃ named, members = coded named ∧ valuesOf first named = left.toList ∧
        valuesOf second named = right.toList := by
  change Option.bind (members.mapM _) _ = _ ↔ _
  rw [Option.bind_eq_some_iff]
  refine exists_congr fun named => and_congr named_eq_some_iff ?_
  simp [Option.bind_eq_some_iff, atMostOne_eq_some_iff]

theorem twoFields_eq_some_iff {first second : String} {value : Value} {left right : Option Value} :
    twoFields first second value = some (left, right) ↔
      GivesFields first second left right value := by
  constructor
  · intro reads
    unfold twoFields at reads
    split at reads
    · cases reads
      exact .nothing
    · cases reads
      exact .first
    · cases reads
      exact .both
    · obtain ⟨named, rfl, givesLeft, givesRight⟩ := twoFields_object_iff.mp reads
      exact .object (exists_coded_iff.mp ⟨named, rfl⟩) (gives_coded_iff.mpr givesLeft)
        (gives_coded_iff.mpr givesRight)
    · cases reads
  · rintro (⟨keys, givesLeft, givesRight⟩ | _ | _ | _)
    · obtain ⟨named, rfl⟩ := exists_coded_iff.mpr keys
      exact twoFields_object_iff.mpr
        ⟨named, rfl, gives_coded_iff.mp givesLeft, gives_coded_iff.mp givesRight⟩
    all_goals rfl

theorem spellable_of_mem {key : String} {members : List (Units × Value)} {value? : Option Value}
    (gives : Gives key members value?) (spelled : ∀ member ∈ members, member.2.Spellable) :
    ∀ value ∈ value?, value.Spellable := by
  cases gives with
  | absent others => exact nofun
  | present others =>
      rintro _ ⟨⟩
      exact spelled (_, _) (List.mem_append_right _ List.mem_cons_self)

theorem GivesFields.spellable {first second : String} {left right : Option Value} {value : Value}
    (gives : GivesFields first second left right value) (spellable : value.Spellable) :
    (∀ value ∈ left, value.Spellable) ∧ ∀ value ∈ right, value.Spellable := by
  obtain ⟨text, spelled⟩ := spellable
  have parts := partsSpelled_of_spelled spelled
  cases gives with
  | object keys givesLeft givesRight =>
      exact ⟨spellable_of_mem givesLeft parts, spellable_of_mem givesRight parts⟩
  | nothing => exact ⟨nofun, nofun⟩
  | first =>
      refine ⟨?_, nofun⟩
      rintro _ ⟨⟩
      exact parts _ List.mem_cons_self
  | both =>
      constructor
      · rintro _ ⟨⟩
        exact parts _ List.mem_cons_self
      · rintro _ ⟨⟩
        exact parts _ (List.mem_cons_of_mem _ List.mem_cons_self)

end LS8.Settings
