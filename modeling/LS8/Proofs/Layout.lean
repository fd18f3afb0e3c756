import LS8.Proofs.Grammar
import Mathlib.Logic.Relation

set_option autoImplicit false

namespace LS8

namespace Text

/-- The text is empty or its last line is ended, so that whatever follows is a line of its own. -/
def Ended (text : List Char) : Prop :=
  text = [] ∨ text.getLast? = some '\n'

inductive LineEnd : List Char → List Char → Prop
  | nothing : LineEnd [] []
  | feed (behind : List Char) : LineEnd ('\n' :: behind) behind
  | returned (behind : List Char) : LineEnd ('\r' :: '\n' :: behind) behind

theorem lines_append_of_ended {before : List Char} (ended : Ended before) (rest : List Char) :
    lines (before ++ rest) = lines before ++ lines rest := by
  rcases ended with rfl | last
  · rfl
  · obtain ⟨start, rfl⟩ := List.getLast?_eq_some_iff.mp last
    -- The lines are taken off the front, one line feed after the other.
    induction size : start.length using Nat.strongRecOn generalizing start with
    | ind length ih =>
        rw [List.append_assoc, List.singleton_append]
        by_cases more : '\n' ∈ start
        · obtain ⟨line, others, rfl, whole⟩ := List.eq_append_cons_of_mem more
          have shorter : others.length < length := by
            rw [← size, List.length_append, List.length_cons]
            omega
          have later := ih _ shorter others List.getLast?_concat rfl
          simp only [List.append_assoc, List.cons_append, List.nil_append,
            lines_append line _ whole] at later ⊢
          rw [later]
        · rw [lines_append start rest more, lines_append start [] more]
          rfl

theorem exists_last_line (text : List Char) :
    ∃ before line : List Char, text = before ++ line ∧ Ended before ∧ '\n' ∉ line := by
  induction text with
  | nil => exact ⟨[], [], rfl, .inl rfl, nofun⟩
  | cons c rest ih =>
      obtain ⟨before, line, rfl, ended, whole⟩ := ih
      rcases ended with rfl | last
      · by_cases feed : c = '\n'
        · exact ⟨[c], line, rfl, .inr (by simp [feed]), whole⟩
        · exact ⟨[], c :: line, rfl, .inl rfl, by simp [Ne.symm feed, whole]⟩
      · refine ⟨c :: before, line, rfl, .inr ?_, whole⟩
        simp [List.getLast?_cons, last]

end Text

namespace Program

theorem codeOf_of_hasCode {line line' : List Char}
    (keeps : ∀ code, HasCode line code → HasCode line' code) : codeOf line' = codeOf line :=
  (keeps (codeOf line) (hasCode_codeOf line)).codeOf_eq

theorem codeOf_blank_append {blanks line : List Char} (blank : blanks.all Text.isBlank = true) :
    codeOf (blanks ++ line) = codeOf line := by
  apply codeOf_of_hasCode
  intro code has
  cases has with
  | @intro before _ after comment blankBefore blankAfter noSign first last sign =>
      have blankStart : (blanks ++ before).all Text.isBlank = true := by simp [blank, blankBefore]
      have has := HasCode.intro blankStart blankAfter noSign first last sign
      simpa only [List.append_assoc] using has

-- What is appended to a line goes into its comment, or behind its code if it has no comment.
theorem codeOf_append_blank {blanks line : List Char} (blank : blanks.all Text.isBlank = true) :
    codeOf (line ++ blanks) = codeOf line := by
  apply codeOf_of_hasCode
  intro code has
  cases has with
  | @intro before _ after comment blankBefore blankAfter noSign first last sign =>
      rcases sign with rfl | sign
      · have blankEnd : (after ++ blanks).all Text.isBlank = true := by simp [blank, blankAfter]
        have has := HasCode.intro blankBefore blankEnd noSign first last (.inl rfl)
        simpa only [List.append_assoc, List.append_nil] using has
      · have signed : (comment ++ blanks).head? = some '#' := by
          rw [List.head?_append, sign]
          rfl
        have has := HasCode.intro blankBefore blankAfter noSign first last (.inr signed)
        simpa only [List.append_assoc] using has

theorem codeOf_append_comment (line comment : List Char) :
    codeOf (line ++ '#' :: comment) = codeOf line := by
  apply codeOf_of_hasCode
  intro code has
  cases has with
  | @intro before _ after others blankBefore blankAfter noSign first last sign =>
      have signed : (others ++ '#' :: comment).head? = some '#' := by
        rcases sign with rfl | sign
        · rfl
        · rw [List.head?_append, sign]
          rfl
      have has := HasCode.intro blankBefore blankAfter noSign first last (.inr signed)
      simpa only [List.append_assoc] using has

-- A carriage return that belongs to the line end would be a blank in the line.
theorem codeOf_withoutReturn (line : List Char) :
    codeOf (Text.withoutReturn line) = codeOf line := by
  unfold Text.withoutReturn
  split
  next returned =>
    obtain ⟨start, rfl⟩ := List.getLast?_eq_some_iff.mp returned
    rw [List.dropLast_concat, codeOf_append_blank (by decide)]
  next => rfl

inductive LineEdit : List Char → List Char → Prop
  | blankStart {blanks : List Char} (line : List Char) (blank : blanks.all Text.isBlank = true) :
      LineEdit line (blanks ++ line)
  | blankEnd {blanks : List Char} (line : List Char) (blank : blanks.all Text.isBlank = true) :
      LineEdit line (line ++ blanks)
  | blankBeforeSign {blanks code : List Char} (comment : List Char) (noSign : '#' ∉ code)
      (blank : blanks.all Text.isBlank = true) :
      LineEdit (code ++ '#' :: comment) (code ++ blanks ++ '#' :: comment)
  | newComment (line comment : List Char) : LineEdit line (line ++ '#' :: comment)
  | otherComment {code : List Char} (comment comment' : List Char) (noSign : '#' ∉ code) :
      LineEdit (code ++ '#' :: comment) (code ++ '#' :: comment')

theorem LineEdit.codeOf_eq {line line' : List Char} (edit : LineEdit line line') :
    codeOf line' = codeOf line := by
  cases edit with
  | blankStart line blank => exact codeOf_blank_append blank
  | blankEnd line blank => exact codeOf_append_blank blank
  | blankBeforeSign comment noSign blank =>
      rw [codeOf_append_comment, codeOf_append_comment, codeOf_append_blank blank]
  | newComment line comment => exact codeOf_append_comment line comment
  | otherComment comment comment' noSign =>
      rw [codeOf_append_comment, codeOf_append_comment]

inductive Edit : List Char → List Char → Prop
  | lineEnd (before after : List Char) :
      Edit (before ++ '\n' :: after) (before ++ '\r' :: '\n' :: after)
  | line {before line line' rest behind : List Char} (starts : Text.Ended before)
      (whole : '\n' ∉ line) (whole' : '\n' ∉ line') (ends : Text.LineEnd rest behind)
      (edit : LineEdit line line') : Edit (before ++ line ++ rest) (before ++ line' ++ rest)
  | lastFeed {text : List Char} (nonempty : text ≠ []) (unended : text.getLast? ≠ some '\n') :
      Edit text (text ++ ['\n'])
  | emptyLine {text line : List Char} (ended : Text.Ended text) (whole : '\n' ∉ line)
      (empty : HasCode line []) : Edit text (text ++ (line ++ ['\n']))

def SameLayout : List Char → List Char → Prop :=
  Relation.EqvGen Edit

theorem numbered_append (number : Nat) (codes more : List (List Char)) :
    numbered number (codes ++ more) =
      numbered number codes ++ numbered (number + codes.length) more := by
  simp [numbered, List.zipIdx_append]

theorem numbered_empty (number : Nat) : numbered number [[]] = [] := rfl

def codesFrom (number : Nat) (text : List Char) : List (List Char × Nat) :=
  numbered number ((Text.lines text).map codeOf)

theorem codesFrom_append {before : List Char} (ended : Text.Ended before) (number : Nat)
    (rest : List Char) :
    codesFrom number (before ++ rest) =
      codesFrom number before ++ codesFrom (number + (Text.lines before).length) rest := by
  rw [codesFrom, Text.lines_append_of_ended ended, List.map_append, numbered_append,
    List.length_map]
  rfl

theorem codesFrom_line {line rest behind : List Char} (whole : '\n' ∉ line)
    (ends : Text.LineEnd rest behind) (number : Nat) :
    codesFrom number (line ++ rest) =
      numbered number [codeOf line] ++ codesFrom (number + 1) behind := by
  have first (code : List Char) (codes : List (List Char)) :
      numbered number (code :: codes) = numbered number [code] ++ numbered (number + 1) codes :=
    numbered_append number [code] codes
  cases ends with
  | nothing =>
      rw [List.append_nil, codesFrom, Text.lines_of_unended whole, Text.lastLine]
      cases line with
      | nil => rfl
      | cons c rest => exact (List.append_nil _).symm
  | feed =>
      rw [codesFrom, Text.lines_append line behind whole, List.map_cons, codeOf_withoutReturn,
        first]
      rfl
  | returned =>
      rw [codesFrom, Text.lines_append_return whole, List.map_cons, first]
      rfl

theorem Edit.codes_eq {text text' : List Char} (edit : Edit text text') :
    codes text = codes text' := by
  change codesFrom 1 text = codesFrom 1 text'
  cases edit with
  | lineEnd before after =>
      obtain ⟨start, line, rfl, ended, whole⟩ := Text.exists_last_line before
      rw [List.append_assoc, List.append_assoc, codesFrom_append ended, codesFrom_append ended,
        codesFrom_line whole (.feed after), codesFrom_line whole (.returned after)]
  | line starts whole whole' ends edit =>
      rw [List.append_assoc, List.append_assoc, codesFrom_append starts, codesFrom_append starts,
        codesFrom_line whole ends, codesFrom_line whole' ends, edit.codeOf_eq]
  | lastFeed nonempty unended =>
      obtain ⟨start, line, rfl, ended, whole⟩ := Text.exists_last_line text
      have here := codesFrom_line whole .nothing (1 + (Text.lines start).length)
      rw [List.append_nil] at here
      rw [List.append_assoc, codesFrom_append ended, codesFrom_append ended, here,
        codesFrom_line whole (.feed [])]
  | @emptyLine text line ended whole empty =>
      rw [codesFrom_append ended, codesFrom_line whole (.feed []), empty.codeOf_eq, numbered_empty]
      exact (List.append_nil _).symm

theorem SameLayout.codes_eq {text text' : List Char} (same : SameLayout text text') :
    codes text = codes text' := by
  induction same with
  | rel text text' edit => exact edit.codes_eq
  | refl text => rfl
  | symm text text' _ ih => exact ih.symm
  | trans text middle text' _ _ first second => exact first.trans second

theorem parse_ignores_layout {text text' : String} (same : SameLayout text.toList text'.toList) :
    parse text = parse text' := by
  rw [parse, parse, same.codes_eq]

theorem parse_ignores_layout_of_malformed :
    SameLayout "1\n12".toList "1#x\r\n\u008512\n".toList ∧
    parse "1\n12" = .error (.malformed 2 "12") ∧
    parse "1#x\r\n\u008512\n" = .error (.malformed 2 "12") := by
  have same : SameLayout "1\n12".toList "1#x\r\n\u008512\n".toList := by
    have commented : Edit ([] ++ ['1'] ++ ['\n', '1', '2'])
        ([] ++ ['1', '#', 'x'] ++ ['\n', '1', '2']) :=
      .line (.inl rfl) (by decide) (by decide) (.feed _) (.newComment ['1'] ['x'])
    have returned : Edit ['1', '#', 'x', '\n', '1', '2'] ['1', '#', 'x', '\r', '\n', '1', '2'] :=
      .lineEnd ['1', '#', 'x'] ['1', '2']
    have blank : Edit (['1', '#', 'x', '\r', '\n'] ++ ['1', '2'] ++ [])
        (['1', '#', 'x', '\r', '\n'] ++ ['\u0085', '1', '2'] ++ []) :=
      .line (.inr rfl) (by decide) (by decide) .nothing
        (@LineEdit.blankStart ['\u0085'] ['1', '2'] (by decide))
    have fed : Edit ['1', '#', 'x', '\r', '\n', '\u0085', '1', '2']
        ['1', '#', 'x', '\r', '\n', '\u0085', '1', '2', '\n'] :=
      .lastFeed (by decide) (by decide)
    exact .trans _ _ _ (.rel _ _ commented) (.trans _ _ _ (.rel _ _ returned)
      (.trans _ _ _ (.rel _ _ blank) (.rel _ _ fed)))
  have read : parse "1\n12" = .error (.malformed 2 "12") := by decide +kernel
  exact ⟨same, read, (parse_ignores_layout same).symm.trans read⟩

end Program

end LS8
