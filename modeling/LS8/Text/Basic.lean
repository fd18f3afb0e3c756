set_option autoImplicit false

namespace LS8.Text

def isBlank (c : Char) : Bool :=
  let code := c.toNat
  (0x09 ≤ code && code ≤ 0x0D) || code == 0x20 || code == 0x85 || code == 0xA0
    || code == 0x1680 || (0x2000 ≤ code && code ≤ 0x200A) || code == 0x2028 || code == 0x2029
    || code == 0x202F || code == 0x205F || code == 0x3000

def trimLeft (text : List Char) : List Char :=
  text.dropWhile isBlank

def trim (text : List Char) : List Char :=
  (trimLeft (trimLeft text).reverse).reverse

theorem trimLeft_of_blank {text : List Char} (blank : text.all isBlank = true) :
    trimLeft text = [] := by
  induction text with
  | nil => rfl
  | cons c rest ih =>
      simp only [List.all_cons, Bool.and_eq_true] at blank
      simp only [trimLeft, List.dropWhile_cons, blank.1, if_true]
      exact ih blank.2

theorem trimLeft_append {before : List Char} (blank : before.all isBlank = true)
    (text : List Char) : trimLeft (before ++ text) = trimLeft text := by
  induction before with
  | nil => rfl
  | cons c rest ih =>
      simp only [List.all_cons, Bool.and_eq_true] at blank
      simp only [trimLeft, List.cons_append, List.dropWhile_cons, blank.1, if_true]
      exact ih blank.2

theorem trimLeft_cons {c : Char} (visible : isBlank c = false) (rest : List Char) :
    trimLeft (c :: rest) = c :: rest := by
  simp [trimLeft, visible]

def withoutReturn (line : List Char) : List Char :=
  if line.getLast? = some '\r' then line.dropLast else line

def lastLine (rest : List Char) : List (List Char) :=
  if rest.isEmpty then [] else [rest]

def lines (text : List Char) : List (List Char) :=
  let pieces := text.splitOn '\n'
  pieces.dropLast.map withoutReturn ++ pieces.getLast?.elim [] lastLine

theorem lines_of_unended {text : List Char} (unended : '\n' ∉ text) :
    lines text = lastLine text := by
  rw [lines, List.splitOn_eq_singleton unended]
  rfl

theorem lines_append (line rest : List Char) (unended : '\n' ∉ line) :
    lines (line ++ '\n' :: rest) = withoutReturn line :: lines rest := by
  have pieces : (line ++ '\n' :: rest).splitOn '\n' = line :: rest.splitOn '\n' := by
    rw [List.splitOn_append_cons_self, List.splitOn_eq_singleton unended]
    rfl
  have more := List.splitOn_ne_nil '\n' rest
  rw [lines, pieces]
  cases restPieces : rest.splitOn '\n' with
  | nil => exact absurd restPieces more
  | cons piece others => simp [lines, restPieces, List.getLast?_cons]

def column (width : Nat) (text : String) : String :=
  text ++ String.ofList (List.replicate (width - text.length) ' ')

theorem length_column (width : Nat) (text : String) :
    (column width text).length = max width text.length := by
  simp [column]
  omega

end LS8.Text
