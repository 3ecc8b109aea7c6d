/-!
# Identifiers

Names of locals, fields, blocks, lifetimes and types in texts are ASCII identifiers: a letter or an
underscore, then letters, digits and underscores. (`Char.isAlpha` and `Char.isAlphanum` hold of
ASCII characters only.)
-/

namespace RegionInference.Text

/-- A character an identifier starts with. -/
def isIdentStart (c : Char) : Bool :=
  c.isAlpha || c == '_'

/-- A character an identifier goes on with. -/
def isIdentPart (c : Char) : Bool :=
  c.isAlphanum || c == '_'

/-- The identifier the text begins with, and what follows it. -/
def ident? : List Char → Option (List Char × List Char)
  | [] => none
  | c :: cs =>
    if isIdentStart c then some (c :: cs.takeWhile isIdentPart, cs.dropWhile isIdentPart) else none

/-- Whether the text is one identifier. -/
def isIdent : List Char → Bool
  | [] => false
  | c :: cs => isIdentStart c && cs.all isIdentPart

/-- A text is the name read at its start, and the rest. -/
theorem ident?_append {cs name rest : List Char} (h : ident? cs = some (name, rest)) :
    cs = name ++ rest := by
  cases cs with
  | nil => simp [ident?] at h
  | cons c cs =>
    simp only [ident?] at h
    split at h
    · simp only [Option.some.injEq, Prod.mk.injEq] at h
      obtain ⟨rfl, rfl⟩ := h
      simp
    · simp at h

/-- A name that is read is not empty. -/
theorem ident?_ne_nil {cs name rest : List Char} (h : ident? cs = some (name, rest)) :
    name ≠ [] := by
  cases cs with
  | nil => simp [ident?] at h
  | cons c cs =>
    simp only [ident?] at h
    split at h
    · simp only [Option.some.injEq, Prod.mk.injEq] at h
      simp [← h.1]
    · simp at h

/-- So the rest is shorter than the text. -/
theorem length_lt_of_ident? {cs name rest : List Char} (h : ident? cs = some (name, rest)) :
    rest.length < cs.length := by
  have hne := List.length_pos_iff.mpr (ident?_ne_nil h)
  rw [ident?_append h, List.length_append]
  omega

end RegionInference.Text
