import RegionInference.Text.Half

/-!
# Cursors

Where a reader stands in a text: how many characters lie behind it, and those ahead. Positions are
counted in characters; people are told lines and columns, both from one, and columns in codes.
-/

namespace RegionInference.Text

/-- Where a reader stands in a text. -/
structure Cursor where
  /-- How many characters lie behind. -/
  pos : Nat := 0
  /-- The characters ahead. -/
  rest : List Char

namespace Cursor

/-- The start of a text. -/
def ofText (text : String) : Cursor :=
  { rest := text.toList }

/-- The cursor after the next `n` characters. -/
def skip (cursor : Cursor) (n : Nat) : Cursor :=
  ⟨cursor.pos + n, cursor.rest.drop n⟩

/-- The cursor after the next characters that satisfy a test. -/
def skipWhile (cursor : Cursor) (p : Char → Bool) : Cursor :=
  cursor.skip (cursor.rest.takeWhile p).length

/-- Whether all characters lie behind. -/
def atEnd (cursor : Cursor) : Bool :=
  cursor.rest.isEmpty

end Cursor

/-- The line of a position: one more than the line feeds before it. -/
def lineOf (text : List Char) (pos : Nat) : Nat :=
  (text.take pos).count '\n' + 1

/-- The column of a position: one more than the codes since the last line feed before it. -/
def columnOf (text : List Char) (pos : Nat) : Nat :=
  codeCount ((text.take pos).reverse.takeWhile (· != '\n')) + 1

end RegionInference.Text
