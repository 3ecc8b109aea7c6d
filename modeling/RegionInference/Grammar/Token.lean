import RegionInference.Grammar.Parser
import RegionInference.Text.Blank
import RegionInference.Text.Ident
import RegionInference.Text.Word

/-!
# Tokens

The smallest parts of a text: names, lifetimes, points, literals, and the blanks between them.
Comments count as blanks: they start with `#` or `//` and end with the line.
-/

namespace RegionInference.Grammar

open Text Grammar.Parser

/-- What follows the blanks and comments in front; `inside` tells whether a comment is open. -/
def skipBlanks (inside : Bool) : List Char → List Char
  | [] => []
  | c :: cs =>
    if inside then skipBlanks (c != '\n') cs
    else if c = '#' then skipBlanks true cs
    else if c = '/' && cs.head? == some '/' then skipBlanks true cs
    else if isBlank c then skipBlanks false cs
    else c :: cs

/-- How many characters of blanks and comments are in front. -/
def blankLength (cs : List Char) : Nat :=
  cs.length - (skipBlanks false cs).length

/-- Blanks and comments, if there are any. -/
def blanks : Parser Unit :=
  fun cursor => (some ((), cursor.skip (blankLength cursor.rest)), {})

/-- Blanks and comments, at least one. -/
def spacing : Parser Unit :=
  rule "ws" fun cursor =>
    match blankLength cursor.rest with
    | 0 => (none, .unnamed cursor.pos)
    | n => (some ((), cursor.skip n), {})

/-- The length of the identifier in front. -/
def identLength (cs : List Char) : Option Nat :=
  (ident? cs).map fun (name, _) => name.length

/-- A name. -/
def ident : Parser String :=
  rule "ident" (token identLength)

/-- The length of the lifetime in front: a mark and an identifier. -/
def lifetimeLength : List Char → Option Nat
  | '\'' :: cs => (identLength cs).map (· + 1)
  | _ => none

/-- A lifetime, without its mark. -/
def lifetime : Parser String := do
  let text ← rule "lifetime" (token lifetimeLength)
  return (text.drop 1).toString

/-- The length of the decimal digits in front, of which there must be one. -/
def digitsLength (cs : List Char) : Option Nat :=
  match (cs.takeWhile Char.isDigit).length with
  | 0 => none
  | n => some n

/-- The length of the point in front: an identifier, a slash and digits. -/
def pointLength (cs : List Char) : Option Nat :=
  match ident? cs with
  | some (name, '/' :: rest) => (digitsLength rest).map (name.length + 1 + ·)
  | _ => none

/-- A point, as it is written. -/
def point : Parser String :=
  rule "point" (token pointLength)

/-- The length of the word if it is in front and ends there. -/
def wordLength (word : String) (cs : List Char) : Option Nat :=
  if word.toList.isPrefixOf cs && !((cs.drop word.length).head?.any isWord) then some word.length
  else none

/-- The length of the literal in front: a number or one of three words. -/
def constLength (cs : List Char) : Option Nat :=
  let number := match cs with
    | '-' :: rest => (digitsLength rest).map (· + 1)
    | cs => digitsLength cs
  number <|> wordLength "const" cs <|> wordLength "true" cs <|> wordLength "false" cs

/-- A literal, as it is written. -/
def const : Parser String :=
  rule "const_op" (token constLength)

/-- Values with commas between them, at least one. -/
def separated (p : Parser α) : Parser (List α) := do
  let first ← p
  let others ← many do
    blanks
    literal ","
    blanks
    p
  return first :: others

end RegionInference.Grammar
