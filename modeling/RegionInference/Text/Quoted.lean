import RegionInference.Text.Half
import RegionInference.Text.Printable

/-!
# Quoted texts

How messages show a text: between single quotes, or between double quotes when the text holds a
single quote and no double one. The backslash, the quote in use and every character that is not
printable are written as escapes.
-/

namespace RegionInference.Text

/-- The `width` last hexadecimal digits of a number, in small letters. -/
def hexDigits (width n : Nat) : List Char :=
  ((Nat.toDigits 16 n).reverse ++ List.replicate width '0').take width |>.reverse

/-- The quote that a text is put between. -/
def quoteFor (cs : List Char) : Char :=
  if cs.contains '\'' && !cs.contains '"' then '"' else '\''

/-- A character as it stands between two quotes `q`. -/
def escape (q c : Char) : List Char :=
  if c == '\\' || c == q then ['\\', c]
  else if c == '\n' then ['\\', 'n']
  else if c == '\r' then ['\\', 'r']
  else if c == '\t' then ['\\', 't']
  else if isPrintable c then [c]
  else if c.toNat < 0x100 then '\\' :: 'x' :: hexDigits 2 c.toNat
  else if c.toNat < 0x10000 then '\\' :: 'u' :: hexDigits 4 c.toNat
  else '\\' :: 'U' :: hexDigits 8 c.toNat

/-- A code as it stands between two quotes `q`: a half of a pair is written as an escape. -/
def escapeCode (q : Char) (code : Nat) : List Char :=
  if isHalf code then '\\' :: 'u' :: hexDigits 4 code else escape q (Char.ofNat code)

/-- The text between quotes. -/
def quote (s : String) : String :=
  let q := quoteFor s.toList
  String.ofList (q :: (codes s.toList).flatMap (escapeCode q) ++ [q])

end RegionInference.Text
