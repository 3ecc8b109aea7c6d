/-!
# Halves of pairs

Characters beyond U+FFFF are pairs of UTF-16 units, and a text whose format writes such units can
hold a half of a pair alone, which is no character. The text is then a list of codes, of which some
are characters and some are halves. It is kept as characters: a half is kept as two, a mark and a
private-use character that says which half it is. The mark is U+D7FF, the last character below the
halves, and a mark of the text itself is kept as two characters too. So different texts are kept
differently, kept texts are in the order of their codes, and their codes are found again (`codes`).
-/

namespace RegionInference.Text

/-- The character in front of one that a half is kept as: the last one below the halves. -/
def mark : Char := Char.ofNat 0xD7FF

/-- The last half. -/
def lastHalf : Nat := 0xDFFF

/-- Whether a code is a half of a pair. -/
def isHalf (code : Nat) : Bool :=
  mark.toNat < code && code ≤ lastHalf

/-- The private-use character that follows the mark where a mark of the text itself is kept. The
halves have those after it, in their order. -/
def keptBase : Nat := 0xF0000

/-- The characters that a code is kept as. -/
def keep (code : Nat) : List Char :=
  if mark.toNat ≤ code ∧ code ≤ lastHalf then [mark, Char.ofNat (keptBase + (code - mark.toNat))]
  else [Char.ofNat code]

/-- Keeps a text without halves. -/
def keepText (text : String) : String :=
  String.ofList (text.toList.flatMap fun c => keep c.toNat)

/-- The codes of a kept text. -/
def codes : List Char → List Nat
  | c :: d :: cs =>
    if c = mark then (mark.toNat + (d.toNat - keptBase)) :: codes cs else c.toNat :: codes (d :: cs)
  | [c] => [c.toNat]
  | [] => []

/-- A kept text as it is shown: in the place of a half stands the character for what cannot be
shown. -/
def showText (text : String) : String :=
  String.ofList <| (codes text.toList).map fun code =>
    Char.ofNat (if isHalf code then 0xFFFD else code)

/-- How many codes a kept text has: each has one character that is no mark. -/
def codeCount (cs : List Char) : Nat :=
  cs.countP (· != mark)

end RegionInference.Text
