import RegionInference.Text.Quoted

/-!
# Paths as bytes

Files are found by bytes. A path is written in UTF-8, in which the halves of pairs from U+DC80 to
U+DCFF stand for the bytes from 0x80 to 0xFF. No other half has bytes, and in the text of a file
none has.
-/

namespace RegionInference.Command

open Text

/-- Whether a half of a pair stands for a byte of a path. -/
def isByteHalf (code : Nat) : Bool :=
  0xDC80 ≤ code && code ≤ 0xDCFF

/-- The bytes of a code in a path. -/
def pathBytes (code : Nat) : List Nat :=
  if isByteHalf code then [code - 0xDC00]
  else (String.utf8EncodeChar (Char.ofNat code)).map UInt8.toNat

/-- A path as bytes, each as the character that has its number. -/
def encodePath (path : String) : String :=
  String.ofList (((codes path.toList).flatMap pathBytes).map Char.ofNat)

/-- Halves in a row that cannot be written as bytes. -/
structure Unwritable where
  /-- How many codes stand before them. -/
  pos : Nat
  /-- The first of them. -/
  first : Nat
  /-- How many follow the first. -/
  more : Nat

namespace Unwritable

/-- The first halves in a text that cannot be written, where some can. -/
def find? (writable : Nat → Bool) (text : String) : Option Unwritable :=
  let all := codes text.toList
  match all.dropWhile fun code => !isHalf code || writable code with
  | [] => none
  | first :: rest => some ⟨all.length - (rest.length + 1), first, (rest.takeWhile isHalf).length⟩

/-- What is said about halves that cannot be written. -/
def message (halves : Unwritable) : String :=
  let last := halves.pos + halves.more
  let shown := quote (String.ofList (keep halves.first))
  let place :=
    if halves.more = 0 then s!"character {shown} in position {halves.pos}"
    else s!"characters in position {halves.pos}-{last}"
  s!"'utf-8' codec can't encode {place}: surrogates not allowed"

end Unwritable

end RegionInference.Command
