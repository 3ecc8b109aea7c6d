import RegionInference.Grammar.Trace
import RegionInference.Text.Cursor

/-!
# Parsers

A parser reads a value from the front of what is ahead, or fails; either way it tells what failed
on the way. Choices are ordered and final: once an alternative has been taken, the others are not
tried again. What a parser reads depends only on what is ahead, never on what failed before.

The grammar of bodies is written for an engine of parsing expression grammars, which is not part of
the program. These parsers stand for it, and assume of it no more than this:

* a choice takes the first alternative that matches, a repetition takes as many items as match, and
  neither is undone when something after it fails;
* a repetition or an optional part tries nothing at the end of the text;
* every expression that fails is recorded with the position where it started, after what was tried
  inside it, and the report is read off these records (`Trace.report`);
* remembering the outcome of an expression at a position changes no outcome and no report: a failure
  that is found again is recorded again, and what failed inside it was recorded before.
-/

namespace RegionInference.Grammar

open Text

/-- Reads a value and moves on, or fails; the trace has the failures on the way. -/
def Parser (α : Type) : Type :=
  Cursor → Option (α × Cursor) × Trace

namespace Parser

/-- Reads nothing. -/
def pure (a : α) : Parser α :=
  fun cursor => (some (a, cursor), {})

/-- One parser and then another, which may depend on what the first one read. -/
def bind (p : Parser α) (f : α → Parser β) : Parser β :=
  fun cursor =>
    match p cursor with
    | (none, trace) => (none, trace)
    | (some (a, next), trace) =>
      let (result, later) := f a next
      (result, trace ++ later)

instance : Monad Parser where
  pure := pure
  bind := bind

/-- The position of what is ahead. -/
def position : Parser Nat :=
  fun cursor => (some (cursor.pos, cursor), {})

/-- Reads the given characters. -/
def literal (text : String) : Parser Unit :=
  fun cursor =>
    if text.toList.isPrefixOf cursor.rest then (some ((), cursor.skip text.length), {})
    else (none, .unnamed cursor.pos)

/-- Reads as many characters as a scanner says. -/
def token (scan : List Char → Option Nat) : Parser String :=
  fun cursor =>
    match scan cursor.rest with
    | some n => (some (String.ofList (cursor.rest.take n), cursor.skip n), {})
    | none => (none, .unnamed cursor.pos)

/-- A parser whose failure is that of a rule. -/
def rule (name : String) (p : Parser α) : Parser α :=
  fun cursor =>
    match p cursor with
    | (none, trace) => (none, trace ++ .rule name cursor.pos)
    | success => success

/-- The first of two parsers that reads something. -/
def orElse (p q : Parser α) : Parser α :=
  fun cursor =>
    match p cursor with
    | (none, trace) =>
      let (result, later) := q cursor
      (result, trace ++ later)
    | success => success

/-- The first of some parsers that reads something. -/
def oneOf : List (Parser α) → Parser α
  | [] => fun cursor => (none, .unnamed cursor.pos)
  | [p] => p
  | p :: ps => p.orElse (oneOf ps)

/-- Reads something if it is there. At the end of the text nothing is tried. -/
def optional (p : Parser α) : Parser (Option α) :=
  fun cursor =>
    if cursor.atEnd then (some (none, cursor), {})
    else
      match p cursor with
      | (none, trace) => (some (none, cursor), trace)
      | (some (a, next), trace) => (some (some a, next), trace)

/-- The values that a parser reads in a row, and what is then ahead. A reading that moves nowhere
is the last. At the end of the text nothing is tried. -/
def readMany (p : Parser α) (cursor : Cursor) : List α × Cursor × Trace :=
  if cursor.atEnd then ([], cursor, {})
  else
    match p cursor with
    | (none, trace) => ([], cursor, trace)
    | (some (a, next), trace) =>
      if _h : next.rest.length < cursor.rest.length then
        let (items, last, later) := p.readMany next
        (a :: items, last, trace ++ later)
      else ([a], next, trace)
termination_by cursor.rest.length

/-- Reads as many values in a row as there are. -/
def many (p : Parser α) : Parser (List α) :=
  fun cursor =>
    let (items, next, trace) := p.readMany cursor
    (some (items, next), trace)

/-- Reads as many values in a row as there are, at least one. -/
def many1 (p : Parser α) : Parser (List α) :=
  fun cursor =>
    if cursor.atEnd then (none, .unnamed cursor.pos)
    else (p >>= fun first => p.many >>= fun items => pure (first :: items)) cursor

/-- The text that a parser reads, beside its value. -/
def withText (p : Parser α) : Parser (String × α) :=
  fun cursor =>
    match p cursor with
    | (none, trace) => (none, trace)
    | (some (a, next), trace) =>
      (some ((String.ofList (cursor.rest.take (next.pos - cursor.pos)), a), next), trace)

end Parser

end RegionInference.Grammar
