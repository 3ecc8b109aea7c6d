import Mathlib
import RegionInference.Proofs.PlaceReading

/-!
# Writing and reading a place

The text of a place is written from the inside out, one projection after the other, and read from
the outside in: a star first, then the parentheses around what it applies to. What carries the
induction over the projections is `Place.Extends`: the text so far is balanced, so that it may stand
in parentheses, and read together with any fields and indices behind it, it is the place so far with
these projections.

The main result is `Place.text_and_reading_are_inverse`.
-/

namespace RegionInference.Place

open Text

variable {cs : List Char} {place p : Place} {steps : List Projection}

/-- The text is that of the place, and fields and indices may be written behind it. -/
structure Extends (cs : List Char) (place : Place) : Prop where
  balanced : Balanced cs
  read : ∀ {rest steps}, EndsIdent rest → Ends rest steps →
    read (cs ++ rest) = .ok (place.extend steps)

/-- A place extended with nothing. -/
theorem extend_nil (place : Place) : place.extend [] = place := by
  simp [extend]

/-- A place extended with one projection after the other. -/
theorem extend_cons (place : Place) (step : Projection) (steps : List Projection) :
    place.extend (step :: steps) = (place.project step).extend steps := by
  simp [extend, project]

/-- The text of a place is read as the place. -/
theorem Extends.read_self (h : Extends cs place) : Place.read cs = .ok place := by
  have hread := h.read (by simp [EndsIdent]) (ends_nil.2 rfl)
  rwa [List.append_nil, extend_nil] at hread

/-- An identifier is the text of a local. -/
theorem extends_base (h : isIdent cs = true) : Extends cs ⟨String.ofList cs, []⟩ := by
  constructor
  · exact balanced_of_free (free_of_isIdent h)
  · intro rest steps hends hsteps
    exact (read_name_eq_ok (ident?_append_of_ends h hends)).2 ⟨steps, hsteps, rfl⟩

/-- A dereference that is not the last projection is written in parentheses. -/
theorem Extends.deref (h : Extends cs place) :
    Extends ('(' :: '*' :: (cs ++ [')'])) place.deref := by
  have hbalanced : Balanced ('*' :: cs) := (closesAll_other (by decide) (by decide)).2 h.balanced
  constructor
  · have hclose : ClosesAll (0 + 1) ('*' :: cs ++ [')']) :=
      (closesAll_append hbalanced).2 (closesAll_close.2 (closesAll_nil.2 rfl))
    exact closesAll_open.2 hclose
  · intro rest steps _ hsteps
    have hread : Place.read ('*' :: cs) = .ok place.deref := by
      rw [read_star, h.read_self]
      rfl
    have hsplit : '*' :: (cs ++ [')']) ++ rest = '*' :: cs ++ ')' :: rest := by simp
    rw [List.cons_append, hsplit]
    exact read_group_eq_ok.2 ⟨_, _, _, steps, rfl, hbalanced, hread, hsteps, rfl⟩

/-- A field or an index is written behind what it is taken from. -/
theorem Extends.append {part : List Char} {step : Projection} (h : Extends cs place)
    (hfree : ∀ c ∈ part, c ≠ '(' ∧ c ≠ ')') (hends : ∀ rest, EndsIdent (part ++ rest))
    (hpart : ∀ rest, EndsIdent rest → suffix? (part ++ rest) = some (step, rest)) :
    Extends (cs ++ part) (place.project step) := by
  constructor
  · exact (balanced_append_free hfree).2 h.balanced
  · intro rest steps hrest hsteps
    rw [List.append_assoc, ← extend_cons]
    exact h.read (hends rest) ((ends_of_some (hpart rest hrest)).2 ⟨steps, hsteps, rfl⟩)

/-- A field behind the text of a place. -/
theorem Extends.field {name : List Char} (h : Extends cs place) (hname : isIdent name = true) :
    Extends (cs ++ '.' :: name) (place.project (.field (String.ofList name))) := by
  refine h.append ?_ (fun rest => endsIdent_cons.2 (by decide)) fun rest => suffix?_of_field hname
  intro c hc
  rcases List.mem_cons.1 hc with rfl | hc
  · decide
  · exact free_of_isIdent hname c hc

/-- An index behind the text of a place. -/
theorem Extends.index (h : Extends cs place) :
    Extends (cs ++ ['[', '_', ']']) (place.project .index) := by
  refine h.append (by simp) (fun rest => endsIdent_cons.2 (by decide)) fun rest _ => ?_
  have hclosed : ']' ∉ ['_'] := by decide
  exact suffix?_of_index hclosed

/-- The projections written around a text are read as projections from its place. -/
theorem read_wrap {inner : String} (h : Extends inner.toList place)
    (hsteps : ∀ step ∈ steps, step.Named) :
    read (wrap inner steps).toList = .ok (place.extend steps) := by
  induction inner, steps using wrap.induct generalizing place with
  | case1 inner => rw [wrap, h.read_self, extend_nil]
  | case2 inner =>
    have htext : (wrap inner [.deref]).toList = '*' :: inner.toList := by
      simp [wrap, String.toList_append]
    rw [htext, read_star, h.read_self]
    rfl
  | case3 inner rest hrest ih =>
    have htext : ("(*" ++ inner ++ ")").toList = '(' :: '*' :: (inner.toList ++ [')']) := by
      simp [String.toList_append]
    rw [wrap, extend_cons]
    · refine ih ?_ (List.forall_mem_cons.1 hsteps).2
      rw [htext]
      exact h.deref
    · exact hrest
  | case4 inner name rest ih =>
    have htext : (inner ++ "." ++ name).toList = inner.toList ++ '.' :: name.toList := by
      simp [String.toList_append]
    obtain ⟨hname, hrest⟩ := List.forall_mem_cons.1 hsteps
    have hfield := h.field hname
    rw [String.ofList_toList] at hfield
    rw [wrap, extend_cons]
    refine ih ?_ hrest
    rw [htext]
    exact hfield
  | case5 inner rest ih =>
    have htext : (inner ++ "[_]").toList = inner.toList ++ ['[', '_', ']'] := by
      simp [String.toList_append]
    rw [wrap, extend_cons]
    refine ih ?_ (List.forall_mem_cons.1 hsteps).2
    rw [htext]
    exact h.index

/-- A place made of identifiers is read back from its text. -/
theorem ofText_text (h : place.Named) : ofText place.text = .ok place := by
  have hbase := extends_base h.base
  rw [String.ofList_toList] at hbase
  rw [ofText, text, read_wrap hbase h.steps]
  rfl

/-- A place with identifiers for names is read back from its text. Only such places are read from
any text at all, so that reading, writing and reading again changes nothing, and two such places
with one text are the same. -/
theorem text_and_reading_are_inverse (place : Place) :
    (place.Named → ofText place.text = .ok place) ∧
    (∀ t, ofText t = .ok place → place.Named ∧ ofText place.text = .ok place) ∧
    ∀ other : Place, place.Named → other.Named → place.text = other.text → place = other := by
  refine ⟨ofText_text, fun t hread => ?_, fun other hplace hother htext => ?_⟩
  · have hnamed : place.Named := named_of_read t.toList hread
    exact ⟨hnamed, ofText_text hnamed⟩
  · have hread : ofText place.text = .ok other := htext ▸ ofText_text hother
    rw [ofText_text hplace] at hread
    exact Except.ok.inj hread

/-- A place with a dereference inside projections and two around them is read back from its text. -/
theorem nested_derefs_read_back :
    Named ⟨"p", [.deref, .field "f", .index, .deref, .deref]⟩ ∧
      text ⟨"p", [.deref, .field "f", .index, .deref, .deref]⟩ = "*(*(*p).f[_])" ∧
      ofText "*(*(*p).f[_])" = .ok ⟨"p", [.deref, .field "f", .index, .deref, .deref]⟩ := by
  have hnamed : Named ⟨"p", [.deref, .field "f", .index, .deref, .deref]⟩ :=
    ⟨by decide, by simp [Projection.Named, show isIdent ['f'] = true by decide]⟩
  have htext : text ⟨"p", [.deref, .field "f", .index, .deref, .deref]⟩ = "*(*(*p).f[_])" := by
    decide
  exact ⟨hnamed, htext, htext ▸ (text_and_reading_are_inverse _).1 hnamed⟩

end RegionInference.Place
