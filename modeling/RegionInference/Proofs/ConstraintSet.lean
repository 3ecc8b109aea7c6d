import Mathlib.Data.List.Forall2
import RegionInference.Constraint.Set
import RegionInference.Solve.Basic

/-!
# How sets of constraints come about

A set of constraints starts empty and takes constraints one at a time (`ConstraintSet.Built`). Each
addition checks its lifetimes and its point, so every constraint of a built set names lifetimes of
the set and carries the number of its point (`ConstraintSet.Built.admits`). The results are stated
about built sets, and use of them no more than that.

The keys that a set has seen are those of its constraints, so they tell which constraints are there
(`ConstraintSet.seen_live`, `ConstraintSet.seen_outlives`) and add nothing to what tells two sets
apart (`ConstraintSet.ext`).

The first section is about results that may be faults: what follows when a chain of steps, or one
step for each item of a list, has succeeded.
-/

namespace RegionInference

/-! ### Results that may be faults -/

/-- A chain of two steps succeeds only if both do. -/
theorem exists_of_bind_eq_ok {first : Except ε α} {f : α → Except ε β} {b : β}
    (h : (first >>= f) = .ok b) : ∃ a, first = .ok a ∧ f a = .ok b := by
  cases first with
  | error e => cases h
  | ok a => exact ⟨a, rfl, h⟩

/-- A step for each item of a list succeeds iff each of them does, with the results in a row. -/
theorem mapM_eq_ok {f : α → Except ε β} {items : List α} {results : List β} :
    items.mapM f = .ok results ↔ List.Forall₂ (fun a b => f a = .ok b) items results := by
  induction items generalizing results with
  | nil =>
    rw [List.mapM_nil]
    constructor
    · intro h
      cases h
      exact .nil
    · intro h
      cases h
      rfl
  | cons a items ih =>
    rw [List.mapM_cons]
    constructor
    · intro h
      obtain ⟨b, hb, h⟩ := exists_of_bind_eq_ok h
      obtain ⟨rest, hrest, h⟩ := exists_of_bind_eq_ok h
      cases h
      exact .cons hb (ih.1 hrest)
    · intro h
      cases h with
      | cons hb hrest =>
        rw [hb, ih.2 hrest]
        rfl

/-- Each item has a result. -/
theorem exists_of_mem_mapM {f : α → Except ε β} {items : List α} {results : List β}
    (h : items.mapM f = .ok results) {a : α} (ha : a ∈ items) : ∃ b ∈ results, f a = .ok b := by
  have hall := mapM_eq_ok.1 h
  induction hall with
  | nil => cases ha
  | @cons a' b items results hb hrest ih =>
    rcases List.mem_cons.1 ha with rfl | ha
    · exact ⟨b, List.mem_cons_self, hb⟩
    · obtain ⟨b', hb', heq⟩ := ih (mapM_eq_ok.2 hrest) ha
      exact ⟨b', List.mem_cons_of_mem _ hb', heq⟩

/-- Each result is that of an item. -/
theorem exists_of_mem_results {f : α → Except ε β} {items : List α} {results : List β}
    (h : items.mapM f = .ok results) {b : β} (hb : b ∈ results) : ∃ a ∈ items, f a = .ok b := by
  have hall := mapM_eq_ok.1 h
  induction hall with
  | nil => cases hb
  | @cons a b' items results ha hrest ih =>
    rcases List.mem_cons.1 hb with rfl | hb
    · exact ⟨a, List.mem_cons_self, ha⟩
    · obtain ⟨a', ha', heq⟩ := ih (mapM_eq_ok.2 hrest) hb
      exact ⟨a', List.mem_cons_of_mem _ ha', heq⟩

/-- If the step succeeds for each item, then for all of them. -/
theorem exists_mapM {f : α → Except ε β} {items : List α} (h : ∀ a ∈ items, ∃ b, f a = .ok b) :
    ∃ results, items.mapM f = .ok results := by
  induction items with
  | nil => exact ⟨[], rfl⟩
  | cons a items ih =>
    obtain ⟨b, hb⟩ := h a List.mem_cons_self
    obtain ⟨results, hresults⟩ := ih fun a' ha' => h a' (List.mem_cons_of_mem _ ha')
    refine ⟨b :: results, ?_⟩
    rw [List.mapM_cons, hb, hresults]
    rfl

/-- A step for each item of a list fails as the step for one of them. -/
theorem exists_of_mapM_eq_error {f : α → Except ε β} {items : List α} {e : ε}
    (h : items.mapM f = .error e) : ∃ a ∈ items, f a = .error e := by
  induction items with
  | nil => cases h
  | cons a items ih =>
    rw [List.mapM_cons] at h
    cases ha : f a with
    | error e' =>
      rw [ha] at h
      cases h
      exact ⟨a, List.mem_cons_self, ha⟩
    | ok b =>
      rw [ha] at h
      cases hrest : items.mapM f with
      | error e' =>
        rw [hrest] at h
        cases h
        obtain ⟨a', ha', heq⟩ := ih hrest
        exact ⟨a', List.mem_cons_of_mem _ ha', heq⟩
      | ok results =>
        rw [hrest] at h
        cases h

/-- What each step keeps, steps taken in turn keep. -/
theorem foldlM_keeps {P : β → Prop} {f : β → α → Except ε β} {items : List α}
    (hstep : ∀ a ∈ items, ∀ b next, P b → f b a = .ok next → P next) {start final : β}
    (hstart : P start) (h : items.foldlM f start = .ok final) : P final := by
  induction items generalizing start with
  | nil =>
    cases h
    exact hstart
  | cons a items ih =>
    rw [List.foldlM_cons] at h
    obtain ⟨next, hnext, h⟩ := exists_of_bind_eq_ok h
    exact ih (fun a' ha' => hstep a' (List.mem_cons_of_mem _ ha'))
      (hstep a List.mem_cons_self start next hstart hnext) h

/-- A point has a number where it is looked up iff it has one. -/
theorem Graph.index_eq_ok {g : Graph} {point : Point} {i : Nat} :
    g.index point = .ok i ↔ g.index? point = some i := by
  unfold index
  cases g.index? point <;> simp

/-- The lifetime whose region decides what a constraint needs. -/
def Constraint.source? : Constraint → Option String
  | .live _ => none
  | .outlives c => some c.shorter

namespace ConstraintSet

/-! ### The keys that were seen -/

/-- A constraint on a point was seen iff it is there. -/
theorem seen_live {set : ConstraintSet} {lifetime : String} {point : Point} :
    set.seen.contains (.live lifetime point) = true ↔
      ∃ c ∈ set.live, c.lifetime = lifetime ∧ c.point = point := by
  rw [set.seen_iff]
  simp [LiveAt.key, Outlives.key]

/-- A constraint between regions was seen iff it is there. -/
theorem seen_outlives {set : ConstraintSet} {longer shorter : String} {point : Point} :
    set.seen.contains (.outlives longer shorter point) = true ↔
      ∃ c ∈ set.outlives, c.longer = longer ∧ c.shorter = shorter ∧ c.point = point := by
  rw [set.seen_iff]
  simp [LiveAt.key, Outlives.key]

/-- Sets with the same constraints, over the same graph and lifetimes, have seen the same keys. -/
theorem ext {set other : ConstraintSet} (hgraph : set.graph = other.graph)
    (hlifetimes : set.lifetimes = other.lifetimes) (hlive : set.live = other.live)
    (houtlives : set.outlives = other.outlives) (hfrozen : set.frozen = other.frozen) :
    set = other := by
  have hseen : set.seen = other.seen := by
    have hcontains : set.seen.contains = other.seen.contains := by
      funext key
      rw [Bool.eq_iff_iff, set.seen_iff, other.seen_iff, hlive, houtlives]
    exact congrArg KeySet.mk hcontains
  cases set
  cases other
  simp only at hgraph hlifetimes hlive houtlives hfrozen hseen
  simp [hgraph, hlifetimes, hlive, houtlives, hfrozen, hseen]

/-- Nothing is appended. -/
theorem appendLive_nil (set : ConstraintSet) : set.appendLive [] = set :=
  ext rfl rfl (List.append_nil _) rfl rfl

/-- Constraints on points that are appended in two parts are appended. -/
theorem appendLive_append (set : ConstraintSet) (first rest : List LiveAt) :
    (set.appendLive first).appendLive rest = set.appendLive (first ++ rest) :=
  ext rfl rfl (List.append_assoc _ _ _) rfl rfl

/-- Nothing is appended. -/
theorem appendOutlives_nil (set : ConstraintSet) : set.appendOutlives [] = set :=
  ext rfl rfl rfl (List.append_nil _) rfl

/-- Constraints between regions that are appended in two parts are appended. -/
theorem appendOutlives_append (set : ConstraintSet) (first rest : List Outlives) :
    (set.appendOutlives first).appendOutlives rest = set.appendOutlives (first ++ rest) :=
  ext rfl rfl rfl (List.append_assoc _ _ _) rfl

/-- The open set of some constraints. -/
def ofLists (graph : Graph) (lifetimes : List String) (live : List LiveAt)
    (outlives : List Outlives) : ConstraintSet :=
  ((new graph lifetimes).appendLive live).appendOutlives outlives

/-! ### Additions -/

/-- A constraint may be added to an open set if its lifetimes are those of the set and its point is
one of the graph. -/
theorem check_eq_ok {set : ConstraintSet} {point : Point} {lifetimes : List String} {i : Nat} :
    set.check point lifetimes = .ok i ↔ set.frozen = false ∧
      (∀ lifetime ∈ lifetimes, lifetime ∈ set.lifetimes) ∧ set.graph.index? point = some i := by
  unfold check
  split
  · next hfrozen => simp [hfrozen]
  · next hopen =>
    split
    · next lifetime hfind =>
      have hmem := List.mem_of_find?_eq_some hfind
      have hunknown : lifetime ∉ set.lifetimes := by simpa using List.find?_some hfind
      constructor
      · intro h
        cases h
      · rintro ⟨-, hknown, -⟩
        exact absurd (hknown lifetime hmem) hunknown
    · next hfind =>
      have hknown : ∀ lifetime ∈ lifetimes, lifetime ∈ set.lifetimes := by
        simpa using List.find?_eq_none.1 hfind
      rw [Graph.index_eq_ok]
      constructor
      · exact fun h => ⟨by simpa using hopen, hknown, h⟩
      · exact fun h => h.2.2

/-- What adding a constraint on a point comes to. -/
theorem addLive_cases {set next : ConstraintSet} {lifetime : String} {point : Point}
    {origin : Origin} {added : Bool} (h : set.addLive lifetime point origin = .ok (next, added)) :
    next = set ∨ ∃ i, lifetime ∈ set.lifetimes ∧ set.graph.index? point = some i ∧
      next = set.appendLive [⟨lifetime, point, i, origin⟩] := by
  unfold addLive at h
  obtain ⟨i, hcheck, h⟩ := exists_of_bind_eq_ok h
  obtain ⟨-, hknown, hindex⟩ := check_eq_ok.1 hcheck
  split at h
  · cases h
    exact .inl rfl
  · cases h
    exact .inr ⟨i, hknown lifetime (by simp), hindex, rfl⟩

/-- An open set takes a constraint on a point of the graph that it does not have yet. -/
theorem addLive_new {set : ConstraintSet} {c : LiveAt} (hopen : set.frozen = false)
    (hknown : c.lifetime ∈ set.lifetimes) (hindex : set.graph.index? c.point = some c.index)
    (hnew : ∀ other ∈ set.live, other.lifetime = c.lifetime → other.point ≠ c.point) :
    set.addLive c.lifetime c.point c.origin = .ok (set.appendLive [c], true) := by
  have hcheck : set.check c.point [c.lifetime] = .ok c.index :=
    check_eq_ok.2 ⟨hopen, by simpa using hknown, hindex⟩
  have habsent : ¬set.seen.contains (.live c.lifetime c.point) = true := by
    intro hseen
    obtain ⟨other, hmem, hlifetime, hpoint⟩ := seen_live.1 hseen
    exact hnew other hmem hlifetime hpoint
  unfold addLive
  rw [hcheck]
  simp only [bind, Except.bind, if_neg habsent]
  rfl

/-- What adding a constraint between regions comes to. A constraint that is not added relates a
lifetime with itself, or is there already. -/
theorem addOutlives_cases {set next : ConstraintSet} {longer shorter : String} {point : Point}
    {origin : Origin} {added : Bool}
    (h : set.addOutlives longer shorter point origin = .ok (next, added)) :
    (longer ∈ set.lifetimes ∧ shorter ∈ set.lifetimes) ∧
      ∃ i, set.graph.index? point = some i ∧
        ((next = set ∧ (longer = shorter ∨
          ∃ c ∈ set.outlives, c.longer = longer ∧ c.shorter = shorter ∧ c.point = point)) ∨
        next = set.appendOutlives [⟨longer, shorter, point, i, origin⟩]) := by
  unfold addOutlives at h
  obtain ⟨i, hcheck, h⟩ := exists_of_bind_eq_ok h
  obtain ⟨-, hknown, hindex⟩ := check_eq_ok.1 hcheck
  refine ⟨⟨hknown longer (by simp), hknown shorter (by simp)⟩, i, hindex, ?_⟩
  split at h
  · next hsame =>
    cases h
    exact .inl ⟨rfl, .inl (by simpa using hsame)⟩
  · split at h
    · next hthere =>
      cases h
      exact .inl ⟨rfl, .inr (seen_outlives.1 hthere)⟩
    · cases h
      exact .inr rfl

/-! ### Built sets -/

/-- A set that came about by adding constraints to an empty one and freezing it. A copy of a set is
one too, since it is made by adding constraints. -/
inductive Built : ConstraintSet → Prop where
  /-- The empty set. -/
  | new (graph : Graph) (lifetimes : List String) : Built (.new graph lifetimes)
  /-- One more constraint on a point. -/
  | addLive {set next : ConstraintSet} {lifetime : String} {point : Point} {origin : Origin}
      {added : Bool} :
      Built set → set.addLive lifetime point origin = .ok (next, added) → Built next
  /-- One more constraint between regions. -/
  | addOutlives {set next : ConstraintSet} {longer shorter : String} {point : Point}
      {origin : Origin} {added : Bool} :
      Built set → set.addOutlives longer shorter point origin = .ok (next, added) → Built next
  /-- The set takes no more constraints. -/
  | freeze {set : ConstraintSet} : Built set → Built set.freeze

/-- Adding constraints to a built set gives a built set. -/
theorem Built.addAll {set next : ConstraintSet} {constraints : List Constraint} (h : set.Built)
    (hadd : set.addAll constraints = .ok next) : next.Built := by
  refine foldlM_keeps (fun c _ set next hset hstep => ?_) h hadd
  obtain ⟨⟨_, added⟩, hadded, rfl⟩ := exists_of_map_eq_ok hstep
  cases c with
  | live c => exact hset.addLive hadded
  | outlives c => exact hset.addOutlives hadded

/-- A constraint names lifetimes of the set and carries the number of its point. -/
def Admits (set : ConstraintSet) : Constraint → Prop
  | .live c => c.lifetime ∈ set.lifetimes ∧ set.graph.index? c.point = some c.index
  | .outlives c => c.longer ∈ set.lifetimes ∧ c.shorter ∈ set.lifetimes ∧
      set.graph.index? c.point = some c.index

/-- The constraints on points are listed. -/
theorem mem_toList_live {set : ConstraintSet} {c : LiveAt} :
    .live c ∈ set.toList ↔ c ∈ set.live := by
  simp [toList]

/-- The constraints between regions are listed. -/
theorem mem_toList_outlives {set : ConstraintSet} {c : Outlives} :
    .outlives c ∈ set.toList ↔ c ∈ set.outlives := by
  simp [toList]

/-- A set with one more constraint, which it admits, admits its constraints. -/
theorem admits_of_mem {set next : ConstraintSet} {added : Constraint} (hadded : set.Admits added)
    (h : ∀ c ∈ set.toList, set.Admits c) (hgraph : next.graph = set.graph)
    (hlifetimes : next.lifetimes = set.lifetimes)
    (hmem : ∀ c ∈ next.toList, c ∈ set.toList ∨ c = added) : ∀ c ∈ next.toList, next.Admits c := by
  intro c hc
  have hset : set.Admits c := by
    rcases hmem c hc with hold | rfl
    · exact h c hold
    · exact hadded
  cases c with
  | live c =>
    unfold Admits at hset ⊢
    rwa [hgraph, hlifetimes]
  | outlives c =>
    unfold Admits at hset ⊢
    rwa [hgraph, hlifetimes]

/-- Every constraint of a built set names lifetimes of the set and carries the number of its
point. -/
theorem Built.admits {set : ConstraintSet} (h : set.Built) : ∀ c ∈ set.toList, set.Admits c := by
  induction h with
  | new graph lifetimes =>
    intro c hc
    simp [ConstraintSet.new, toList] at hc
  | @addLive set next lifetime point origin added _ hadd ih =>
    rcases addLive_cases hadd with rfl | ⟨i, hknown, hindex, rfl⟩
    · exact ih
    · have hadmits : set.Admits (.live ⟨lifetime, point, i, origin⟩) := ⟨hknown, hindex⟩
      refine admits_of_mem hadmits ih rfl rfl fun c hc => ?_
      simp only [toList, appendLive, List.map_append, List.mem_append, List.map_cons, List.map_nil,
        List.mem_singleton] at hc ⊢
      rcases hc with (hlive | hnew) | houtlives
      · exact .inl (.inl hlive)
      · exact .inr hnew
      · exact .inl (.inr houtlives)
  | @addOutlives set next longer shorter point origin added _ hadd ih =>
    obtain ⟨⟨hlonger, hshorter⟩, i, hindex, ⟨rfl, -⟩ | rfl⟩ := addOutlives_cases hadd
    · exact ih
    · have hadmits : set.Admits (.outlives ⟨longer, shorter, point, i, origin⟩) :=
        ⟨hlonger, hshorter, hindex⟩
      refine admits_of_mem hadmits ih rfl rfl fun c hc => ?_
      simp only [toList, appendOutlives, List.map_append, List.mem_append, List.map_cons,
        List.map_nil, List.mem_singleton] at hc ⊢
      rcases hc with hlive | houtlives | hnew
      · exact .inl (.inl hlive)
      · exact .inl (.inr houtlives)
      · exact .inr hnew
  | freeze _ ih => exact ih

/-- The lifetime that a constraint of a built set is on is one of the set. -/
theorem Built.target_mem {set : ConstraintSet} (h : set.Built) {c : Constraint}
    (hc : c ∈ set.toList) : c.target ∈ set.lifetimes := by
  have hadmits := h.admits c hc
  cases c with
  | live c => exact hadmits.1
  | outlives c => exact hadmits.1

/-- The lifetime that a constraint of a built set reads is one of the set. -/
theorem Built.source_mem {set : ConstraintSet} (h : set.Built) {c : Constraint}
    (hc : c ∈ set.toList) {lifetime : String} (hsource : c.source? = some lifetime) :
    lifetime ∈ set.lifetimes := by
  have hadmits := h.admits c hc
  cases c with
  | live c => cases hsource
  | outlives c =>
    cases hsource
    exact hadmits.2.1

/-- Different constraints on points of the graph may be added all at once. -/
theorem Built.append_live {set : ConstraintSet} (h : set.Built) (hopen : set.frozen = false)
    {live : List LiveAt} (hknown : ∀ c ∈ live, c.lifetime ∈ set.lifetimes)
    (hindex : ∀ c ∈ live, set.graph.index? c.point = some c.index)
    (hnew : ∀ other ∈ set.live, ∀ c ∈ live, other.lifetime = c.lifetime → other.point ≠ c.point)
    (hdiff : live.Pairwise fun a b => a.lifetime = b.lifetime → a.point ≠ b.point) :
    Built (set.appendLive live) := by
  induction live generalizing set with
  | nil => rwa [appendLive_nil]
  | cons c live ih =>
    obtain ⟨hfirst, hrest⟩ := List.pairwise_cons.1 hdiff
    have hadd := addLive_new hopen (hknown c (by simp)) (hindex c (by simp))
      (fun other hother => hnew other hother c (by simp))
    have hstep := ih (h.addLive hadd) hopen (fun c' hc' => hknown c' (by simp [hc']))
      (fun c' hc' => hindex c' (by simp [hc'])) ?_ hrest
    · rwa [appendLive_append] at hstep
    · intro other hother c' hc'
      rcases List.mem_append.1 hother with hold | hlast
      · exact hnew other hold c' (by simp [hc'])
      · obtain rfl := List.mem_singleton.1 hlast
        exact hfirst c' hc'

end ConstraintSet

end RegionInference
