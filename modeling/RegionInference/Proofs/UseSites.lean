import Mathlib.Tactic.Tauto
import RegionInference.Loan.Conflict
import RegionInference.Proofs.BodyConstraints
import RegionInference.Proofs.Levels

/-!
# Where a loan is used

An element needs a lifetime if it reads a local whose type has it, or drops a local whose destructor
may touch it (`Body.Needs`). Every local that an element names is declared, so the use sites of an
element can always be found, and they list what it needs (`Liveness.exists_mem_useSites`).

The search for the nearest use of a loan goes through the points in reach. It always ends with an
answer (`Detector.exists_nearestUse`), and if an element in reach needs one of the lifetimes in
question, the answer is such an element (`Detector.nearestUse_needs`). None is nearer, and none that
is as near has a lower number (`Detector.nearestUse_closest`).
-/

namespace RegionInference

/-- Items that are labelled with what a step gives for them. -/
theorem mem_labelled {f : α → Except ε β} {items : List α} {labelled : List (α × β)}
    (h : items.mapM (fun a => do return (a, ← f a)) = .ok labelled) {a : α} {b : β} :
    (a, b) ∈ labelled ↔ a ∈ items ∧ f a = .ok b := by
  constructor
  · intro hmem
    obtain ⟨a', ha', heq⟩ := exists_of_mem_results h hmem
    obtain ⟨b', hb', heq⟩ := exists_of_bind_eq_ok heq
    cases heq
    exact ⟨ha', hb'⟩
  · rintro ⟨hmem, hb⟩
    obtain ⟨pair, hpair, heq⟩ := exists_of_mem_mapM h hmem
    rw [hb] at heq
    cases heq
    exact hpair

/-! ### Maps with one value for each name -/

namespace NameMap

variable {map : NameMap α} {name : String} {value : α}

/-- Setting a name to the value that it has, if it has one, adds the pair. -/
theorem mem_entries_set (hone : ∀ old, (name, old) ∈ map.entries → old = value)
    {entry : String × α} :
    entry ∈ (map.set name value).entries ↔ entry ∈ map.entries ∨ entry = (name, value) := by
  obtain ⟨entries⟩ := map
  simp only [set] at *
  induction entries with
  | nil => simp [setEntries]
  | cons first entries ih =>
    obtain ⟨other, old⟩ := first
    rw [setEntries]
    split
    · next hname =>
      subst hname
      obtain rfl := hone old List.mem_cons_self
      simp only [List.mem_cons]
      tauto
    · have hrest := ih fun old hold => hone old (List.mem_cons_of_mem _ hold)
      rw [List.mem_cons, hrest, List.mem_cons, or_assoc]

/-- A map of pairs in which no name has two values has these pairs. -/
theorem mem_entries_ofList {pairs : List (String × α)}
    (hone : ∀ name a b, (name, a) ∈ pairs → (name, b) ∈ pairs → a = b) {entry : String × α} :
    entry ∈ (ofList pairs).entries ↔ entry ∈ pairs := by
  -- what is in the map already agrees with what is to come
  have hfold : ∀ (pairs : List (String × α)) (map : NameMap α),
      (∀ name a b, (name, a) ∈ map.entries ∨ (name, a) ∈ pairs →
        (name, b) ∈ map.entries ∨ (name, b) ∈ pairs → a = b) →
      (entry ∈ (pairs.foldl (fun map pair => map.set pair.1 pair.2) map).entries ↔
        entry ∈ map.entries ∨ entry ∈ pairs) := by
    intro pairs
    induction pairs with
    | nil => simp
    | cons pair pairs ih =>
      intro map hone
      obtain ⟨name, value⟩ := pair
      have hset : ∀ entry, entry ∈ (map.set name value).entries ↔
          entry ∈ map.entries ∨ entry = (name, value) := fun entry =>
        mem_entries_set fun old hold => hone name old value (.inl hold) (.inr List.mem_cons_self)
      rw [List.foldl_cons, ih, hset, List.mem_cons, or_assoc]
      intro other a b ha hb
      rw [hset, or_assoc, ← List.mem_cons] at ha hb
      exact hone other a b ha hb
  have hofList : ofList pairs = pairs.foldl (fun map pair => map.set pair.1 pair.2) {} := rfl
  rw [hofList, hfold pairs {} (by simpa using hone)]
  simp

end NameMap

/-! ### What elements need -/

namespace Body

variable {body : Body}

/-- An element needs a lifetime: it reads a local whose type has the lifetime, or drops a local
whose destructor may touch it. -/
def Needs (body : Body) (element : Element) (l : String) : Prop :=
  (∃ v ∈ element.uses, ∃ found, body.var v = .ok found ∧ l ∈ found.ty.lifetimes) ∨
    ∃ v ∈ element.drops, ∃ lifetimes, body.nonDangling v = .ok lifetimes ∧ l ∈ lifetimes

/-- Every local that an element names is declared. -/
theorem exists_var {i : Nat} {element : Element} (helement : body.graph.elementAt? i = some element)
    {v : String} (hv : v ∈ element.names) : ∃ found, body.var v = .ok found := by
  obtain ⟨-, -, hvalid, -⟩ := body.faultless
  obtain ⟨point, hpoint⟩ := Graph.exists_point (Graph.lt_size_of_elementAt? helement)
  have hitem := Graph.mem_items.2 ⟨i, hpoint, helement⟩
  have hknown := List.findSome?_eq_none_iff.1 hvalid _ hitem
  have hname := List.find?_eq_none.1 (Option.map_eq_none_iff.1 hknown) v hv
  have hmem : v ∈ body.vars.map Variable.name := by simpa [BodyParts.names] using hname
  obtain ⟨found, hfound, rfl⟩ := List.mem_map.1 hmem
  unfold var
  split
  · exact ⟨_, rfl⟩
  · next hnone =>
    have hne := List.find?_eq_none.1 hnone found hfound
    simp at hne

end Body

namespace Liveness

variable {body : Body} {i : Nat} {element : Element} {sites : NameMap (List String)}

/-- The use sites of an element can be found. -/
theorem exists_useSites (helement : body.graph.elementAt? i = some element) :
    ∃ sites, useSites body element = .ok sites := by
  have hread : ∀ v ∈ element.uses, ∃ entry, (do
      return (v, ← typeLifetimes body v) : Except Fault (String × List String)) = .ok entry := by
    intro v hv
    obtain ⟨found, hfound⟩ := Body.exists_var helement (v := v) (by simp [Element.names, hv])
    exact ⟨(v, found.ty.lifetimes), by rw [typeLifetimes, hfound]; rfl⟩
  have hdropped : ∀ v ∈ element.drops, ∃ entry, (do
      return (v, ← body.nonDangling v) : Except Fault (String × List String)) = .ok entry := by
    intro v hv
    obtain ⟨found, hfound⟩ := Body.exists_var helement (v := v) (by simp [Element.names, hv])
    exact ⟨(v, _), by rw [Body.nonDangling, hfound]; rfl⟩
  obtain ⟨read, hread⟩ := exists_mapM hread
  obtain ⟨dropped, hdropped⟩ := exists_mapM hdropped
  unfold useSites
  rw [hread, hdropped]
  exact ⟨_, rfl⟩

/-- The lifetimes of the use sites of an element are those that it needs. -/
theorem exists_mem_useSites (h : useSites body element = .ok sites) {l : String} :
    (∃ entry ∈ sites.entries, l ∈ entry.2) ↔ body.Needs element l := by
  unfold useSites at h
  obtain ⟨read, hread, h⟩ := exists_of_bind_eq_ok h
  obtain ⟨dropped, hdropped, h⟩ := exists_of_bind_eq_ok h
  generalize hpairs : (read ++ dropped.filter fun site =>
    !site.2.isEmpty && site.1 ∉ element.uses) = pairs
  have hsites : .ofList pairs = sites := hpairs ▸ Except.ok.inj h
  subst hsites
  have hsite : ∀ v needed, (v, needed) ∈ pairs ↔
      (v ∈ element.uses ∧ typeLifetimes body v = .ok needed) ∨
        (v ∈ element.drops ∧ v ∉ element.uses ∧ needed ≠ [] ∧
          body.nonDangling v = .ok needed) := by
    intro v needed
    rw [← hpairs, List.mem_append, List.mem_filter, mem_labelled hread, mem_labelled hdropped]
    simp only [Bool.and_eq_true, Bool.not_eq_true', List.isEmpty_eq_false_iff, decide_eq_true_eq]
    tauto
  -- a local has one site: its drop is left out where it is also read
  have hone : ∀ v a b, (v, a) ∈ pairs → (v, b) ∈ pairs → a = b := by
    intro v a b ha hb
    rw [hsite] at ha hb
    rcases ha with ⟨hused, ha⟩ | ⟨-, hfresh, -, ha⟩
    · rcases hb with ⟨-, hb⟩ | ⟨-, hfresh, -⟩
      · exact Except.ok.inj (ha.symm.trans hb)
      · exact absurd hused hfresh
    · rcases hb with ⟨hused, -⟩ | ⟨-, -, -, hb⟩
      · exact absurd hused hfresh
      · exact Except.ok.inj (ha.symm.trans hb)
  constructor
  · rintro ⟨⟨v, needed⟩, hentry, hl⟩
    rw [NameMap.mem_entries_ofList hone, hsite] at hentry
    rcases hentry with ⟨hused, htype⟩ | ⟨hdrop, -, -, hneeded⟩
    · obtain ⟨found, hfound, rfl⟩ := exists_of_map_eq_ok htype
      exact .inl ⟨v, hused, found, hfound, hl⟩
    · exact .inr ⟨v, hdrop, needed, hneeded, hl⟩
  · rintro (⟨v, hused, found, hfound, hl⟩ | ⟨v, hdrop, needed, hneeded, hl⟩)
    · refine ⟨(v, found.ty.lifetimes), ?_, hl⟩
      rw [NameMap.mem_entries_ofList hone, hsite]
      exact .inl ⟨hused, by rw [typeLifetimes, hfound]; rfl⟩
    · by_cases hused : v ∈ element.uses
      · -- the site of the read has all lifetimes of the type
        obtain ⟨found, hfound, rfl⟩ := exists_of_map_eq_ok hneeded
        refine ⟨(v, found.ty.lifetimes), ?_, (List.mem_filter.1 hl).1⟩
        rw [NameMap.mem_entries_ofList hone, hsite]
        exact .inl ⟨hused, by rw [typeLifetimes, hfound]; rfl⟩
      · refine ⟨(v, needed), ?_, hl⟩
        rw [NameMap.mem_entries_ofList hone, hsite]
        exact .inr ⟨hdrop, hused, List.ne_nil_of_mem hl, hneeded⟩

end Liveness

/-! ### The nearest use -/

namespace Detector

variable {body : Body} {carriers : NameSet} {i : Nat}

/-- Whether a lifetime is needed at a point can be found out. -/
theorem exists_usedAt (body : Body) (carriers : NameSet) (i : Nat) :
    ∃ used, usedAt body carriers i = .ok used := by
  unfold usedAt
  split
  · exact ⟨false, rfl⟩
  · next element helement =>
    obtain ⟨sites, hsites⟩ := Liveness.exists_useSites helement
    rw [hsites]
    exact ⟨_, rfl⟩

/-- A point is a use iff the element there needs one of the lifetimes. -/
theorem usedAt_eq_true : usedAt body carriers i = .ok true ↔
    ∃ element, body.graph.elementAt? i = some element ∧ ∃ l ∈ carriers, body.Needs element l := by
  unfold usedAt
  cases helement : body.graph.elementAt? i with
  | none => simp
  | some element =>
    obtain ⟨sites, hsites⟩ := Liveness.exists_useSites helement
    have hany : (sites.entries.any fun site => site.2.any (· ∈ carriers)) = true ↔
        ∃ l ∈ carriers, body.Needs element l := by
      simp only [← Liveness.exists_mem_useSites hsites, List.any_eq_true, decide_eq_true_eq]
      constructor
      · rintro ⟨entry, hentry, l, hl, hcarrier⟩
        exact ⟨l, hcarrier, entry, hentry, hl⟩
      · rintro ⟨l, hcarrier, entry, hentry, hl⟩
        exact ⟨entry, hentry, l, hl, hcarrier⟩
    simp only [hsites, Except.map, Except.ok.injEq, Option.some.injEq, exists_eq_left']
    exact hany

/-- The first use among some points can be looked for. -/
theorem exists_firstUse (body : Body) (carriers : NameSet) (points : List Nat) :
    ∃ found, firstUse body carriers points = .ok found := by
  induction points with
  | nil => exact ⟨none, rfl⟩
  | cons i points ih =>
    obtain ⟨used, hused⟩ := exists_usedAt body carriers i
    rw [firstUse, hused]
    cases used with
    | true => exact ⟨some i, rfl⟩
    | false => exact ih

/-- The first use is one of the points that are uses, and there is one if any point is. -/
theorem firstUse_eq_ok {points : List Nat} {found : Option Nat}
    (h : firstUse body carriers points = .ok found) :
    (∀ i, found = some i → i ∈ points ∧ usedAt body carriers i = .ok true) ∧
      (found = none → ∀ i ∈ points, usedAt body carriers i ≠ .ok true) := by
  induction points with
  | nil =>
    cases h
    simp
  | cons i points ih =>
    rw [firstUse] at h
    obtain ⟨used, hused, h⟩ := exists_of_bind_eq_ok h
    cases used with
    | true =>
      cases h
      simp [hused]
    | false =>
      obtain ⟨hsome, hnone⟩ := ih h
      constructor
      · intro j hj
        exact ⟨List.mem_cons_of_mem _ (hsome j hj).1, (hsome j hj).2⟩
      · intro hfound j hj
        rcases List.mem_cons.1 hj with rfl | hrest
        · simp [hused]
        · exact hnone hfound j hrest

/-- No point before the first use is a use. -/
theorem firstUse_eq_some {points : List Nat} {k : Nat}
    (h : firstUse body carriers points = .ok (some k)) :
    ∃ before after, points = before ++ k :: after ∧ usedAt body carriers k = .ok true ∧
      ∀ i ∈ before, usedAt body carriers i ≠ .ok true := by
  induction points with
  | nil => cases h
  | cons i points ih =>
    rw [firstUse] at h
    obtain ⟨used, hused, h⟩ := exists_of_bind_eq_ok h
    cases used with
    | true =>
      cases h
      exact ⟨[], points, rfl, hused, by simp⟩
    | false =>
      obtain ⟨before, after, rfl, hk, hbefore⟩ := ih h
      refine ⟨i :: before, after, rfl, hk, fun j hj => ?_⟩
      rcases List.mem_cons.1 hj with rfl | hrest
      · simp [hused]
      · exact hbefore j hrest

variable {detector : Detector} {start : Point} {active : PointSet}

/-- The nearest use can be looked for from any point of the graph. -/
theorem exists_nearestUse (carriers : NameSet) (active : PointSet)
    (hstart : detector.graph.index? start = some i) :
    ∃ use, detector.nearestUse carriers start active = .ok use := by
  unfold nearestUse
  rw [Graph.index_eq_ok.2 hstart]
  simp only [bind, Except.bind]
  split
  · next fault hfault =>
    obtain ⟨found, hfound⟩ := exists_firstUse detector.body carriers _
    rw [hfound] at hfault
    cases hfault
  · exact ⟨_, rfl⟩

/-- If a use can be reached through active points, then a use that can be reached is found. -/
theorem nearestUse_needs {use : Option Point} (hstart : detector.graph.index? start = some i)
    (hi : i ∈ active) (h : detector.nearestUse carriers start active = .ok use) {j : Nat}
    (hreached : detector.graph.ReachedWithin active i j)
    (hused : usedAt detector.body carriers j = .ok true) :
    ∃ point k, use = some point ∧ detector.graph.index? point = some k ∧
      detector.graph.ReachedWithin active i k ∧ usedAt detector.body carriers k = .ok true := by
  unfold nearestUse at h
  obtain ⟨_, hindex, h⟩ := exists_of_bind_eq_ok h
  rw [Graph.index_eq_ok.2 hstart] at hindex
  cases hindex
  obtain ⟨found, hfound, h⟩ := exists_of_bind_eq_ok h
  cases h
  obtain ⟨hsome, hnone⟩ := firstUse_eq_ok hfound
  cases found with
  | none => exact absurd hused (hnone rfl j ((Graph.mem_visits_iff_reached hi).2 hreached))
  | some k =>
    obtain ⟨hk, hkused⟩ := hsome k rfl
    obtain ⟨element, helement, -⟩ := usedAt_eq_true.1 hkused
    obtain ⟨point, hpoint⟩ := Graph.exists_point (Graph.lt_size_of_elementAt? helement)
    exact ⟨point, k, Graph.index?_eq_some.1 hpoint, hpoint,
      (Graph.mem_visits_iff_reached hi).1 hk, hkused⟩

/-- Point `k` is a use, so many steps through active points away from point `i` and no fewer. -/
def UseAt (detector : Detector) (carriers : NameSet) (active : PointSet) (i d k : Nat) : Prop :=
  Search.Distance detector.graph.succ active (PointSet.single i).toList d k ∧
    usedAt detector.body carriers k = .ok true

/-- No use is nearer than the one that is found, none at its distance has a lower number, and if
none is found there is none. -/
theorem nearestUse_closest {use : Option Point} (hstart : detector.graph.index? start = some i)
    (h : detector.nearestUse carriers start active = .ok use) :
    (use = none ∧ ∀ d k, ¬detector.UseAt carriers active i d k) ∨
      ∃ point k d, use = some point ∧ detector.graph.index? point = some k ∧
        detector.UseAt carriers active i d k ∧
        ∀ d' k', detector.UseAt carriers active i d' k' → d < d' ∨ d = d' ∧ k ≤ k' := by
  unfold nearestUse at h
  obtain ⟨_, hindex, h⟩ := exists_of_bind_eq_ok h
  rw [Graph.index_eq_ok.2 hstart] at hindex
  cases hindex
  obtain ⟨found, hfound, h⟩ := exists_of_bind_eq_ok h
  cases h
  cases found with
  | none =>
    refine .inl ⟨rfl, fun d k huse => ?_⟩
    obtain ⟨visit, hvisit, rfl⟩ := Graph.mem_visits.2 huse.1
    exact (firstUse_eq_ok hfound).2 rfl _ (List.mem_map.2 ⟨_, hvisit, rfl⟩) huse.2
  | some k =>
    obtain ⟨before, after, hpoints, hused, hbefore⟩ := firstUse_eq_some hfound
    -- the visits are split where the use is found, and those after it come later in the order
    obtain ⟨earlier, later, hvisits, rfl, hlater⟩ := List.map_eq_append_iff.1 hpoints
    obtain ⟨⟨visit, d⟩, rest, rfl, rfl, -⟩ := List.map_eq_cons_iff.1 hlater
    have hsorted := detector.graph.pairwise_visits (.single i) active
    rw [hvisits] at hsorted
    have hvisit : (visit, d) ∈ detector.graph.visits (.single i) active := by
      rw [hvisits]
      exact List.mem_append_right _ List.mem_cons_self
    obtain ⟨element, helement, -⟩ := usedAt_eq_true.1 hused
    obtain ⟨point, hpoint⟩ := Graph.exists_point (Graph.lt_size_of_elementAt? helement)
    refine .inr ⟨point, visit.point, d, Graph.index?_eq_some.1 hpoint, hpoint,
      ⟨Graph.mem_visits.1 ⟨visit, hvisit, rfl⟩, hused⟩, fun d' k' huse' => ?_⟩
    obtain ⟨visit', hvisit', rfl⟩ := Graph.mem_visits.2 huse'.1
    rw [hvisits] at hvisit'
    rcases List.mem_append.1 hvisit' with hearlier | hrest
    · exact absurd huse'.2 (hbefore _ (List.mem_map.2 ⟨_, hearlier, rfl⟩))
    · rcases List.mem_cons.1 hrest with hsame | hafter
      · cases hsame
        exact .inr ⟨rfl, Nat.le_refl _⟩
      · have hsuffix := (List.pairwise_append.1 hsorted).2.1
        exact ((List.pairwise_cons.1 hsuffix).1 _ hafter).imp_right (And.imp_right Nat.le_of_lt)

end Detector

end RegionInference
