import RegionInference.Graph.Reach

/-!
# What is reached within a set

The search behind `Graph.reachWithin` takes points out of the set of unseen ones as it meets them.
It is exact (`Graph.mem_reachWithin`): a point is reached from a start within a set iff a path of
steps leads to it that never leaves the set.

From this follow the laws of the relation "what is reached from `q` within `b` lies in `a`", which
orders sets of points at a point `q`: it is reflexive, and it is transitive because the points of a
path within the smallest set lie in the middle one (`Graph.reachWithin_subset_trans`).
-/

namespace RegionInference

namespace PointSet

/-! ### The points of a set -/

/-- The points of a set are listed by number. -/
theorem pairwise_toList (set : PointSet) : set.toList.Pairwise (· < ·) :=
  List.pairwise_lt_range.filter _

/-- No member of a set is listed twice. -/
theorem nodup_toList (set : PointSet) : set.toList.Nodup :=
  set.pairwise_toList.imp Nat.ne_of_lt

/-! ### Taking points out of a set -/

/-- The points taken out of a set are those of the list that are in it. -/
theorem mem_withdraw_fst {set : PointSet} {points : List Nat} {j : Nat} :
    j ∈ (set.withdraw points).1 ↔ j ∈ points ∧ j ∈ set := by
  induction points generalizing set with
  | nil => simp [withdraw]
  | cons i points ih =>
    unfold withdraw
    split
    · next hi =>
      simp only [List.mem_cons, ih, mem_erase]
      by_cases hj : j = i
      · subst hj
        simp [hi]
      · simp [hj]
    · next hi =>
      rw [ih, List.mem_cons]
      constructor
      · exact fun h => ⟨.inr h.1, h.2⟩
      · rintro ⟨rfl | hmem, hset⟩
        · exact absurd hset hi
        · exact ⟨hmem, hset⟩

/-- What is left of a set are its points outside the list. -/
theorem mem_withdraw_snd {set : PointSet} {points : List Nat} {j : Nat} :
    j ∈ (set.withdraw points).2 ↔ j ∈ set ∧ j ∉ points := by
  induction points generalizing set with
  | nil => simp [withdraw]
  | cons i points ih =>
    unfold withdraw
    split
    · simp only [ih, mem_erase, List.mem_cons, not_or, and_assoc]
    · next hi =>
      rw [ih, List.mem_cons, not_or]
      constructor
      · exact fun h => ⟨h.1, fun heq => hi (heq ▸ h.1), h.2⟩
      · exact fun h => ⟨h.1, h.2.2⟩

end PointSet

/-! ### The search -/

/-- A path of steps leads from a pending point to a point, and all its points after the pending one
are unseen. -/
inductive Met (next : Nat → List Nat) (unseen : PointSet) (pending : List Nat) : Nat → Prop where
  /-- One step from a pending point. -/
  | first {i j : Nat} : i ∈ pending → j ∈ next i → j ∈ unseen → Met next unseen pending j
  /-- One more step. -/
  | later {i j : Nat} :
      Met next unseen pending i → j ∈ next i → j ∈ unseen → Met next unseen pending j

/-- From nothing, nothing is met. -/
theorem not_met_nil {next : Nat → List Nat} {unseen : PointSet} {j : Nat} :
    ¬Met next unseen [] j := by
  intro h
  induction h with
  | first hmem => cases hmem
  | later _ _ _ ih => exact ih

/-- Processing a pending point: what is met is met in one step from it, or is met later, when the
points of that step are pending and no longer unseen. -/
theorem met_cons {next : Nat → List Nat} {unseen : PointSet} {i : Nat} {pending : List Nat}
    {j : Nat} :
    Met next unseen (i :: pending) j ↔ (j ∈ next i ∧ j ∈ unseen) ∨
      Met next (unseen.withdraw (next i)).2 ((unseen.withdraw (next i)).1 ++ pending) j := by
  constructor
  · intro h
    induction h with
    | @first k j hk hstep hunseen =>
      by_cases hj : j ∈ next i
      · exact .inl ⟨hj, hunseen⟩
      · rcases List.mem_cons.1 hk with rfl | hk
        · exact absurd hstep hj
        · exact .inr (.first (List.mem_append_right _ hk) hstep
            (PointSet.mem_withdraw_snd.2 ⟨hunseen, hj⟩))
    | @later k j _ hstep hunseen ih =>
      by_cases hj : j ∈ next i
      · exact .inl ⟨hj, hunseen⟩
      · have hleft := PointSet.mem_withdraw_snd.2 ⟨hunseen, hj⟩
        rcases ih with hk | hk
        · exact .inr (.first (List.mem_append_left _ (PointSet.mem_withdraw_fst.2 hk)) hstep hleft)
        · exact .inr (.later hk hstep hleft)
  · rintro (⟨hj, hunseen⟩ | h)
    · exact .first List.mem_cons_self hj hunseen
    · induction h with
      | @first k j hk hstep hleft =>
        have hunseen := (PointSet.mem_withdraw_snd.1 hleft).1
        rcases List.mem_append.1 hk with hk | hk
        · obtain ⟨hk, hkunseen⟩ := PointSet.mem_withdraw_fst.1 hk
          exact .later (.first List.mem_cons_self hk hkunseen) hstep hunseen
        · exact .first (List.mem_cons_of_mem _ hk) hstep hunseen
      | later _ hstep hleft ih => exact .later ih hstep (PointSet.mem_withdraw_snd.1 hleft).1

/-- The search leaves exactly the unseen points that are not met. -/
theorem mem_unreached {next : Nat → List Nat} {pending : List Nat} {unseen : PointSet} {j : Nat} :
    j ∈ unreached next pending unseen ↔ j ∈ unseen ∧ ¬Met next unseen pending j := by
  fun_induction unreached next pending unseen with
  | case1 unseen => simp [not_met_nil]
  | case2 unseen i pending found ih =>
    rw [ih, met_cons, PointSet.mem_withdraw_snd, not_or]
    constructor
    · rintro ⟨⟨hunseen, hj⟩, hmet⟩
      exact ⟨hunseen, fun h => hj h.1, hmet⟩
    · rintro ⟨hunseen, hj, hmet⟩
      exact ⟨⟨hunseen, fun h => hj ⟨h, hunseen⟩⟩, hmet⟩

namespace Graph

/-! ### Paths -/

/-- The numbers `p 0` to `p k` are those of a path: each point may follow the one before. -/
def IsPath (g : Graph) (p : Nat → Nat) (k : Nat) : Prop :=
  ∀ i < k, p (i + 1) ∈ g.succ (p i)

/-- A path that never leaves a set leads from the start to a point. -/
inductive ReachedWithin (g : Graph) (barrier : PointSet) (start : Nat) : Nat → Prop where
  /-- The path of no steps. -/
  | start : start ∈ barrier → ReachedWithin g barrier start start
  /-- One more step. -/
  | step {i j : Nat} : ReachedWithin g barrier start i → j ∈ g.succ i → j ∈ barrier →
      ReachedWithin g barrier start j

/-- What is reached within a set is in the set. -/
theorem ReachedWithin.mem {g : Graph} {barrier : PointSet} {start j : Nat}
    (h : g.ReachedWithin barrier start j) : j ∈ barrier := by
  cases h with
  | start h => exact h
  | step _ _ h => exact h

/-- Where anything is reached within a set, the start is in the set. -/
theorem ReachedWithin.start_mem {g : Graph} {barrier : PointSet} {start j : Nat}
    (h : g.ReachedWithin barrier start j) : start ∈ barrier := by
  induction h with
  | start h => exact h
  | step _ _ _ ih => exact ih

/-- Apart from the start, what is reached within a set is what the search meets. -/
theorem reachedWithin_iff_met {g : Graph} {barrier : PointSet} {start j : Nat}
    (hstart : start ∈ barrier) :
    g.ReachedWithin barrier start j ↔ j = start ∨ Met g.succ (barrier.erase start) [start] j := by
  constructor
  · intro h
    induction h with
    | start => exact .inl rfl
    | @step i j _ hstep hj ih =>
      by_cases heq : j = start
      · exact .inl heq
      · have hunseen := PointSet.mem_erase.2 ⟨hj, heq⟩
        rcases ih with rfl | hmet
        · exact .inr (.first List.mem_cons_self hstep hunseen)
        · exact .inr (.later hmet hstep hunseen)
  · rintro (rfl | h)
    · exact .start hstart
    · induction h with
      | first hi hstep hj =>
        obtain rfl := List.mem_singleton.1 hi
        exact .step (.start hstart) hstep (PointSet.mem_erase.1 hj).1
      | later _ hstep hj ih => exact .step ih hstep (PointSet.mem_erase.1 hj).1

/-- A point is reached within a set iff a path leads to it that never leaves the set. -/
theorem mem_reachWithin {g : Graph} {start : Nat} {barrier : PointSet} {j : Nat} :
    j ∈ g.reachWithin start barrier ↔ g.ReachedWithin barrier start j := by
  unfold reachWithin
  split
  · next hstart =>
    rw [PointSet.mem_diff, mem_unreached, reachedWithin_iff_met hstart, PointSet.mem_erase]
    by_cases heq : j = start
    · subst heq
      simp [hstart]
    · constructor
      · rintro ⟨hj, hnot⟩
        exact .inr (Classical.byContradiction fun hmet => hnot ⟨⟨hj, heq⟩, hmet⟩)
      · rintro (h | hmet)
        · exact absurd h heq
        · refine ⟨?_, fun h => h.2 hmet⟩
          exact ((reachedWithin_iff_met hstart).2 (.inr hmet)).mem
  · next hstart =>
    constructor
    · intro h
      simp at h
    · exact fun h => absurd h.start_mem hstart

/-! ### Laws -/

/-- A greater set lets more be reached. -/
theorem reachWithin_mono {g : Graph} {q : Nat} {s t : PointSet} (h : ∀ i, i ∈ s → i ∈ t) {i : Nat}
    (hi : i ∈ g.reachWithin q s) : i ∈ g.reachWithin q t := by
  rw [mem_reachWithin] at hi ⊢
  induction hi with
  | start hq => exact .start (h _ hq)
  | step _ hstep hj ih => exact .step ih hstep (h _ hj)

/-- What is reached from `q` within `s` is reached within every set that contains all of it. -/
theorem reachWithin_of_subset {g : Graph} {q : Nat} {s t : PointSet}
    (h : ∀ i, i ∈ g.reachWithin q s → i ∈ t) {i : Nat} (hi : i ∈ g.reachWithin q s) :
    i ∈ g.reachWithin q t := by
  rw [mem_reachWithin] at hi
  induction hi with
  | start hq => exact mem_reachWithin.2 (.start (h _ (mem_reachWithin.2 (.start hq))))
  | step hreach hstep hj ih =>
    have hmem := h _ (mem_reachWithin.2 (.step hreach hstep hj))
    exact mem_reachWithin.2 (.step (mem_reachWithin.1 ih) hstep hmem)

/-- Containing what is reached from `q` within a set is transitive. -/
theorem reachWithin_subset_trans {g : Graph} {q : Nat} {a b c : PointSet}
    (hab : ∀ i, i ∈ g.reachWithin q b → i ∈ a) (hbc : ∀ i, i ∈ g.reachWithin q c → i ∈ b) :
    ∀ i, i ∈ g.reachWithin q c → i ∈ a :=
  fun i hi => hab i (reachWithin_of_subset hbc hi)

/-- On a path, a part that lies within a set is reached within the set from its start. -/
theorem IsPath.mem_reachWithin {g : Graph} {p : Nat → Nat} {k i j : Nat} {barrier : PointSet}
    (hpath : g.IsPath p k) (hij : i ≤ j) (hjk : j ≤ k)
    (h : ∀ m, i ≤ m → m ≤ j → p m ∈ barrier) : p j ∈ g.reachWithin (p i) barrier := by
  rw [Graph.mem_reachWithin]
  induction hij with
  | refl => exact .start (h i (Nat.le_refl i) (Nat.le_refl i))
  | @step j hij ih =>
    have hbefore := ih (by omega) fun m hm hmj => h m hm (by omega)
    exact .step hbefore (hpath j (by omega)) (h (j + 1) (Nat.le_succ_of_le hij) (Nat.le_refl _))

end Graph

end RegionInference
