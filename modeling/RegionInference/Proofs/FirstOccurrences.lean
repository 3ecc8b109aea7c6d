import Mathlib.Data.List.Basic
import Mathlib.Data.List.Induction

/-!
# First occurrences in lists

Names, keys and lifetimes are listed once each, where they occur first. Two descriptions of such a
list are in use. Reading from the front, `eraseDups` keeps the items in the order of their first
occurrences (`pairwise_idxOf_eraseDups`), so no item is there twice (`nodup_eraseDups`). Reading to
the end, one more item is kept unless a kept one is related to it (`eraseDupsBy_concat`); this is
how a list that grows by one item at a time is compared with the items that were given.
-/

namespace RegionInference

/-! ### Items that repeat -/

section Repetitions

variable {α : Type} [BEq α] [LawfulBEq α] {a b : α}

/-- Leaving out other items does not change which of two items occurs first. -/
theorem idxOf_lt_of_filter {p : α → Bool} (ha : p a = true) (hb : p b = true) {items : List α}
    (h : (items.filter p).idxOf a < (items.filter p).idxOf b) :
    items.idxOf a < items.idxOf b := by
  induction items with
  | nil => simp at h
  | cons item items ih =>
    by_cases hitem : p item = true
    · rw [List.filter_cons_of_pos hitem] at h
      simp only [List.idxOf_cons] at h ⊢
      by_cases hea : (item == a) = true
      · by_cases heb : (item == b) = true
        · simp [hea, heb] at h
        · simp [hea, heb]
      · by_cases heb : (item == b) = true
        · simp [hea, heb] at h
        · simp only [hea, heb, cond_false] at h ⊢
          exact Nat.succ_lt_succ (ih (Nat.lt_of_succ_lt_succ h))
    · have hne (c : α) (hc : p c = true) : (item == c) = false := by
        rw [beq_eq_false_iff_ne]
        rintro rfl
        exact hitem hc
      rw [List.filter_cons_of_neg hitem] at h
      simp only [List.idxOf_cons, hne a ha, hne b hb, cond_false]
      exact Nat.succ_lt_succ (ih h)

/-- Once repetitions are left out, items stand in the order in which they occurred first. -/
theorem pairwise_idxOf_eraseDups : (items : List α) →
    items.eraseDups.Pairwise fun a b => items.idxOf a < items.idxOf b
  | [] => by simp
  | item :: items => by
    have hne : ∀ a ∈ (items.filter fun b => !b == item).eraseDups, (!a == item) = true := by
      intro a ha
      exact (List.mem_filter.1 (List.mem_eraseDups.1 ha)).2
    have hlater : ∀ a ∈ (items.filter fun b => !b == item).eraseDups,
        (item :: items).idxOf a = items.idxOf a + 1 := by
      intro a ha
      apply List.idxOf_cons_ne
      rintro rfl
      simpa using hne _ ha
    rw [List.eraseDups_cons, List.pairwise_cons]
    constructor
    · intro a ha
      rw [hlater a ha, List.idxOf_cons_self]
      exact Nat.succ_pos _
    · refine (pairwise_idxOf_eraseDups (items.filter fun b => !b == item)).imp_of_mem ?_
      intro a b ha hb hlt
      rw [hlater a ha, hlater b hb]
      apply Nat.succ_lt_succ
      exact idxOf_lt_of_filter (p := fun b => !b == item) (hne a ha) (hne b hb) hlt
termination_by items => items.length
decreasing_by exact Nat.lt_succ_of_le (List.length_filter_le _ _)

/-- Once repetitions are left out, each item of a list is there once. -/
theorem nodup_eraseDups (items : List α) : items.eraseDups.Nodup := by
  refine (pairwise_idxOf_eraseDups items).imp fun {a b} hlt => ?_
  rintro rfl
  exact Nat.lt_irrefl _ hlt

/-- A list without repetitions keeps all its items. -/
theorem eraseDups_of_nodup {items : List α} (h : items.Nodup) : items.eraseDups = items := by
  induction items with
  | nil => rfl
  | cons item items ih =>
    obtain ⟨hnew, hrest⟩ := List.nodup_cons.1 h
    have hfilter : items.filter (fun other => !other == item) = items :=
      List.filter_eq_self.2 fun other hother => by
        simpa using fun heq : other = item => hnew (heq ▸ hother)
    rw [List.eraseDups_cons, hfilter, ih hrest]

end Repetitions

/-! ### Items that are related -/

section Relations

variable {α : Type} {r : α → α → Bool}

/-- One more item is kept unless a kept one is related to it. -/
theorem eraseDupsBy_concat (items : List α) (item : α) :
    (items ++ [item]).eraseDupsBy r =
      if (items.eraseDupsBy r).any (r item) then items.eraseDupsBy r
      else items.eraseDupsBy r ++ [item] := by
  -- the loop carries what it keeps, so the statement is about any such list
  have hloop : ∀ (items kept : List α), List.eraseDupsBy.loop r (items ++ [item]) kept =
      if (List.eraseDupsBy.loop r items kept).any (r item) then List.eraseDupsBy.loop r items kept
      else List.eraseDupsBy.loop r items kept ++ [item] := by
    intro items
    induction items with
    | nil =>
      intro kept
      simp only [List.nil_append, List.eraseDupsBy.loop, List.any_reverse]
      cases kept.any (r item) <;> simp
    | cons first items ih =>
      intro kept
      simp only [List.cons_append, List.eraseDupsBy.loop]
      by_cases hany : kept.any (r first) = true
      · simpa only [hany] using ih kept
      · simpa only [hany] using ih (first :: kept)
  exact hloop items []

/-- No item that is kept is related to one before it. -/
theorem pairwise_eraseDupsBy (items : List α) :
    (items.eraseDupsBy r).Pairwise fun a b => r b a = false := by
  induction items using List.reverseRecOn with
  | nil => exact List.Pairwise.nil
  | append_singleton items item ih =>
    rw [eraseDupsBy_concat]
    split
    · exact ih
    · next hnew =>
      refine List.pairwise_append.2 ⟨ih, List.pairwise_singleton _ _, fun a ha b hb => ?_⟩
      obtain rfl := List.mem_singleton.1 hb
      exact Bool.eq_false_iff.2 fun hrel => hnew (List.any_eq_true.2 ⟨a, ha, hrel⟩)

/-- What is kept was there. -/
theorem mem_of_mem_eraseDupsBy {items : List α} {a : α} (h : a ∈ items.eraseDupsBy r) :
    a ∈ items := by
  induction items using List.reverseRecOn with
  | nil => exact h
  | append_singleton items item ih =>
    rw [eraseDupsBy_concat] at h
    split at h
    · exact List.mem_append_left _ (ih h)
    · exact (List.mem_append.1 h).elim (fun hold => List.mem_append_left _ (ih hold))
        (List.mem_append_right _)

end Relations

end RegionInference
