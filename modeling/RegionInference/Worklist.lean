/-!
# Worklists

A worklist holds what is still to be processed, each item once.
-/

namespace RegionInference

/-- Appends the items that are not on the list. -/
def enqueue [DecidableEq α] (work : List α) : List α → List α
  | [] => work
  | item :: items => enqueue (if item ∈ work then work else work ++ [item]) items

/-- After new items are queued, the work has the old ones and the new ones. -/
@[simp] theorem mem_enqueue [DecidableEq α] {work items : List α} {item : α} :
    item ∈ enqueue work items ↔ item ∈ work ∨ item ∈ items := by
  induction items generalizing work with
  | nil => simp [enqueue]
  | cons head items ih =>
    simp only [enqueue, ih, List.mem_cons]
    split
    · next hmem =>
      constructor
      · rintro (h | h) <;> simp [h]
      · rintro (h | rfl | h) <;> simp [*]
    · simp only [List.mem_append, List.mem_singleton, or_assoc]

end RegionInference
