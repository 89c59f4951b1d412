/-!
# Sorted texts

Sets of texts as sorted lists without repetition. Texts are ordered by their code points.
-/

namespace Widgetry.Text

/-- Adds a text to a sorted list, unless it is there. -/
def insertSorted (s : String) : List String → List String
  | [] => [s]
  | t :: rest => if s = t then t :: rest else if s < t then s :: t :: rest else t :: insertSorted s rest

/-- The texts of a list, sorted, each once. -/
def sortedSet (texts : List String) : List String := texts.foldl (fun set s => insertSorted s set) []

theorem mem_insertSorted {s t : String} {set : List String} :
    t ∈ insertSorted s set ↔ t = s ∨ t ∈ set := by
  induction set with
  | nil => simp [insertSorted]
  | cons u rest ih =>
    rw [insertSorted]
    split
    · next he => simp [he]
    · split
      · exact List.mem_cons
      · rw [List.mem_cons, ih, List.mem_cons]
        exact or_left_comm

theorem mem_sortedSet {t : String} {texts : List String} : t ∈ sortedSet texts ↔ t ∈ texts := by
  have hfold : ∀ texts set : List String,
      t ∈ texts.foldl (fun set s => insertSorted s set) set ↔ t ∈ texts ∨ t ∈ set := by
    intro texts
    induction texts with
    | nil => simp
    | cons s rest ih =>
      intro set
      rw [List.foldl_cons, ih, mem_insertSorted, List.mem_cons, or_assoc, or_left_comm]
  rw [sortedSet, hfold, or_iff_left List.not_mem_nil]

end Widgetry.Text
