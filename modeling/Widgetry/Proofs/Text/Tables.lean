import Widgetry.Text.Numeral
import Mathlib.Data.List.Pairwise

/-!
# Tables of characters

A table holds the bounds of its intervals in ascending order, and a character is searched for by
halving. What the search finds out is how many bounds lie at or below the character, so a character
of the table lies in one of the intervals, and one that lies between two of them is not in it.

> `contains_iff`: a character is in a table exactly if the number of those bounds is odd;
> `isLetter_of_isDigit`: no digit is a letter, in any script.
-/

namespace Widgetry.Text

namespace Ranges

/-- How many of some bounds lie at or below a code point. -/
def countUpTo (bounds : List Nat) (c : Nat) : Nat := bounds.countP (· ≤ c)

/-- Whether the bounds of a table ascend. -/
def Ascending (r : Ranges) : Prop := r.bounds.toList.Pairwise (· < ·)

/-- Bounds that ascend from each to the next ascend. -/
theorem ascending_of_chain {r : Ranges} (h : r.bounds.toList.IsChain (· < ·)) : r.Ascending :=
  List.isChain_iff_pairwise.mp h

variable {r : Ranges} {c low high : Nat}

theorem Ascending.le (h : r.Ascending) {i j : Nat} (hij : i ≤ j) (hj : j < r.bounds.size) :
    r.bounds.getD i 0 ≤ r.bounds.getD j 0 := by
  have hi : i < r.bounds.size := Nat.lt_of_le_of_lt hij hj
  rcases Nat.eq_or_lt_of_le hij with rfl | hlt
  · exact Nat.le_refl _
  · have hlt := List.pairwise_iff_getElem.mp h i j hi hj hlt
    simpa [Array.getD, hi, hj] using Nat.le_of_lt hlt

/-- If all bounds before an index lie at or below the code point and all others above it, the index
is their number. -/
theorem countUpTo_eq (hlow : low ≤ r.bounds.size)
    (hbelow : ∀ i < low, r.bounds.getD i 0 ≤ c)
    (habove : ∀ i, low ≤ i → i < r.bounds.size → c < r.bounds.getD i 0) :
    countUpTo r.bounds.toList c = low := by
  have hat : ∀ i (hi : i < r.bounds.toList.length), r.bounds.getD i 0 = r.bounds.toList[i] := by
    intro i hi
    simp [Array.getD, Array.length_toList ▸ hi]
  rw [countUpTo, ← List.take_append_drop low r.bounds.toList, List.countP_append,
    List.countP_eq_length.mpr, List.countP_eq_zero.mpr, List.length_take, Array.length_toList]
  · omega
  · intro b hb
    obtain ⟨i, hi, rfl⟩ := List.mem_iff_getElem.mp hb
    rw [List.length_drop, Array.length_toList] at hi
    have hgt := habove (low + i) (Nat.le_add_right _ _) (by omega)
    rw [hat _ (by rw [Array.length_toList]; omega)] at hgt
    simpa using hgt
  · intro b hb
    obtain ⟨i, hi, rfl⟩ := List.mem_iff_getElem.mp hb
    rw [List.length_take, Array.length_toList] at hi
    have hle := hbelow i (by omega)
    rw [hat _ (by rw [Array.length_toList]; omega)] at hle
    simpa using hle

/-- The search counts. -/
theorem rank_eq (h : r.Ascending) (hle : low ≤ high) (hhigh : high ≤ r.bounds.size)
    (hbelow : ∀ i < low, r.bounds.getD i 0 ≤ c)
    (habove : ∀ i, high ≤ i → i < r.bounds.size → c < r.bounds.getD i 0) :
    r.rank c low high = countUpTo r.bounds.toList c := by
  fun_induction rank r c low high with
  | case1 low high hlt middle hmiddle ih =>
    refine ih (by omega) hhigh (fun i hi => ?_) habove
    have hi : i ≤ middle := Nat.le_of_lt_succ hi
    exact Nat.le_trans (h.le hi (by omega)) hmiddle
  | case2 low high hlt middle hmiddle ih =>
    refine ih (by omega) (by omega) hbelow fun i hi hsize => ?_
    exact Nat.lt_of_lt_of_le (Nat.lt_of_not_le hmiddle) (h.le hi hsize)
  | case3 low high hlt =>
    obtain rfl : low = high := by omega
    exact (countUpTo_eq hhigh hbelow habove).symm

/-- A character is in a table exactly if an odd number of bounds lies at or below it. -/
theorem contains_iff (h : r.Ascending) (c : Char) :
    r.contains c = true ↔ countUpTo r.bounds.toList c.toNat % 2 = 1 := by
  rw [contains, rank_eq h (Nat.zero_le _) (Nat.le_refl _) (fun _ hi => nomatch hi)
    (fun i hi hsize => absurd hsize (Nat.not_lt_of_le hi)), beq_iff_eq]

/-! ## Intervals -/

/-- The intervals that some bounds stand for. -/
def intervals : List Nat → List (Nat × Nat)
  | a :: b :: rest => (a, b) :: intervals rest
  | _ => []

theorem fst_mem_of_mem_intervals {bounds : List Nat} {i : Nat × Nat} (hi : i ∈ intervals bounds) :
    i.1 ∈ bounds := by
  fun_induction intervals bounds with
  | case1 a b rest ih =>
    rcases List.mem_cons.mp hi with rfl | hi
    · exact List.mem_cons_self
    · exact List.mem_cons_of_mem _ (List.mem_cons_of_mem _ (ih hi))
  | case2 => cases hi

/-- The intervals of bounds that ascend begin one after the other. -/
theorem intervals_ascend {bounds : List Nat} (hs : bounds.Pairwise (· < ·)) :
    (intervals bounds).Pairwise (·.1 ≤ ·.1) := by
  fun_induction intervals bounds with
  | case1 a b rest ih =>
    rw [List.pairwise_cons, List.pairwise_cons] at hs
    refine List.pairwise_cons.mpr ⟨fun i hi => Nat.le_of_lt ?_, ih hs.2.2⟩
    exact hs.1 _ (List.mem_cons_of_mem _ (fst_mem_of_mem_intervals hi))
  | case2 => exact .nil

/-- A code point with an odd number of bounds at or below it lies in an interval. -/
theorem exists_interval_of_odd {bounds : List Nat} (hs : bounds.Pairwise (· < ·))
    (heven : bounds.length % 2 = 0) (hodd : countUpTo bounds c % 2 = 1) :
    ∃ i ∈ intervals bounds, i.1 ≤ c ∧ c < i.2 := by
  fun_induction intervals bounds with
  | case1 a b rest ih =>
    rw [List.pairwise_cons, List.pairwise_cons] at hs
    by_cases ha : a ≤ c
    · by_cases hb : b ≤ c
      · have hcount : countUpTo (a :: b :: rest) c = countUpTo rest c + 2 := by
          simp [countUpTo, ha, hb]
        rw [List.length_cons, List.length_cons] at heven
        obtain ⟨i, hi, hin⟩ := ih hs.2.2 (by omega) (by omega)
        exact ⟨i, List.mem_cons_of_mem _ hi, hin⟩
      · exact ⟨(a, b), List.mem_cons_self, ha, Nat.lt_of_not_le hb⟩
    · -- all bounds lie above
      have hnone : countUpTo (a :: b :: rest) c = 0 := by
        refine List.countP_eq_zero.mpr fun d hd => ?_
        have had : a ≤ d := by
          rcases List.mem_cons.mp hd with rfl | hd
          · exact Nat.le_refl _
          · exact Nat.le_of_lt (hs.1 d hd)
        simpa using Nat.lt_of_lt_of_le (Nat.lt_of_not_le ha) had
      rw [hnone] at hodd
      cases hodd
  | case2 bounds hshort =>
    match bounds with
    | [] => cases hodd
    | [_] => cases heven
    | a :: b :: rest => exact absurd rfl (hshort a b rest)

/-- A character of a table lies in one of its intervals. -/
theorem exists_interval (h : r.Ascending) (heven : r.bounds.size % 2 = 0) {c : Char}
    (hc : r.contains c = true) :
    ∃ i ∈ intervals r.bounds.toList, i.1 ≤ c.toNat ∧ c.toNat < i.2 :=
  exists_interval_of_odd h heven ((contains_iff h c).mp hc)

/-- Whether no interval of a first list meets one of a second list, both of them in order. -/
def apart : List (Nat × Nat) → List (Nat × Nat) → Bool
  | [], _ => true
  | i :: is, js =>
    match js.dropWhile (·.2 ≤ i.1) with
    | [] => true
    | j :: later => decide (i.2 ≤ j.1) && apart is (j :: later)

/-- What ends behind a place is not passed over up to there. -/
theorem mem_dropWhile {j : Nat × Nat} {js : List (Nat × Nat)} {place : Nat} (hj : j ∈ js)
    (hplace : place < j.2) : j ∈ js.dropWhile (·.2 ≤ place) := by
  rw [← List.takeWhile_append_dropWhile (p := (·.2 ≤ place)) (l := js)] at hj
  refine (List.mem_append.mp hj).resolve_left fun htake => ?_
  have hle := List.all_eq_true.mp List.all_takeWhile j htake
  rw [decide_eq_true_eq] at hle
  omega

theorem not_mem_of_apart {is js : List (Nat × Nat)} (his : is.Pairwise (·.1 ≤ ·.1))
    (hjs : js.Pairwise (·.1 ≤ ·.1)) (h : apart is js = true) {i j : Nat × Nat} (hi : i ∈ is)
    (hin : i.1 ≤ c ∧ c < i.2) (hj : j ∈ js) : ¬ (j.1 ≤ c ∧ c < j.2) := by
  intro hjn
  induction is generalizing js with
  | nil => cases hi
  | cons first is ih =>
    rw [List.pairwise_cons] at his
    have hfirst : first.1 ≤ i.1 := by
      rcases List.mem_cons.mp hi with rfl | hi
      · exact Nat.le_refl _
      · exact his.1 i hi
    have hkept := mem_dropWhile hj (Nat.lt_of_le_of_lt (Nat.le_trans hfirst hin.1) hjn.2)
    have hsorted : (js.dropWhile (·.2 ≤ first.1)).Pairwise (·.1 ≤ ·.1) :=
      hjs.sublist (List.dropWhile_sublist _)
    rw [apart] at h
    cases hdrop : js.dropWhile (·.2 ≤ first.1) with
    | nil =>
      rw [hdrop] at hkept
      cases hkept
    | cons k later =>
      rw [hdrop] at h hkept hsorted
      dsimp only at h
      rw [Bool.and_eq_true, decide_eq_true_eq] at h
      rcases List.mem_cons.mp hi with rfl | hi
      · have hk : k.1 ≤ j.1 := by
          rcases List.mem_cons.mp hkept with rfl | hlater
          · exact Nat.le_refl _
          · exact (List.pairwise_cons.mp hsorted).1 j hlater
        omega
      · exact ih his.2 hsorted h.2 hi hkept

end Ranges

/-! ## Digits and letters -/

theorem letterRanges_ascending : letterRanges.Ascending :=
  Ranges.ascending_of_chain (by decide +kernel)

theorem digitRanges_ascending : digitRanges.Ascending :=
  Ranges.ascending_of_chain (by decide +kernel)

/-- **No digit is a letter**, in any script. -/
theorem isLetter_of_isDigit {c : Char} (h : isDigit c = true) : isLetter c = false := by
  rw [isDigit] at h
  rw [isLetter]
  split at h
  · next hascii =>
    rw [if_pos hascii]
    have hdigit : 48 ≤ c.toNat ∧ c.toNat ≤ 57 := by
      rw [Char.isDigit, Bool.and_eq_true, decide_eq_true_eq, decide_eq_true_eq] at h
      exact h
    rw [Bool.eq_false_iff]
    intro hletter
    rcases Bool.or_eq_true_iff.mp hletter with hupper | hlower
    · change decide (65 ≤ c.val ∧ c.val ≤ 90) = true at hupper
      have hupper : 65 ≤ c.toNat ∧ c.toNat ≤ 90 := of_decide_eq_true hupper
      omega
    · change (decide (97 ≤ c.val) && decide (c.val ≤ 122)) = true at hlower
      rw [Bool.and_eq_true, decide_eq_true_eq, decide_eq_true_eq] at hlower
      have hlower : 97 ≤ c.toNat ∧ c.toNat ≤ 122 := hlower
      omega
  · next hascii =>
    rw [if_neg hascii, Bool.eq_false_iff]
    intro hletter
    have hapart : Ranges.apart (Ranges.intervals digitRanges.bounds.toList)
        (Ranges.intervals letterRanges.bounds.toList) = true := by
      decide +kernel
    obtain ⟨i, hi, hin⟩ := Ranges.exists_interval digitRanges_ascending (by decide +kernel) h
    obtain ⟨j, hj, hjn⟩ := Ranges.exists_interval letterRanges_ascending (by decide +kernel) hletter
    exact Ranges.not_mem_of_apart (Ranges.intervals_ascend digitRanges_ascending)
      (Ranges.intervals_ascend letterRanges_ascending) hapart hi hin hj hjn

end Widgetry.Text
