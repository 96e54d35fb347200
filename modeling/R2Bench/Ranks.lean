import Mathlib.Data.List.GetD
import Mathlib.Data.List.Sort
import Mathlib.Tactic

/-!
# Order statistics

The `r`-th smallest element of a list, by how many elements have a downward
closed property, and the first match of a list.
-/
namespace Ranks

section Kth
variable {α : Type*} [LinearOrder α]

/-- The `r`-th smallest element, counting from one. -/
def kth (d : α) (r : ℕ) (xs : List α) : α := (xs.mergeSort fun x y => x ≤ y).getD (r - 1) d

/-- A truncated rank does not lie beyond the last. -/
theorem floor_mul_le {q : ℚ} (hq : q ≤ 1) (n : ℕ) : ⌊q * n⌋₊ ≤ n :=
  Nat.floor_le_of_le (mul_le_of_le_one_left (Nat.cast_nonneg _) hq)

/-- In a sorted list the elements with a downward closed property come first. -/
theorem lt_countP_iff {p : α → Bool} {xs : List α}
    (hp : ∀ x ∈ xs, ∀ y ∈ xs, x ≤ y → p y → p x) (hxs : xs.Pairwise (· ≤ ·)) {i : ℕ}
    (hi : i < xs.length) : i < xs.countP p ↔ p xs[i] := by
  induction xs generalizing i with
  | nil => exact absurd hi (Nat.not_lt_zero i)
  | cons x xs ih =>
    obtain ⟨hx, hxs⟩ := List.pairwise_cons.mp hxs
    by_cases hpx : p x
    · rw [List.countP_cons_of_pos hpx]
      cases i with
      | zero => simpa using hpx
      | succ i =>
        have htail : ∀ x ∈ xs, ∀ y ∈ xs, x ≤ y → p y → p x := fun x hx y hy =>
          hp x (List.mem_cons_of_mem _ hx) y (List.mem_cons_of_mem _ hy)
        simpa using ih htail hxs (Nat.lt_of_succ_lt_succ hi)
    · have hnone : ∀ y ∈ x :: xs, ¬ p y := by
        intro y hy hpy
        rcases List.mem_cons.mp hy with rfl | hy
        · exact hpx hpy
        · exact hpx (hp x List.mem_cons_self y (List.mem_cons_of_mem _ hy) (hx y hy) hpy)
      rw [List.countP_eq_zero.mpr hnone]
      exact iff_of_false (Nat.not_lt_zero i) (hnone _ (List.getElem_mem hi))

/-- The `r`-th smallest stands at position `r - 1` of the sorted list. -/
theorem kth_eq_getElem (d : α) {xs : List α} {r : ℕ} (hr : 0 < r) (hle : r ≤ xs.length) :
    ∃ h : r - 1 < (xs.mergeSort fun x y => x ≤ y).length,
      kth d r xs = (xs.mergeSort fun x y => x ≤ y)[r - 1] := by
  have hlt : r - 1 < (xs.mergeSort fun x y => x ≤ y).length := by
    rw [List.length_mergeSort]
    omega
  exact ⟨hlt, List.getD_eq_getElem _ _ hlt⟩

/-- At least `r` elements have a downward closed property exactly when the `r`-th
smallest one has it. -/
theorem le_countP_iff {p : α → Bool} (d : α) {xs : List α}
    (hp : ∀ x ∈ xs, ∀ y ∈ xs, x ≤ y → p y → p x) {r : ℕ} (hr : 0 < r) (hle : r ≤ xs.length) :
    r ≤ xs.countP p ↔ p (kth d r xs) := by
  have hsorted : (xs.mergeSort fun x y => x ≤ y).Pairwise (· ≤ ·) := by
    simpa using List.pairwise_mergeSort' (· ≤ ·) xs
  obtain ⟨hlt, hkth⟩ := kth_eq_getElem d hr hle
  have hp' : ∀ x ∈ xs.mergeSort fun x y => x ≤ y, ∀ y ∈ xs.mergeSort fun x y => x ≤ y,
      x ≤ y → p y → p x := fun x hx y hy =>
    hp x (List.mem_mergeSort.mp hx) y (List.mem_mergeSort.mp hy)
  rw [hkth, ← lt_countP_iff hp' hsorted hlt, (List.mergeSort_perm xs _).countP_eq]
  omega

theorem kth_mem (d : α) {xs : List α} {r : ℕ} (hr : 0 < r) (hle : r ≤ xs.length) :
    kth d r xs ∈ xs := by
  obtain ⟨hlt, hkth⟩ := kth_eq_getElem d hr hle
  rw [hkth]
  exact List.mem_mergeSort.mp (List.getElem_mem hlt)

end Kth

/-- A prefix of the list contains a match exactly when the first match is in it. -/
theorem findIdx_lt_iff {α : Type*} (p : α → Bool) (xs : List α) {n : ℕ} (hn : n ≤ xs.length) :
    xs.findIdx p < n ↔ ∃ x ∈ xs.take n, p x := by
  rw [← List.findIdx_lt_length, List.findIdx_take, List.length_take, Nat.min_eq_left hn]
  omega

theorem countP_lt_succ {α : Type*} (f : α → ℕ) (xs : List α) (n : ℕ) :
    (xs.countP fun x => f x < n + 1) =
      (xs.countP fun x => f x < n) + xs.countP fun x => f x = n := by
  induction xs with
  | nil => rfl
  | cons x xs ih =>
    simp only [List.countP_cons, decide_eq_true_eq, ih]
    split_ifs <;> omega

/-- Elements counted value by value. -/
theorem sum_countP_range {α : Type*} (f : α → ℕ) (xs : List α) (n : ℕ) :
    ((List.range n).map fun i => xs.countP fun x => f x = i).sum = xs.countP fun x => f x < n := by
  induction n with
  | zero => simp
  | succ n ih =>
    rw [List.range_succ, List.map_append, List.sum_append, ih, List.map_singleton,
      List.sum_singleton, countP_lt_succ]

end Ranks
