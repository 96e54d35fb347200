import Mathlib.Tactic

/-!
# Equal shares of a total

A total is split over `n` positions by quotient, the remainder going one by one
to the first positions. Sums over the first `m` positions have a closed form.
-/
namespace Shares

/-- What position `i` of `n` gets of `total`. -/
def share (total n i : ℕ) : ℕ := total / n + if i < total % n then 1 else 0

/-- The sum over the first `m` positions, by induction on `m`. -/
theorem sum_range (total n m : ℕ) :
    ((List.range m).map (share total n)).sum = m * (total / n) + min m (total % n) := by
  induction m with
  | zero => simp
  | succ m ih =>
    rw [List.range_succ, List.map_append, List.sum_append, ih]
    simp only [List.map_cons, List.map_nil, List.sum_cons, List.sum_nil, share]
    rw [Nat.succ_mul]
    split_ifs <;> omega

theorem sum_range_le {total n m : ℕ} (hm : m ≤ n) :
    ((List.range m).map (share total n)).sum ≤ total := by
  have hdiv := Nat.div_add_mod total n
  have hmul : m * (total / n) ≤ n * (total / n) := Nat.mul_le_mul_right _ hm
  rw [sum_range]
  omega

/-- Shares of a total that reaches every position are at least one. -/
theorem one_le_share {total n : ℕ} (hn : 0 < n) (h : n ≤ total) (i : ℕ) :
    1 ≤ share total n i := by
  have := Nat.div_pos h hn
  unfold share
  omega

theorem share_le_share_add_one (total n i j : ℕ) : share total n i ≤ share total n j + 1 := by
  unfold share
  split_ifs <;> omega

/-- The shares add up to the total exactly when every position is counted. -/
theorem sum_range_eq_iff {total n m : ℕ} (hn : 0 < n) (h : n ≤ total) (hm : m ≤ n) :
    ((List.range m).map (share total n)).sum = total ↔ m = n := by
  have hdiv := Nat.div_add_mod total n
  have hmod := Nat.mod_lt total hn
  have hpos := Nat.div_pos h hn
  rw [sum_range]
  constructor
  · intro he
    by_contra hne
    have hstep : m * (total / n) + total / n ≤ n * (total / n) := by
      rw [← Nat.succ_mul]
      exact Nat.mul_le_mul_right _ (by omega)
    -- An uncounted position leaves at least its quotient out.
    omega
  · intro heq
    subst heq
    omega

end Shares
