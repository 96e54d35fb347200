import Mathlib.Order.GaloisConnection.Defs
import Mathlib.Tactic

/-!
# Log-linear buckets

Buckets that are one wide below `2 ^ (k + 1)` and then double their width every
`2 ^ k` buckets. The lower bound of a bucket and the bucket of a value form a
Galois connection, and a bucket is narrow relative to its lower bound.
-/
namespace LogLinear
variable (k : ℕ)

/-- How often the width has doubled at a value. -/
def shift (v : ℕ) : ℕ := Nat.log2 v - k

/-- The bucket of a value. -/
def index (v : ℕ) : ℕ := 2 ^ k * shift k v + v / 2 ^ shift k v

/-- How often the width has doubled at a bucket. -/
def level (i : ℕ) : ℕ := i / 2 ^ k - 1

/-- The lower bound of a bucket. -/
def value (i : ℕ) : ℕ := (i - 2 ^ k * level k i) * 2 ^ level k i

/-! ## Buckets by level and mantissa -/

theorem level_mul_add {l m : ℕ} (hm : m < 2 * 2 ^ k) (hl : l = 0 ∨ 2 ^ k ≤ m) :
    level k (2 ^ k * l + m) = l := by
  have hw : 0 < 2 ^ k := by positivity
  rw [level, Nat.mul_add_div hw]
  by_cases hmw : m < 2 ^ k
  · rw [Nat.div_eq_of_lt hmw]
    omega
  · have hone : m / 2 ^ k = 1 := Nat.div_eq_of_lt_le (by omega) (by omega)
    rw [hone, Nat.add_sub_cancel]

/-- The lower bound at a mantissa, including the one that belongs to the next
level. -/
theorem value_mul_add {l m : ℕ} (hm : m ≤ 2 * 2 ^ k) (hl : l = 0 ∨ 2 ^ k ≤ m) :
    value k (2 ^ k * l + m) = m * 2 ^ l := by
  have hw : 0 < 2 ^ k := by positivity
  obtain hlt | rfl := Nat.lt_or_eq_of_le hm
  · rw [value, level_mul_add k hlt hl, Nat.add_sub_cancel_left]
  · have hnext : 2 ^ k * l + 2 * 2 ^ k = 2 ^ k * (l + 1) + 2 ^ k := by ring
    rw [hnext, value, level_mul_add k (by omega) (Or.inr le_rfl), Nat.add_sub_cancel_left]
    ring

theorem exists_mantissa (i : ℕ) :
    ∃ m, i = 2 ^ k * level k i + m ∧ m < 2 * 2 ^ k ∧ (level k i = 0 ∨ 2 ^ k ≤ m) := by
  have hw : 0 < 2 ^ k := by positivity
  have hdiv := Nat.div_add_mod i (2 ^ k)
  have hmod := Nat.mod_lt i hw
  cases hq : i / 2 ^ k with
  | zero =>
    have hl : level k i = 0 := by rw [level, hq]
    rw [hq, Nat.mul_zero, Nat.zero_add] at hdiv
    exact ⟨i, by rw [hl]; omega, by omega, Or.inl hl⟩
  | succ q =>
    have hl : level k i = q := by rw [level, hq, Nat.add_sub_cancel]
    rw [hq, Nat.mul_add_one] at hdiv
    exact ⟨2 ^ k + i % 2 ^ k, by rw [hl]; omega, by omega, Or.inr (by omega)⟩

/-- A bucket is as wide as its level says. -/
theorem value_succ (i : ℕ) : value k (i + 1) = value k i + 2 ^ level k i := by
  obtain ⟨m, hi, hm, hl⟩ := exists_mantissa k i
  have hcur := value_mul_add k hm.le hl
  have hnext := value_mul_add k (l := level k i) (m := m + 1) (by omega) (by omega)
  rw [← hi] at hcur
  rw [← Nat.add_assoc, ← hi] at hnext
  rw [hcur, hnext]
  ring

theorem value_strictMono : StrictMono (value k) :=
  strictMono_nat_of_lt_succ fun i => by
    rw [value_succ]
    exact Nat.lt_add_of_pos_right (by positivity)

/-- The width of a bucket against its lower bound. -/
theorem width_le (i : ℕ) : 2 ^ level k i ≤ max 1 (value k i / 2 ^ k) := by
  obtain ⟨m, hi, hm, hl⟩ := exists_mantissa k i
  have hcur := value_mul_add k hm.le hl
  rw [← hi] at hcur
  obtain hl | hl := hl
  · rw [hl, pow_zero]
    exact le_max_left _ _
  · refine le_max_of_le_right ((Nat.le_div_iff_mul_le (by positivity)).mpr ?_)
    rw [hcur, Nat.mul_comm]
    exact Nat.mul_le_mul_right _ hl

/-! ## The bucket of a value -/

/-- A value is shifted to a mantissa of at most `k + 1` bits, and of exactly that
many once it is shifted at all. -/
theorem mantissa_bounds (v : ℕ) :
    v / 2 ^ shift k v < 2 * 2 ^ k ∧ (shift k v = 0 ∨ 2 ^ k ≤ v / 2 ^ shift k v) := by
  have hv : v < 2 ^ (v.log2 + 1) := Nat.lt_log2_self
  constructor
  · rw [Nat.div_lt_iff_lt_mul (by positivity)]
    calc v < 2 ^ (v.log2 + 1) := hv
      _ ≤ 2 ^ (1 + k + shift k v) := Nat.pow_le_pow_right (by omega) (by unfold shift; omega)
      _ = 2 * 2 ^ k * 2 ^ shift k v := by ring
  · by_cases hs : shift k v = 0
    · exact Or.inl hs
    · have hpos : v ≠ 0 := by
        intro heq
        subst heq
        simp [shift] at hs
      refine Or.inr ((Nat.le_div_iff_mul_le (by positivity)).mpr ?_)
      calc 2 ^ k * 2 ^ shift k v = 2 ^ v.log2 := by
            rw [← pow_add]
            congr 1
            unfold shift at hs ⊢
            omega
        _ ≤ v := Nat.log2_self_le hpos

theorem value_index (v : ℕ) : value k (index k v) = v / 2 ^ shift k v * 2 ^ shift k v :=
  value_mul_add k (mantissa_bounds k v).1.le (mantissa_bounds k v).2

theorem value_index_le (v : ℕ) : value k (index k v) ≤ v := by
  rw [value_index]
  exact Nat.div_mul_le_self _ _

theorem lt_value_index_succ (v : ℕ) : v < value k (index k v + 1) := by
  have hlevel : level k (index k v) = shift k v :=
    level_mul_add k (mantissa_bounds k v).1 (mantissa_bounds k v).2
  rw [value_succ, value_index, hlevel, ← Nat.add_one_mul, ← Nat.div_lt_iff_lt_mul (by positivity)]
  exact Nat.lt_add_one _

theorem gc : GaloisConnection (value k) (index k) := by
  intro i v
  constructor
  · intro h
    exact Nat.lt_succ_iff.mp ((value_strictMono k).lt_iff_lt.mp
      (h.trans_lt (lt_value_index_succ k v)))
  · intro h
    exact ((value_strictMono k).monotone h).trans (value_index_le k v)

theorem index_mono : Monotone (index k) := (gc k).monotone_u

/-- The lower bound of a bucket is in that bucket. -/
theorem index_value (i : ℕ) : index k (value k i) = i := by
  apply Nat.le_antisymm
  · exact (value_strictMono k).le_iff_le.mp (value_index_le k (value k i))
  · exact (gc k).le_u le_rfl

/-- A value exceeds the lower bound of its bucket by less than the bucket's
width. -/
theorem sub_value_index_lt (v : ℕ) :
    v - value k (index k v) < max 1 (value k (index k v) / 2 ^ k) := by
  have hlt := lt_value_index_succ k v
  rw [value_succ] at hlt
  have hwidth := width_le k (index k v)
  omega

end LogLinear
