import Mathlib.Data.Int.Log
import Mathlib.Tactic

/-!
# Rounding to a binary significand

Correctly rounded binary arithmetic with `p` significant bits, as exact
rationals. The exponent is unbounded, so the results agree with a floating-point
format as long as they stay in its normal range.
-/
namespace Rounding

/-- The nearest integer, ties to even. -/
def roundEven (q : ℚ) : ℤ :=
  if q - ⌊q⌋ < 1 / 2 then ⌊q⌋
  else if 1 / 2 < q - ⌊q⌋ then ⌊q⌋ + 1
  else if ⌊q⌋ % 2 = 0 then ⌊q⌋ else ⌊q⌋ + 1

/-- The distance between neighbouring `p`-bit numbers at the magnitude of `q`. -/
def spacing (p : ℕ) (q : ℚ) : ℚ := 2 ^ (Int.log 2 q - p + 1)

/-- The nearest number with `p` significant bits, for nonnegative `q`. -/
def nearest (p : ℕ) (q : ℚ) : ℚ := roundEven (q / spacing p q) * spacing p q

theorem roundEven_intCast (n : ℤ) : roundEven n = n := by simp [roundEven]

theorem floor_le_roundEven (q : ℚ) : ⌊q⌋ ≤ roundEven q := by
  unfold roundEven
  split_ifs <;> omega

theorem roundEven_le (q : ℚ) : (roundEven q : ℚ) ≤ q + 1 / 2 := by
  unfold roundEven
  have hf := Int.floor_le q
  split_ifs <;> push_cast <;> linarith

theorem spacing_pos (p : ℕ) (q : ℚ) : 0 < spacing p q := zpow_pos (by norm_num) _

/-- A multiple of the spacing is representable. -/
theorem nearest_of_multiple {p : ℕ} {q : ℚ} {n : ℤ} (h : q / spacing p q = n) :
    nearest p q = q := by
  rw [nearest, h, roundEven_intCast, ← h, div_mul_cancel₀ q (spacing_pos p q).ne']

/-- Below `2 ^ p` the spacing divides one, so its inverse is a natural number. -/
theorem exists_inv_spacing {p : ℕ} {q : ℚ} (h : Int.log 2 q < p) :
    ∃ k : ℕ, 0 < k ∧ (spacing p q)⁻¹ = k ∧ (2 : ℚ) ^ Int.log 2 q * (2 * k) = 2 ^ p := by
  refine ⟨2 ^ (p - 1 - Int.log 2 q).toNat, by positivity, ?_, ?_⟩
  · rw [spacing, ← zpow_neg]
    push_cast
    rw [← zpow_natCast, Int.toNat_of_nonneg (by omega)]
    congr 1
    omega
  · push_cast
    rw [← zpow_natCast, Int.toNat_of_nonneg (by omega), ← zpow_one_add₀ (by norm_num),
      ← zpow_add₀ (by norm_num), ← zpow_natCast]
    congr 1
    omega

theorem log_lt_of_lt {p : ℕ} {q : ℚ} (hq : 0 < q) (h : q < 2 ^ p) : Int.log 2 q < p := by
  rw [← Int.lt_zpow_iff_log_lt (by norm_num) hq]
  exact_mod_cast h

/-- Integers up to `2 ^ p` are represented exactly. -/
theorem nearest_natCast {p n : ℕ} (hp : 0 < p) (h : n ≤ 2 ^ p) : nearest p n = n := by
  rcases Nat.eq_zero_or_pos n with rfl | hn
  · simp [nearest, roundEven]
  rcases Nat.lt_or_eq_of_le h with hlt | rfl
  · obtain ⟨k, -, hk, -⟩ := exists_inv_spacing (p := p) (q := n)
      (log_lt_of_lt (by exact_mod_cast hn) (by exact_mod_cast hlt))
    apply nearest_of_multiple (n := (n * k : ℕ))
    rw [div_eq_mul_inv, hk]
    push_cast
    rfl
  · have hlog : Int.log 2 (((2 ^ p : ℕ) : ℚ)) = p := by
      have := Int.log_zpow (R := ℚ) (b := 2) (by norm_num) (p : ℤ)
      simpa using this
    apply nearest_of_multiple (n := (2 ^ (p - 1) : ℕ))
    rw [spacing, hlog]
    obtain ⟨m, rfl⟩ : ∃ m, p = m + 1 := ⟨p - 1, by omega⟩
    push_cast
    rw [show ((m : ℤ) + 1 - (m + 1) + 1) = 1 by ring, zpow_one, pow_succ]
    simp

/-- A quotient that is not whole stays `1 / n` below the next integer. -/
theorem quotient_add_inv_le (total : ℕ) {n : ℕ} (hn : 0 < n) :
    (total : ℚ) / n + 1 / n ≤ (total / n : ℕ) + 1 := by
  have hnQ : (0 : ℚ) < n := by exact_mod_cast hn
  rw [← add_div, div_le_iff₀ hnQ]
  have hmod := Nat.div_add_mod total n
  have hlt := Nat.mod_lt total hn
  have hle : total + 1 ≤ (total / n + 1) * n := by
    rw [Nat.add_mul, Nat.mul_comm (total / n) n]
    omega
  exact_mod_cast hle

/-- Rounding a scaled quotient never reaches the next integer. It could only by
a whole half unit, which forces `n = 2 k`; then the scaled quotient is itself an
integer and rounding leaves it alone. -/
theorem roundEven_quotient_lt {p total n k : ℕ} {z : ℚ} (hp : 0 < p) (hn : 0 < n)
    (ht : total ≤ 2 ^ p) (hk : 0 < k) (hz : 0 < z) (hzq : z ≤ (total : ℚ) / n)
    (hpow : z * (2 * k) = 2 ^ p) :
    (roundEven ((total : ℚ) / n * k) : ℚ) < ((total / n : ℕ) + 1) * k := by
  have hnQ : (0 : ℚ) < n := by exact_mod_cast hn
  have hkQ : (0 : ℚ) < k := by exact_mod_cast hk
  have htQ : (total : ℚ) ≤ 2 ^ p := by exact_mod_cast ht
  have hgap := quotient_add_inv_le total hn
  have hqn : (total : ℚ) / n * n = total := div_mul_cancel₀ _ hnQ.ne'
  set q : ℚ := (total : ℚ) / n
  by_contra hge
  have hhalf := (not_lt.mp hge).trans (roundEven_le (q * k))
  have hkn : (k : ℚ) / n ≤ 1 / 2 := by
    have hscaled := mul_le_mul_of_nonneg_right hgap hkQ.le
    have hexp : (q + 1 / n) * k = q * k + k / n := by ring
    linarith
  have h2k : 2 * (k : ℚ) ≤ n := by
    rw [div_le_iff₀ hnQ] at hkn
    linarith
  have hzn : z * n ≤ total := by
    rw [← hqn]
    exact mul_le_mul_of_nonneg_right hzq hnQ.le
  have hn2k : (n : ℚ) = 2 * k := by
    refine le_antisymm (le_of_mul_le_mul_left ?_ hz) h2k
    rw [hpow]
    exact hzn.trans htQ
  have htot : (total : ℚ) = 2 ^ p := by
    apply le_antisymm htQ
    rw [← hpow, ← hn2k]
    exact hzn
  have hint : q * k = ((2 ^ (p - 1) : ℤ) : ℚ) := by
    obtain ⟨r, rfl⟩ : ∃ r, p = r + 1 := ⟨p - 1, by omega⟩
    have h2 : q * (2 * k) = 2 ^ (r + 1) := by rw [← hn2k, hqn, htot]
    rw [pow_succ] at h2
    push_cast
    linarith
  have hexact : (roundEven (q * k) : ℚ) = q * k := by rw [hint, roundEven_intCast]
  have hlt : q * k < ((total / n : ℕ) + 1) * k := by
    refine mul_lt_mul_of_pos_right ?_ hkQ
    have : (0 : ℚ) < 1 / n := by positivity
    linarith
  rw [hexact] at hge
  exact hge hlt

/-- Dividing integers in `p`-bit arithmetic and taking the floor is integer
division, for dividends up to `2 ^ p`. -/
theorem floor_nearest_div {p total n : ℕ} (hp : 0 < p) (hn : 0 < n) (ht : total ≤ 2 ^ p) :
    ⌊nearest p ((total : ℚ) / n)⌋ = ((total / n : ℕ) : ℤ) := by
  have hnQ : (0 : ℚ) < n := by exact_mod_cast hn
  by_cases hdvd : n ∣ total
  · obtain ⟨m, rfl⟩ := hdvd
    have hm : m ≤ 2 ^ p := (Nat.le_mul_of_pos_left m hn).trans ht
    have hq : (((n * m : ℕ) : ℚ) / n) = m := by
      push_cast
      field_simp
    rw [hq, nearest_natCast hp hm, Nat.mul_div_cancel_left m hn]
    simp
  have htpos : 0 < total := Nat.pos_of_ne_zero (by rintro rfl; exact hdvd (dvd_zero n))
  have hqpos : (0 : ℚ) < (total : ℚ) / n := div_pos (by exact_mod_cast htpos) hnQ
  have hqlt : (total : ℚ) / n < 2 ^ p := by
    have hn1 : n ≠ 1 := by rintro rfl; simp at hdvd
    have hn2 : (1 : ℚ) < n := by exact_mod_cast (by omega : 1 < n)
    rw [div_lt_iff₀ hnQ]
    calc (total : ℚ) ≤ 2 ^ p := by exact_mod_cast ht
      _ < 2 ^ p * n := lt_mul_of_one_lt_right (by positivity) hn2
  have hlow : ((total / n : ℕ) : ℚ) ≤ (total : ℚ) / n := by
    rw [le_div_iff₀ hnQ]
    exact_mod_cast Nat.div_mul_le_self total n
  obtain ⟨k, hkpos, hk, hpow⟩ := exists_inv_spacing (log_lt_of_lt hqpos hqlt)
  have hkQ : (0 : ℚ) < k := by exact_mod_cast hkpos
  have hlog : (2 : ℚ) ^ Int.log 2 ((total : ℚ) / n) ≤ (total : ℚ) / n := by
    exact_mod_cast Int.zpow_log_le_self (b := 2) (by norm_num) hqpos
  have hsp : spacing p ((total : ℚ) / n) = (k : ℚ)⁻¹ := by rw [← hk, inv_inv]
  have hval : nearest p ((total : ℚ) / n) = roundEven ((total : ℚ) / n * k) / k := by
    rw [nearest, hsp, div_inv_eq_mul, ← div_eq_mul_inv]
  have hround_low : ((total / n * k : ℕ) : ℤ) ≤ roundEven ((total : ℚ) / n * k) := by
    refine le_trans ?_ (floor_le_roundEven _)
    rw [Int.le_floor]
    push_cast
    exact mul_le_mul_of_nonneg_right (by exact_mod_cast hlow) hkQ.le
  rw [hval, Int.floor_eq_iff]
  constructor
  · rw [le_div_iff₀ hkQ]
    exact_mod_cast hround_low
  · rw [div_lt_iff₀ hkQ]
    exact roundEven_quotient_lt hp hn ht hkpos (zpow_pos (by norm_num) _) hlog hpow

end Rounding
