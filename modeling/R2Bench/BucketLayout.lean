import R2Bench.AgentMetrics
import R2Bench.LogLinear

/-!
# The bucket layout

The histogram's buckets are log-linear with three mantissa bits. The exponent and
the mantissa of a value are taken out by shifts and masks on 64 bits, and every
value beyond `2 ^ 34` falls into the last bucket.
-/
namespace R2Bench

/-! ## The steps on 64 bits -/

/-- The steps of `bucketIndex` above the linear region, as on unbounded numbers; what
they lead to is converted to a nonnegative `int`. -/
structure IndexExact (v : UInt64) : Prop where
  exponent_ge : subBits.toNat ≤ v.toNat.log2
  exponent_lt : v.toNat.log2 < 64
  exponent : (v.log2 - subBits).toNat = v.toNat.log2 - 3
  mantissa : (v >>> (v.log2 - subBits)).toNat = v.toNat / 2 ^ (v.toNat.log2 - 3)
  octave : (v.log2 - subBits + 1).toNat = v.toNat.log2 - 3 + 1
  shifted : ((v.log2 - subBits + 1) <<< subBits).toNat = (v.toNat.log2 - 3 + 1) * 2 ^ 3
  idx_lt : (((v.log2 - subBits + 1) <<< subBits) |||
    ((v >>> (v.log2 - subBits)) &&& (subCount - 1))).toNat < 2 ^ 63

/-- The steps of `bucketValue` above the linear region, as on unbounded numbers. -/
@[mk_iff] structure ValueExact (i : UInt64) : Prop where
  exponent : ((i >>> subBits) + subBits - 1).toNat = i.toNat / 2 ^ 3 + 3 - 1
  exponent_ge : subBits ≤ (i >>> subBits) + subBits - 1
  shift : ((i >>> subBits) + subBits - 1 - subBits).toNat = i.toNat / 2 ^ 3 - 1
  shift_lt : i.toNat / 2 ^ 3 - 1 < 64
  shifted : ((subCount ||| (i &&& (subCount - 1))) <<<
    ((i >>> subBits) + subBits - 1 - subBits)).toNat =
      (2 ^ 3 + i.toNat % 2 ^ 3) * 2 ^ (i.toNat / 2 ^ 3 - 1)

instance (i : UInt64) : Decidable (ValueExact i) := decidable_of_iff' _ (valueExact_iff i)

theorem indexExact {v : UInt64} (h : 8 ≤ v.toNat) : IndexExact v := by
  have hlog : v.log2.toNat = v.toNat.log2 := rfl
  have hone : (1 : UInt64).toNat = 1 := rfl
  have hbits : subBits.toNat % 64 = 3 := rfl
  have hge : 3 ≤ v.toNat.log2 := (Nat.le_log2 (by omega)).mpr h
  have hlt : v.toNat.log2 < 64 := (Nat.log2_lt (by omega)).mpr v.toNat_lt
  have hexponent : (v.log2 - subBits).toNat = v.toNat.log2 - 3 := by
    rw [UInt64.toNat_sub_of_le _ _ (UInt64.le_iff_toNat_le.mpr (hlog ▸ hge)), hlog]
    rfl
  have hoctave : (v.log2 - subBits + 1).toNat = v.toNat.log2 - 3 + 1 := by
    rw [UInt64.toNat_add, hexponent, hone, Nat.mod_eq_of_lt (by omega)]
  have hshifted : ((v.log2 - subBits + 1) <<< subBits).toNat =
      (v.toNat.log2 - 3 + 1) * 2 ^ 3 := by
    rw [UInt64.toNat_shiftLeft, hoctave, hbits, Nat.shiftLeft_eq, Nat.mod_eq_of_lt (by omega)]
  constructor
  · exact hge
  · exact hlt
  · exact hexponent
  · rw [UInt64.toNat_shiftRight, hexponent, Nat.mod_eq_of_lt (by omega), Nat.shiftRight_eq_div_pow]
  · exact hoctave
  · exact hshifted
  · rw [UInt64.toNat_or, UInt64.toNat_and]
    apply Nat.or_lt_two_pow
    · omega
    · exact Nat.and_le_right.trans_lt (by decide)

theorem valueExact {i : ℕ} (h : 8 ≤ i) (hi : i < numBuckets) : ValueExact (UInt64.ofNat i) := by
  have hall : ∀ i : Fin 256, 8 ≤ i.val → ValueExact (UInt64.ofNat i.val) := by decide +kernel
  exact hall ⟨i, hi⟩ h

/-! ## Buckets of the code and of the layout -/

theorem bucketValue_toNat {i : ℕ} (hi : i < numBuckets) :
    (bucketValue (UInt64.ofNat i)).toNat = LogLinear.value 3 i := by
  have hall : ∀ i : Fin 256,
      (bucketValue (UInt64.ofNat i.val)).toNat = LogLinear.value 3 i.val := by
    decide +kernel
  exact hall ⟨i, hi⟩

/-- Above the linear region the exponent and the mantissa are joined by shifts. -/
theorem bucket_bits {v : UInt64} (h : 8 ≤ v.toNat) :
    ((((v.log2 - subBits + 1) <<< subBits) |||
      ((v >>> (v.log2 - subBits)) &&& (subCount - 1))).toNat) = LogLinear.index 3 v.toNat := by
  have exact := indexExact h
  have hshift : LogLinear.shift 3 v.toNat = v.toNat.log2 - 3 := rfl
  obtain ⟨hm, hm'⟩ := LogLinear.mantissa_bounds 3 v.toNat
  have hmantissa : 8 ≤ v.toNat / 2 ^ LogLinear.shift 3 v.toNat := by
    obtain hzero | hm' := hm'
    · rw [hzero]
      simpa using h
    · exact hm'
  have hm3 : ((v >>> (v.log2 - subBits)) &&& (subCount - 1)).toNat =
      v.toNat / 2 ^ LogLinear.shift 3 v.toNat % 8 := by
    rw [UInt64.toNat_and, exact.mantissa]
    exact Nat.and_two_pow_sub_one_eq_mod _ 3
  have he3 : ((v.log2 - subBits + 1) <<< subBits).toNat =
      (LogLinear.shift 3 v.toNat + 1) <<< 3 := by
    rw [exact.shifted, hshift, Nat.shiftLeft_eq]
  rw [UInt64.toNat_or, hm3, he3, ← Nat.shiftLeft_add_eq_or_of_lt (Nat.mod_lt _ (by decide)),
    Nat.shiftLeft_eq, LogLinear.index]
  omega

theorem bucketIndex_val (v : UInt64) :
    (bucketIndex v).val = min (LogLinear.index 3 v.toNat) (numBuckets - 1) := by
  unfold bucketIndex
  split
  · next h =>
    have h8 : v.toNat < 2 ^ 3 := UInt64.lt_iff_toNat_lt.mp h
    have hzero : LogLinear.shift 3 v.toNat = 0 := by
      by_cases hv : v.toNat = 0
      · simp [LogLinear.shift, hv]
      · have hlog := (Nat.log2_lt hv).mpr h8
        unfold LogLinear.shift
        omega
    simp only [LogLinear.index, hzero, numBuckets]
    omega
  · next h =>
    have h8 : 8 ≤ v.toNat := Nat.le_of_not_lt fun hlt => h (UInt64.lt_iff_toNat_lt.mpr hlt)
    simp only [bucket_bits h8]
    split
    · next hidx => exact (Nat.min_eq_left (Nat.le_sub_one_of_lt hidx)).symm
    · next hidx => exact (Nat.min_eq_right (by omega)).symm

/-- Below `2 ^ 34` the last bucket holds nothing it does not bound. -/
theorem bucketIndex_of_lt {v : UInt64} (h : v.toNat < 2 ^ 34) :
    (bucketIndex v).val = LogLinear.index 3 v.toNat := by
  have hmax : LogLinear.index 3 v.toNat ≤ 255 :=
    (LogLinear.index_mono 3 (Nat.le_sub_one_of_lt h)).trans (by decide +kernel)
  rw [bucketIndex_val]
  exact Nat.min_eq_left hmax

theorem bucketValue_inj {i j : ℕ} (hi : i < numBuckets) (hj : j < numBuckets)
    (h : (bucketValue (UInt64.ofNat i)).toNat = (bucketValue (UInt64.ofNat j)).toNat) : i = j := by
  rw [bucketValue_toNat hi, bucketValue_toNat hj] at h
  exact (LogLinear.value_strictMono 3).injective h

theorem bucketIndex_mono {v w : UInt64} (h : v ≤ w) : bucketIndex v ≤ bucketIndex w := by
  rw [Fin.le_def, bucketIndex_val, bucketIndex_val]
  exact min_le_min_right _ (LogLinear.index_mono 3 (UInt64.le_iff_toNat_le.mp h))

/-- From `2 ^ 34` on there is only the last bucket. -/
theorem bucketIndex_of_ge {v : UInt64} (h : 2 ^ 34 ≤ v.toNat) : (bucketIndex v).val = 255 := by
  have hfirst : LogLinear.index 3 (2 ^ 34) = 256 := by decide +kernel
  have hindex := LogLinear.index_mono 3 h
  rw [hfirst] at hindex
  rw [bucketIndex_val, numBuckets]
  omega

theorem bucketIndex_bucketValue {i : ℕ} (hi : i < numBuckets) :
    (bucketIndex (bucketValue (UInt64.ofNat i))).val = i := by
  rw [bucketIndex_val, bucketValue_toNat hi, LogLinear.index_value]
  exact Nat.min_eq_left (Nat.le_sub_one_of_lt hi)

/-- `bucketValue(bucketIndex(v))`. -/
def lowerBound (v : UInt64) : UInt64 := bucketValue (UInt64.ofNat (bucketIndex v).val)

theorem lowerBound_toNat {v : UInt64} (h : v.toNat < 2 ^ 34) :
    (lowerBound v).toNat = LogLinear.value 3 (LogLinear.index 3 v.toNat) := by
  rw [lowerBound, bucketValue_toNat (bucketIndex v).isLt, bucketIndex_of_lt h]

theorem lowerBound_le {v : UInt64} (h : v.toNat < 2 ^ 34) : lowerBound v ≤ v := by
  rw [UInt64.le_iff_toNat_le, lowerBound_toNat h]
  exact LogLinear.value_index_le 3 _

theorem sub_lowerBound_lt {v : UInt64} (h : v.toNat < 2 ^ 34) :
    (v - lowerBound v).toNat < max 1 ((lowerBound v).toNat / 8) := by
  have hwidth := LogLinear.sub_value_index_lt 3 v.toNat
  rw [UInt64.toNat_sub_of_le _ _ (lowerBound_le h), lowerBound_toNat h]
  exact hwidth

theorem lowerBound_of_lt {v : UInt64} (h : v.toNat < 16) : lowerBound v = v := by
  have hfit : v.toNat < 2 ^ 34 := h.trans (by norm_num)
  have hle := UInt64.le_iff_toNat_le.mp (lowerBound_le hfit)
  have hsub := sub_lowerBound_lt hfit
  rw [UInt64.toNat_sub_of_le _ _ (lowerBound_le hfit)] at hsub
  apply UInt64.toNat_inj.mp
  omega

/-- The buckets cover every value in order and are narrow up to the clamp, their lower
bounds are bucketed to themselves, and no step on the way wraps. -/
theorem bucketing_sound :
    (∀ v : UInt64, (bucketIndex v).val ≤ 255) ∧
    (∀ v w : UInt64, v ≤ w → bucketIndex v ≤ bucketIndex w) ∧
    (∀ v : UInt64, v.toNat < 2 ^ 34 →
      lowerBound v ≤ v ∧ (v - lowerBound v).toNat < max 1 ((lowerBound v).toNat / 8)) ∧
    (∀ v : UInt64, v.toNat < 16 → lowerBound v = v) ∧
    (∀ v : UInt64, 2 ^ 34 ≤ v.toNat → (bucketIndex v).val = 255) ∧
    (∀ i < numBuckets, (bucketIndex (bucketValue (UInt64.ofNat i))).val = i) ∧
    (∀ v : UInt64, subCount ≤ v → IndexExact v) ∧
    (∀ i < numBuckets, subCount ≤ UInt64.ofNat i → ValueExact (UInt64.ofNat i)) := by
  have hcount : subCount.toNat = 8 := rfl
  refine ⟨?_, ?_, ?_, ?_, ?_, ?_, ?_, ?_⟩
  · intro v
    exact Nat.le_of_lt_succ (bucketIndex v).isLt
  · intro v w h
    exact bucketIndex_mono h
  · intro v h
    exact ⟨lowerBound_le h, sub_lowerBound_lt h⟩
  · intro v h
    exact lowerBound_of_lt h
  · intro v h
    exact bucketIndex_of_ge h
  · intro i hi
    exact bucketIndex_bucketValue hi
  · intro v h
    rw [UInt64.le_iff_toNat_le, hcount] at h
    exact indexExact h
  · intro i hi h
    rw [UInt64.le_iff_toNat_le, hcount, UInt64.toNat_ofNat_of_lt' (hi.trans (by decide))] at h
    exact valueExact h hi

end R2Bench
