import R2Bench.BucketLayout
import R2Bench.Ranks

/-!
# Quantiles of an interval

`Quantile` returns the lower bound of the first bucket whose running sum reaches
the truncated rank. An interval is the delta of two snapshots, so what it shows is decided by the
latencies observed in between.
-/
namespace R2Bench

/-! ## The scan as a search -/

/-- The running sums of the scan. -/
def running : UInt64 → List UInt64 → List UInt64
  | _, [] => []
  | cum, c :: cs => (cum + c) :: running (cum + c) cs

@[simp] theorem length_running (cum : UInt64) (cs : List UInt64) :
    (running cum cs).length = cs.length := by
  induction cs generalizing cum with
  | nil => rfl
  | cons c cs ih => rw [running, List.length_cons, List.length_cons, ih]

theorem scan_eq (target cum i : UInt64) (cs : List UInt64)
    (h : i.toNat + cs.length = numBuckets) :
    Snapshot.scan target cum i cs =
      (bucketValue (UInt64.ofNat (min (i.toNat + (running cum cs).findIdx fun c => target ≤ c)
        (numBuckets - 1)))).toNat / 1000 := by
  induction cs generalizing cum i with
  | nil =>
    have hi : i.toNat = numBuckets := h
    rw [Snapshot.scan, hi, Nat.min_eq_right (by omega)]
  | cons c cs ih =>
    have hlen : i.toNat + (cs.length + 1) = 256 := h
    rw [Snapshot.scan, running, List.findIdx_cons]
    by_cases hc : target ≤ cum + c
    · have hmin : min i.toNat (numBuckets - 1) = i.toNat :=
        Nat.min_eq_left (by unfold numBuckets; omega)
      simp [hc, hmin]
    · have hsucc : (i + 1).toNat = i.toNat + 1 := by
        rw [UInt64.toNat_add, UInt64.toNat_one]
        omega
      rw [if_neg hc, ih _ _ (by rw [hsucc, ← h, List.length_cons]; omega), hsucc]
      simp [hc, Nat.add_assoc, Nat.add_comm 1]

namespace Snapshot
variable (s : Snapshot) (q : ℚ)

/-- The number of observations in the histogram, as `Quantile` counts them. -/
def total : UInt64 := s.buckets.toList.foldl (fun total c => total + c) 0

/-- The truncated rank. -/
def target : UInt64 := UInt64.ofNat ⌊q * s.total.toNat⌋₊

/-- The bucket whose lower bound is returned. -/
def rankBucket : ℕ :=
  min ((running 0 s.buckets.toList).findIdx fun c => s.target q ≤ c) (numBuckets - 1)

/-- The running sum reaches the truncated rank by bucket `b`. -/
def ReachedBy (b : ℕ) : Prop :=
  ∃ c ∈ (running 0 s.buckets.toList).take (b + 1), s.target q ≤ c

theorem rankBucket_lt : s.rankBucket q < numBuckets :=
  Nat.lt_of_le_of_lt (Nat.min_le_right _ _) (by decide)

theorem quantile_eq :
    s.quantile q = (bucketValue (UInt64.ofNat (s.rankBucket q))).toNat / 1000 := by
  have hscan := scan_eq (s.target q) 0 0 s.buckets.toList (by simp)
  rw [UInt64.toNat_zero, Nat.zero_add] at hscan
  by_cases htotal : s.total = 0
  · -- the early return agrees with a search for rank zero
    have htarget : s.target q = 0 := by simp [target, htotal]
    have hfirst : s.rankBucket q = 0 := by
      have hlen : s.buckets.toList.length = numBuckets := Vector.length_toList
      unfold rankBucket
      cases hb : s.buckets.toList with
      | nil => exact absurd (hb ▸ hlen) (by decide)
      | cons c cs => simp [running, htarget, List.findIdx_cons]
    have hlow : (bucketValue (UInt64.ofNat 0)).toNat = 0 := by decide +kernel
    rw [hfirst, hlow, Nat.cast_zero, zero_div]
    exact if_pos htotal
  · exact (if_neg htotal).trans hscan

/-- Quantiles compare as the buckets of their ranks do. -/
theorem quantile_le_quantile_iff (s t : Snapshot) (q r : ℚ) :
    s.quantile q ≤ t.quantile r ↔ s.rankBucket q ≤ t.rankBucket r := by
  rw [quantile_eq, quantile_eq, div_le_div_iff_of_pos_right (by norm_num), Nat.cast_le,
    bucketValue_toNat (s.rankBucket_lt q), bucketValue_toNat (t.rankBucket_lt r)]
  exact (LogLinear.value_strictMono 3).le_iff_le

theorem rankBucket_le_iff {b : ℕ} (hb : b < numBuckets - 1) :
    s.rankBucket q ≤ b ↔ s.ReachedBy q b := by
  have hlen : b + 1 ≤ (running 0 s.buckets.toList).length := by
    simp only [length_running, Vector.length_toList]
    omega
  have hmatch := Ranks.findIdx_lt_iff (fun c => decide (s.target q ≤ c)) _ hlen
  simp only [decide_eq_true_eq] at hmatch
  rw [ReachedBy, ← hmatch, rankBucket]
  omega

end Snapshot

/-! ## Without overflow -/

theorem running_reaches (t cum : UInt64) (cs : List UInt64) (n : ℕ)
    (h : cum.toNat + (cs.map UInt64.toNat).sum < 2 ^ 64) :
    (t ≤ cum ∨ ∃ c ∈ (running cum cs).take n, t ≤ c) ↔
      t.toNat ≤ cum.toNat + ((cs.take n).map UInt64.toNat).sum := by
  induction cs generalizing cum n with
  | nil => simp [running, UInt64.le_iff_toNat_le]
  | cons c cs ih =>
    cases n with
    | zero => simp [UInt64.le_iff_toNat_le]
    | succ n =>
      rw [List.map_cons, List.sum_cons] at h
      have hadd : (cum + c).toNat = cum.toNat + c.toNat := by
        rw [UInt64.toNat_add, Nat.mod_eq_of_lt (by omega)]
      have hle : t ≤ cum → t ≤ cum + c := by
        rw [UInt64.le_iff_toNat_le, UInt64.le_iff_toNat_le, hadd]
        omega
      have hrest := ih (cum + c) n (by omega)
      rw [hadd] at hrest
      rw [running, List.take_succ_cons, List.take_succ_cons, List.map_cons, List.sum_cons,
        ← Nat.add_assoc, ← hrest]
      simp only [List.mem_cons, exists_eq_or_imp]
      exact ⟨fun hc => hc.elim (fun hc => Or.inl (hle hc)) id, Or.inr⟩

theorem foldl_add_toNat (cum : UInt64) (cs : List UInt64)
    (h : cum.toNat + (cs.map UInt64.toNat).sum < 2 ^ 64) :
    (cs.foldl (fun total c => total + c) cum).toNat = cum.toNat + (cs.map UInt64.toNat).sum := by
  induction cs generalizing cum with
  | nil => simp
  | cons c cs ih =>
    rw [List.map_cons, List.sum_cons] at h
    have hadd : (cum + c).toNat = cum.toNat + c.toNat := by
      rw [UInt64.toNat_add, Nat.mod_eq_of_lt (by omega)]
    rw [List.foldl_cons, ih _ (by omega), hadd, List.map_cons, List.sum_cons, Nat.add_assoc]

namespace Snapshot
variable (s : Snapshot) {q : ℚ}

/-- The histogram's counters as numbers. -/
def counts : List ℕ := s.buckets.toList.map UInt64.toNat

@[simp] theorem length_counts : s.counts.length = numBuckets := by simp [counts]

theorem target_toNat (h : s.counts.sum < 2 ^ 64) (hq : q ≤ 1) :
    (s.target q).toNat = ⌊q * s.counts.sum⌋₊ := by
  have htotal : s.total.toNat = s.counts.sum := by
    have hfold := foldl_add_toNat 0 s.buckets.toList (by simpa [counts] using h)
    rwa [UInt64.toNat_zero, Nat.zero_add] at hfold
  have hle : ⌊q * (s.counts.sum : ℚ)⌋₊ ≤ s.counts.sum := Ranks.floor_mul_le hq _
  rw [target, htotal]
  exact UInt64.toNat_ofNat_of_lt' (Nat.lt_of_le_of_lt hle h)

/-- Counting up to a bucket, and the truncated rank. -/
theorem reachedBy_iff (h : s.counts.sum < 2 ^ 64) (hq : q ≤ 1) (b : ℕ) :
    s.ReachedBy q b ↔ ⌊q * s.counts.sum⌋₊ ≤ (s.counts.take (b + 1)).sum := by
  have hreach := running_reaches (s.target q) 0 s.buckets.toList (b + 1)
    (by simpa [counts] using h)
  have hzero : s.target q ≤ 0 → s.ReachedBy q b := by
    intro hle
    have hlen : s.buckets.toList.length = numBuckets := Vector.length_toList
    unfold ReachedBy
    cases hb : s.buckets.toList with
    | nil => exact absurd (hb ▸ hlen) (by decide)
    | cons c cs =>
      refine ⟨0 + c, List.mem_cons_self, ?_⟩
      rw [UInt64.le_iff_toNat_le] at hle ⊢
      exact hle.trans (Nat.zero_le _)
  rw [UInt64.toNat_zero, Nat.zero_add, target_toNat s h hq, List.map_take] at hreach
  exact ⟨fun hr => hreach.mp (Or.inr hr), fun hr => (hreach.mpr hr).elim hzero id⟩

end Snapshot

/-! ## The histogram of an interval -/

/-- The latency an observation records in the histogram. -/
def Observation.latency? : Observation → Option UInt64
  | .success latencyMicros _ _ => some latencyMicros
  | .error latencyMicros _ => some latencyMicros
  | .wire _ | .conn _ => none

/-- The recorded latencies, in microseconds. -/
def micros (b : List Observation) : List ℕ :=
  (b.filterMap Observation.latency?).map UInt64.toNat

/-- The delta of two snapshots with the observations `b` in between. -/
def interval (m : Metrics) (b : List Observation) : Snapshot :=
  (m.observeAll b).snapshot.sub m.snapshot

/-- The bucket of a number of microseconds. -/
def bucketOf (v : ℕ) : ℕ := (bucketIndex (UInt64.ofNat v)).val

theorem bucketOf_toNat (v : UInt64) : bucketOf v.toNat = (bucketIndex v).val := by
  rw [bucketOf, UInt64.ofNat_toNat]

theorem bucketOf_eq {v : ℕ} (h : v < 2 ^ 34) : bucketOf v = LogLinear.index 3 v := by
  have hv : (UInt64.ofNat v).toNat = v :=
    UInt64.toNat_ofNat_of_lt' (h.trans (by decide))
  rw [bucketOf, bucketIndex_of_lt (by rwa [hv]), hv]

theorem bucketOf_lt (v : ℕ) : bucketOf v < numBuckets := (bucketIndex _).isLt

theorem getElem_addOne (bs : Vector UInt64 numBuckets) (j : Fin numBuckets) {i : ℕ}
    (hi : i < numBuckets) :
    (addOne bs j)[i] = bs[i] + UInt64.ofNat (if j.val = i then 1 else 0) := by
  rw [addOne, Vector.getElem_set]
  split
  · next h =>
    subst h
    rfl
  · exact (UInt64.add_zero _).symm

/-- A recorded latency adds one to its bucket. -/
theorem buckets_observe (m : Metrics) (o : Observation) : (m.observe o).buckets =
    o.latency?.elim m.buckets fun v => addOne m.buckets (bucketIndex v) := by
  cases o with
  | wire micros => rfl
  | conn reused => cases reused <;> rfl
  | success latencyMicros n status =>
    simp only [Metrics.observe, Metrics.observeSuccess]
    split_ifs <;> rfl
  | error latencyMicros timeout => cases timeout <;> rfl

theorem buckets_observeAll (b : List Observation) (m : Metrics) {i : ℕ} (hi : i < numBuckets) :
    (m.observeAll b).buckets[i] =
      m.buckets[i] + UInt64.ofNat ((micros b).countP fun v => bucketOf v = i) := by
  induction b generalizing m with
  | nil => exact (UInt64.add_zero _).symm
  | cons o b ih =>
    have hstep : (m.observe o).buckets[i] = m.buckets[i] +
        UInt64.ofNat ((micros [o]).countP fun v => bucketOf v = i) := by
      have hone : micros [o] = o.latency?.toList.map UInt64.toNat := by
        cases o <;> rfl
      have hbuckets := buckets_observe m o
      cases hlatency : o.latency? with
      | none =>
        simp only [hlatency, Option.elim_none, Option.toList_none, List.map_nil] at hbuckets hone
        simp only [hbuckets, hone]
        exact (UInt64.add_zero _).symm
      | some v =>
        simp only [hlatency, Option.elim_some, Option.toList_some] at hbuckets hone
        simp only [hbuckets, hone, getElem_addOne]
        simp [List.countP_cons, bucketOf_toNat]
    have hsplit : micros (o :: b) = micros [o] ++ micros b := by
      rw [micros, ← List.singleton_append, List.filterMap_append, List.map_append]
      rfl
    have hrest := ih (m.observe o)
    rw [hstep] at hrest
    rw [hsplit, List.countP_append, UInt64.ofNat_add, ← UInt64.add_assoc]
    exact hrest

/-- The histogram of an interval counts its own latencies only. -/
theorem counts_interval (m : Metrics) (b : List Observation) (h : (micros b).length < 2 ^ 64) :
    (interval m b).counts =
      (List.range numBuckets).map fun i => (micros b).countP fun v => bucketOf v = i := by
  have hfresh : interval m b = (newMetrics.observeAll b).snapshot := Metrics.snapshot_sub m b
  rw [hfresh]
  apply List.ext_getElem (by simp)
  intro i hi hi'
  have hlt : i < numBuckets := by simpa using hi
  have hcount : (micros b).countP (fun v => bucketOf v = i) < UInt64.size :=
    Nat.lt_of_le_of_lt List.countP_le_length h
  have hbucket := buckets_observeAll b newMetrics hlt
  have hnew : newMetrics.buckets[i] = 0 := Vector.getElem_replicate _
  rw [hnew, UInt64.zero_add] at hbucket
  simp only [Snapshot.counts, List.getElem_map, Vector.getElem_toList, List.getElem_range]
  exact (congrArg UInt64.toNat hbucket).trans (UInt64.toNat_ofNat_of_lt' hcount)

theorem counts_interval_take (m : Metrics) (b : List Observation)
    (h : (micros b).length < 2 ^ 64) {n : ℕ} (hn : n ≤ numBuckets) :
    ((interval m b).counts.take n).sum = (micros b).countP fun v => bucketOf v < n := by
  rw [counts_interval m b h, ← List.map_take, List.take_range, Nat.min_eq_left hn,
    Ranks.sum_countP_range]

theorem counts_interval_sum (m : Metrics) (b : List Observation)
    (h : (micros b).length < 2 ^ 64) : (interval m b).counts.sum = (micros b).length := by
  have htake := counts_interval_take m b h le_rfl
  rw [List.take_of_length_le (by simp)] at htake
  rw [htake]
  exact List.countP_eq_length.mpr fun v _ => by simpa using bucketOf_lt v

/-! ## The bucket a quantile names -/

/-- The `⌈q n⌉`-th smallest of `n` latencies. -/
def nearestRank (q : ℚ) (latencies : List ℕ) : ℕ :=
  Ranks.kth 0 ⌈q * latencies.length⌉₊ latencies

/-- The `⌊q n⌋`-th smallest of `n` latencies. -/
def truncatedRank (q : ℚ) (latencies : List ℕ) : ℕ :=
  Ranks.kth 0 ⌊q * latencies.length⌋₊ latencies

/-- The quantile names the lower bound `x` of the bucket that holds the latency of
nearest rank, and so is accurate to the width of a bucket. -/
def Accurate (m : Metrics) (b : List Observation) (q : ℚ) : Prop :=
  let x := 1000 * (interval m b).quantile q
  let v := nearestRank q (micros b)
  x = (bucketValue (UInt64.ofNat (bucketOf v))).toNat ∧ x ≤ v ∧ v - x < max 1 (x / 8)

/-- Truncation does not move the rank to another bucket: a rank truncated to zero
stands for the lowest bucket. -/
def RankKept (b : List Observation) (q : ℚ) : Prop :=
  if ⌊q * (micros b).length⌋₊ = 0 then nearestRank q (micros b) = 0
  else bucketOf (truncatedRank q (micros b)) = bucketOf (nearestRank q (micros b))

/-- The bucket of the truncated rank is found. -/
theorem rankBucket_interval (m : Metrics) (b : List Observation) {q : ℚ}
    (hfit : (micros b).length < 2 ^ 64) (hlt : ∀ v ∈ micros b, v < 2 ^ 34) (hq1 : q ≤ 1) :
    (interval m b).rankBucket q =
      if ⌊q * (micros b).length⌋₊ = 0 then 0 else bucketOf (truncatedRank q (micros b)) := by
  have hsum := counts_interval_sum m b hfit
  have hle : ⌊q * ((micros b).length : ℚ)⌋₊ ≤ (micros b).length := Ranks.floor_mul_le hq1 _
  have hiff : ∀ i < numBuckets - 1, (interval m b).rankBucket q ≤ i ↔
      (if ⌊q * (micros b).length⌋₊ = 0 then 0 else bucketOf (truncatedRank q (micros b))) ≤ i := by
    intro i hi
    rw [Snapshot.rankBucket_le_iff _ _ hi, Snapshot.reachedBy_iff _ (by rwa [hsum]) hq1, hsum,
      counts_interval_take m b hfit (by omega)]
    split
    · next hzero => simp [hzero]
    · next hpos =>
      have hdown : ∀ x ∈ micros b, ∀ y ∈ micros b, x ≤ y →
          decide (bucketOf y < i + 1) → decide (bucketOf x < i + 1) := by
        intro x hx y hy hxy hlty
        rw [decide_eq_true_eq, bucketOf_eq (hlt y hy)] at hlty
        rw [decide_eq_true_eq, bucketOf_eq (hlt x hx)]
        exact (LogLinear.index_mono 3 hxy).trans_lt hlty
      rw [Ranks.le_countP_iff 0 hdown (Nat.pos_of_ne_zero hpos) hle, decide_eq_true_eq,
        Nat.lt_succ_iff, truncatedRank]
  have hbound : (if ⌊q * (micros b).length⌋₊ = 0 then 0
      else bucketOf (truncatedRank q (micros b))) < numBuckets := by
    split
    · decide
    · exact bucketOf_lt _
  have hfound := (interval m b).rankBucket_lt q
  refine Nat.le_antisymm ?_ ?_
  · by_cases hlast : (if ⌊q * (micros b).length⌋₊ = 0 then 0
        else bucketOf (truncatedRank q (micros b))) < numBuckets - 1
    · exact (hiff _ hlast).mpr le_rfl
    · omega
  · by_cases hlast : (interval m b).rankBucket q < numBuckets - 1
    · exact (hiff _ hlast).mp le_rfl
    · omega

theorem nearestRank_lt (b : List Observation) {q : ℚ} (hne : micros b ≠ [])
    (hlt : ∀ v ∈ micros b, v < 2 ^ 34) (hq : 0 < q) (hq1 : q ≤ 1) :
    nearestRank q (micros b) < 2 ^ 34 := by
  have hpos : (0 : ℚ) < (micros b).length := by
    exact_mod_cast List.length_pos_of_ne_nil hne
  have hceil : 0 < ⌈q * ((micros b).length : ℚ)⌉₊ := Nat.ceil_pos.mpr (mul_pos hq hpos)
  have hle : ⌈q * ((micros b).length : ℚ)⌉₊ ≤ (micros b).length :=
    Nat.ceil_le.mpr (mul_le_of_le_one_left hpos.le hq1)
  exact hlt _ (Ranks.kth_mem 0 hceil hle)

theorem bucketOf_eq_zero {v : ℕ} (h : v < 2 ^ 34) : bucketOf v = 0 ↔ v = 0 := by
  rw [bucketOf_eq h]
  constructor
  · intro hzero
    have hlt := LogLinear.lt_value_index_succ 3 v
    have hone : LogLinear.value 3 (0 + 1) = 1 := by decide
    rw [hzero, hone] at hlt
    omega
  · intro heq
    subst heq
    decide

/-- A latency against the lower bound of its bucket. -/
theorem bucket_accurate {v : ℕ} {x : ℚ} (h : v < 2 ^ 34)
    (hx : x = (bucketValue (UInt64.ofNat (bucketOf v))).toNat) : x ≤ v ∧ v - x < max 1 (x / 8) := by
  rw [bucketValue_toNat (bucketOf_lt v), bucketOf_eq h] at hx
  have hle := LogLinear.value_index_le 3 v
  have hwidth := LogLinear.sub_value_index_lt 3 v
  have hsub : (v : ℚ) - x = ((v - LogLinear.value 3 (LogLinear.index 3 v) : ℕ) : ℚ) := by
    rw [hx, Nat.cast_sub hle]
  have heighth : ((LogLinear.value 3 (LogLinear.index 3 v) / 2 ^ 3 : ℕ) : ℚ) ≤ x / 8 := by
    rw [hx]
    exact_mod_cast Nat.cast_div_le
  refine ⟨by rw [hx]; exact_mod_cast hle, ?_⟩
  rw [hsub]
  calc ((v - LogLinear.value 3 (LogLinear.index 3 v) : ℕ) : ℚ)
      < ((max 1 (LogLinear.value 3 (LogLinear.index 3 v) / 2 ^ 3) : ℕ) : ℚ) := by
        exact_mod_cast hwidth
    _ ≤ max 1 (x / 8) := by
        rw [Nat.cast_max, Nat.cast_one]
        exact max_le_max le_rfl heighth

/-- A quantile is accurate to one bucket exactly when truncating the rank keeps
the bucket. -/
theorem quantile_accurate_iff (m : Metrics) (b : List Observation) (q : ℚ) (hne : micros b ≠ [])
    (hfit : (micros b).length < 2 ^ 64) (hlt : ∀ v ∈ micros b, v < 2 ^ 34) (hq : 0 < q)
    (hq1 : q ≤ 1) : Accurate m b q ↔ RankKept b q := by
  have hv := nearestRank_lt b hne hlt hq hq1
  have hx : 1000 * (interval m b).quantile q =
      (bucketValue (UInt64.ofNat ((interval m b).rankBucket q))).toNat := by
    rw [Snapshot.quantile_eq]
    ring
  have hkept : RankKept b q ↔
      (interval m b).rankBucket q = bucketOf (nearestRank q (micros b)) := by
    rw [rankBucket_interval m b hfit hlt hq1, RankKept]
    split
    · rw [← bucketOf_eq_zero hv, eq_comm]
    · rfl
  rw [hkept]
  constructor
  · rintro ⟨hbound, -⟩
    apply bucketValue_inj (Snapshot.rankBucket_lt _ _) (bucketOf_lt _)
    exact_mod_cast hx.symm.trans hbound
  · intro hbucket
    rw [hbucket] at hx
    exact ⟨hx, bucket_accurate hv hx⟩

/-- Two requests of 4 and 6 µs: the median is the first. -/
theorem quantile_accurate_median :
    Accurate newMetrics [.success 4 0 200, .error 6 false] (1 / 2) := by
  refine (quantile_accurate_iff newMetrics [.success 4 0 200, .error 6 false] (1 / 2) (by decide)
    (by decide) (by decide) (by norm_num) (by norm_num)).mpr ?_
  have hlen : (micros [.success 4 0 200, .error 6 false]).length = 2 := rfl
  rw [RankKept, truncatedRank, nearestRank, hlen]
  norm_num

/-- A single request of one second: its interval reports a median of 0. -/
theorem quantile_truncated : ¬ ∀ (m : Metrics) (b : List Observation) (q : ℚ), micros b ≠ [] →
    (∀ v ∈ micros b, v < 2 ^ 34) → 0 < q → q ≤ 1 → Accurate m b q := by
  intro hclaim
  have hmedian := (hclaim newMetrics [.success 1000000 0 200] (1 / 2) (by decide) (by decide)
    (by norm_num) (by norm_num)).1
  have hrank := rankBucket_interval newMetrics [.success 1000000 0 200] (by decide) (by decide)
    (show (1 / 2 : ℚ) ≤ 1 by norm_num)
  have hmicros : micros [.success 1000000 0 200] = [1000000] := rfl
  have hnearest : nearestRank (1 / 2) [1000000] = 1000000 := by
    have hceil : ⌈(1 / 2 : ℚ) * (1 : ℕ)⌉₊ = 1 :=
      (Nat.ceil_eq_iff one_ne_zero).mpr (by norm_num)
    rw [nearestRank, List.length_singleton, hceil]
    decide +kernel
  rw [hmicros, List.length_singleton, if_pos (by norm_num)] at hrank
  rw [Snapshot.quantile_eq, hrank, hmicros, hnearest] at hmedian
  revert hmedian
  decide +kernel

end R2Bench
