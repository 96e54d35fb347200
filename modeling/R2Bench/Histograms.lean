import R2Bench.AgentReports
import R2Bench.Quantiles

/-!
# What every histogram satisfies

Quantiles ascend, whatever the bucket array, and stay below its highest bucket. In the
delta of two snapshots the histogram counts what the counters beside it count.
-/
namespace R2Bench

/-! ## Quantiles in order -/

namespace Snapshot
variable (s : Snapshot) {q r : ℚ}

/-- The highest bucket with an observation. -/
structure IsHighest (top : ℕ) : Prop where
  nonempty : s.counts.getD top 0 ≠ 0
  above : ∀ b, top < b → s.counts.getD b 0 = 0

theorem target_le_target (hqr : q ≤ r) (hr : r ≤ 1) : s.target q ≤ s.target r := by
  have hfit : ∀ x ≤ (1 : ℚ), ⌊x * s.total.toNat⌋₊ < 2 ^ 64 := by
    intro x hx
    exact (Ranks.floor_mul_le hx _).trans_lt s.total.toNat_lt
  rw [target, target, UInt64.le_iff_toNat_le, UInt64.toNat_ofNat_of_lt' (hfit q (hqr.trans hr)),
    UInt64.toNat_ofNat_of_lt' (hfit r hr)]
  exact Nat.floor_le_floor (mul_le_mul_of_nonneg_right hqr (Nat.cast_nonneg _))

/-- The scan for the lower target stops first, at the same bucket or below. -/
theorem rankBucket_mono (hqr : q ≤ r) (hr : r ≤ 1) : s.rankBucket q ≤ s.rankBucket r := by
  rw [rankBucket, rankBucket]
  apply min_le_min_right
  apply List.findIdx_le_findIdx
  intro c _ hc
  rw [decide_eq_true_eq] at hc ⊢
  exact UInt64.le_trans (s.target_le_target hqr hr) hc

theorem quantile_mono (hqr : q ≤ r) (hr : r ≤ 1) : s.quantile q ≤ s.quantile r :=
  (quantile_le_quantile_iff s s q r).mpr (s.rankBucket_mono hqr hr)

theorem exists_isHighest (h : ∃ c ∈ s.counts, c ≠ 0) : ∃ top, s.IsHighest top := by
  obtain ⟨c, hc, hne⟩ := h
  obtain ⟨b, hb, rfl⟩ := List.getElem_of_mem hc
  have hfound : s.counts.getD b 0 ≠ 0 := by rwa [List.getD_eq_getElem _ _ hb]
  refine ⟨Nat.findGreatest (fun b => s.counts.getD b 0 ≠ 0) s.counts.length, ?_, ?_⟩
  · exact Nat.findGreatest_spec (P := fun b => s.counts.getD b 0 ≠ 0) hb.le hfound
  · intro b' hb'
    by_cases hlen : b' < s.counts.length
    · exact not_not.mp (Nat.findGreatest_is_greatest hb' hlen.le)
    · exact List.getD_eq_default _ _ (by omega)

theorem IsHighest.lt {top : ℕ} (h : s.IsHighest top) : top < numBuckets := by
  by_contra hge
  apply h.nonempty
  rw [List.getD_eq_default _ _ (by rw [length_counts]; omega)]

/-- Up to the highest bucket every observation is counted. -/
theorem IsHighest.sum_take {top : ℕ} (h : s.IsHighest top) :
    (s.counts.take (top + 1)).sum = s.counts.sum := by
  have hrest : (s.counts.drop (top + 1)).sum = 0 := by
    apply List.sum_eq_zero
    intro c hc
    obtain ⟨i, hi, rfl⟩ := List.mem_drop_iff_getElem.mp hc
    have hlen : top + 1 + i < s.counts.length := by omega
    rw [← List.getD_eq_getElem _ 0 hlen]
    exact h.above _ (by omega)
  have hsplit := List.sum_take_add_sum_drop s.counts (top + 1)
  omega

theorem rankBucket_le_highest {top : ℕ} (hfit : s.counts.sum < 2 ^ 64) (htop : s.IsHighest top)
    (hq : q ≤ 1) : s.rankBucket q ≤ top := by
  by_cases hlast : top < numBuckets - 1
  · rw [rankBucket_le_iff s q hlast, reachedBy_iff s hfit hq, htop.sum_take]
    exact Ranks.floor_mul_le hq _
  · have hlt := s.rankBucket_lt q
    omega

/-- The highest bucket bounds every quantile. -/
theorem quantile_le_highest {top : ℕ} (hfit : s.counts.sum < 2 ^ 64) (htop : s.IsHighest top)
    (hq : q ≤ 1) : s.quantile q ≤ (bucketValue (UInt64.ofNat top)).toNat / 1000 := by
  have hrank := s.rankBucket_le_highest hfit htop hq
  rw [quantile_eq, div_le_div_iff_of_pos_right (by norm_num), Nat.cast_le,
    bucketValue_toNat (s.rankBucket_lt q), bucketValue_toNat htop.lt]
  exact (LogLinear.value_strictMono 3).monotone hrank

end Snapshot

/-- Quantiles ascend with `q`; with a total of 64 bits they stay at or below the highest
bucket that is not empty; and so the percentiles of every report ascend. -/
theorem quantiles_ordered (s : Snapshot) :
    (∀ q r : ℚ, 0 ≤ q → q ≤ r → r ≤ 1 → s.quantile q ≤ s.quantile r) ∧
    (s.counts.sum < 2 ^ 64 → (∃ c ∈ s.counts, c ≠ 0) → ∃ top, s.IsHighest top ∧
      ∀ q : ℚ, 0 ≤ q → q ≤ 1 →
        s.quantile q ≤ (bucketValue (UInt64.ofNat top)).toNat / 1000) ∧
    ∀ (a : Assignment) (cumulative : Snapshot) (totalSecs intervalSecs : ℚ) (tick : ℤ),
      (buildReport a cumulative s totalSecs intervalSecs tick).p50 ≤
        (buildReport a cumulative s totalSecs intervalSecs tick).p95 ∧
      (buildReport a cumulative s totalSecs intervalSecs tick).p95 ≤
        (buildReport a cumulative s totalSecs intervalSecs tick).p99 := by
  refine ⟨?_, ?_, ?_⟩
  · intro q r _ hqr hr
    exact s.quantile_mono hqr hr
  · intro hfit hnonempty
    obtain ⟨top, htop⟩ := s.exists_isHighest hnonempty
    refine ⟨top, htop, ?_⟩
    intro q _ hq
    exact s.quantile_le_highest hfit htop hq
  · intro a cumulative totalSecs intervalSecs tick
    constructor
    · exact s.quantile_mono (by norm_num) (by norm_num)
    · exact s.quantile_mono (by norm_num) (by norm_num)

/-! ## One population -/

/-- The total of a bucket array, as `Quantile` sums it up. -/
theorem foldl_add_add (cs : List UInt64) (cum x : UInt64) :
    cs.foldl (fun total c => total + c) (cum + x) =
      cs.foldl (fun total c => total + c) cum + x := by
  induction cs generalizing cum with
  | nil => rfl
  | cons c cs ih =>
    have hswap : cum + x + c = cum + c + x := by ac_rfl
    rw [List.foldl_cons, List.foldl_cons, hswap, ih]

theorem foldl_add_set (cs : List UInt64) (cum : UInt64) {i : ℕ} (hi : i < cs.length) :
    (cs.set i (cs[i] + 1)).foldl (fun total c => total + c) cum =
      cs.foldl (fun total c => total + c) cum + 1 := by
  induction cs generalizing cum i with
  | nil => exact absurd hi (Nat.not_lt_zero i)
  | cons c cs ih =>
    cases i with
    | zero =>
      have hassoc : cum + (c + 1) = cum + c + 1 := by ac_rfl
      rw [List.getElem_cons_zero, List.set_cons_zero, List.foldl_cons, List.foldl_cons, hassoc,
        foldl_add_add]
    | succ i =>
      rw [List.getElem_cons_succ, List.set_cons_succ, List.foldl_cons, List.foldl_cons, ih]

theorem Snapshot.total_addOne {s t : Snapshot} {i : Fin numBuckets}
    (h : t.buckets = addOne s.buckets i) : t.total = s.total + 1 := by
  have hlt : i.val < s.buckets.toList.length := by simp
  have hlist : (addOne s.buckets i).toList =
      s.buckets.toList.set i.val (s.buckets.toList[i.val] + 1) := by
    simp [addOne, Vector.toList_set]
  rw [total, total, h, hlist, foldl_add_set]

/-- The counters agree on how many requests there were. -/
structure Snapshot.Balanced (s : Snapshot) : Prop where
  statuses : s.statusOK + s.status4x + s.status5x = s.count
  histogram : s.total = s.count + s.errors

theorem newMetrics_balanced : newMetrics.snapshot.Balanced := by
  constructor <;> decide +kernel

theorem Metrics.observe_balanced {m : Metrics} (h : m.snapshot.Balanced) (o : Observation) :
    (m.observe o).snapshot.Balanced := by
  obtain ⟨hstatuses, hhistogram⟩ := h
  have hbuckets := buckets_observe m o
  cases o with
  | wire micros => exact ⟨hstatuses, hhistogram⟩
  | conn reused => cases reused <;> exact ⟨hstatuses, hhistogram⟩
  | success latencyMicros n status =>
    have htotal := Snapshot.total_addOne (s := m.snapshot)
      (t := (m.observe (.success latencyMicros n status)).snapshot) hbuckets
    have hcount : (m.observe (.success latencyMicros n status)).snapshot.count =
        m.snapshot.count + 1 := by
      simp only [observe, observeSuccess]
      split_ifs <;> rfl
    have herrors : (m.observe (.success latencyMicros n status)).snapshot.errors =
        m.snapshot.errors := by
      simp only [observe, observeSuccess]
      split_ifs <;> rfl
    constructor
    · rw [hcount, ← hstatuses]
      simp only [observe, observeSuccess]
      split_ifs <;> simp only [snapshot] <;> ac_rfl
    · rw [htotal, hcount, herrors, hhistogram]
      ac_rfl
  | error latencyMicros timeout =>
    have htotal := Snapshot.total_addOne (s := m.snapshot)
      (t := (m.observe (.error latencyMicros timeout)).snapshot) hbuckets
    constructor
    · cases timeout <;> exact hstatuses
    · have herrors : (m.observe (.error latencyMicros timeout)).snapshot.errors =
          m.snapshot.errors + 1 := by
        cases timeout <;> rfl
      have hcount : (m.observe (.error latencyMicros timeout)).snapshot.count =
          m.snapshot.count := by
        cases timeout <;> rfl
      rw [htotal, hcount, herrors, hhistogram]
      ac_rfl

theorem Metrics.observeAll_balanced (b : List Observation) {m : Metrics}
    (h : m.snapshot.Balanced) : (m.observeAll b).snapshot.Balanced := by
  induction b generalizing m with
  | nil => exact h
  | cons o b ih => exact ih (observe_balanced h o)

/-- The mean divides by what the quantiles count. -/
theorem Snapshot.Balanced.meanLatencyMillis {s : Snapshot} (h : s.Balanced) :
    s.meanLatencyMillis =
      if s.total = 0 then 0 else (s.latSum.toNat : ℚ) / s.total.toNat / 1000 := by
  rw [h.histogram]
  rfl

/-- The delta of two snapshots is what fresh counters make of the observations in
between, in every counter and bucket; its histogram counts the requests that its
counters count, so its mean and its quantiles are about the same ones. -/
theorem snapshot_deltas_exact (a b : List Observation) :
    let delta := (newMetrics.observeAll (a ++ b)).snapshot.sub (newMetrics.observeAll a).snapshot
    delta = (newMetrics.observeAll b).snapshot ∧
    delta.statusOK + delta.status4x + delta.status5x = delta.count ∧
    delta.total = delta.count + delta.errors ∧
    delta.meanLatencyMillis =
      if delta.total = 0 then 0 else (delta.latSum.toNat : ℚ) / delta.total.toNat / 1000 := by
  intro delta
  have happend : newMetrics.observeAll (a ++ b) = (newMetrics.observeAll a).observeAll b :=
    List.foldl_append
  have hdelta : delta = (newMetrics.observeAll b).snapshot := by
    have hsub := Metrics.snapshot_sub (newMetrics.observeAll a) b
    rwa [← happend] at hsub
  have hbalanced := Metrics.observeAll_balanced b newMetrics_balanced
  rw [← hdelta] at hbalanced
  exact ⟨hdelta, hbalanced.statuses, hbalanced.histogram, hbalanced.meanLatencyMillis⟩

end R2Bench
