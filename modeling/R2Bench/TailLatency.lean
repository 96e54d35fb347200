import R2Bench.AgentReports
import R2Bench.Quantiles
import R2Bench.Watch

/-!
# The tail on the watch page

A minute shows the greatest of its reports' quantiles. Every report truncates its
own rank, so the maximum can lie below the quantile of all requests together: the
truncated ranks may add up to less than the truncated rank of the sum.
-/
namespace R2Bench
open Grouping

/-- A report of one agent for one tick, as its row is stored. -/
structure TickReport where
  metricId : String
  token : String
  assignment : Assignment
  cumulative : Snapshot
  histogram : Snapshot
  totalSecs : ℚ
  intervalSecs : ℚ
  tick : ℤ
  createdAt : ℤ

def TickReport.row (t : TickReport) : MetricRow :=
  Database.metricRow t.metricId ((buildReport t.assignment t.cumulative t.histogram t.totalSecs
    t.intervalSecs t.tick).body t.token) t.createdAt

/-- The two tail quantiles of a report. -/
inductive Tail
  | p95
  | p99
  deriving DecidableEq, Repr

namespace Tail

def q : Tail → ℚ
  | p95 => 95 / 100
  | p99 => 99 / 100

def ofRow : Tail → MetricRow → ℚ
  | p95, m => m.p95
  | p99, m => m.p99

def ofAgent : Tail → AgentMinute → ℚ
  | p95, a => a.p95
  | p99, a => a.p99

def shown : Tail → MinuteRow → ℚ
  | p95, x => x.p95
  | p99, x => x.p99

theorem ofRow_row (tail : Tail) (t : TickReport) :
    tail.ofRow t.row = t.histogram.quantile tail.q := by cases tail <;> rfl

theorem ofAgent_agentMinute (tail : Tail) (g : (String × ℤ) × List MetricRow) :
    tail.ofAgent (agentMinute g) = maxOf 0 (g.2.map tail.ofRow) := by cases tail <;> rfl

theorem shown_minuteRow (tail : Tail) (g : ℤ × List AgentMinute) :
    tail.shown (minuteRow g) = maxOf 0 (g.2.map tail.ofAgent) := by cases tail <;> rfl

end Tail

/-! ## What a minute shows -/

section
variable {db : Database} {jobId : String} {x : MinuteRow}

/-- The nested maxima of the query are a maximum over the rows of the minute. -/
theorem Database.le_shown_iff (h : x ∈ db.watchMinutes jobId) (tail : Tail) (y : ℚ) :
    y ≤ tail.shown x ↔ ∃ m ∈ db.metricsIn jobId x.createdAt, y ≤ tail.ofRow m := by
  obtain ⟨as, hx, hne, hperm⟩ := db.watchMinutes_group h
  have hagent : (∃ a ∈ as, y ≤ tail.ofAgent a) ↔
      ∃ g ∈ agentsIn (db.metricsIn jobId x.createdAt), ∃ m ∈ g.2, y ≤ tail.ofRow m := by
    simp only [hperm.mem_iff, List.mem_map, exists_exists_and_eq_and, tail.ofAgent_agentMinute]
    refine exists_congr fun g => and_congr_right fun hg => ?_
    rw [le_maxOf_iff (by simpa using ne_nil_of_mem_groupBy hg)]
    simp
  have hshown : tail.shown x = maxOf 0 (as.map tail.ofAgent) :=
    (congrArg tail.shown hx).trans (tail.shown_minuteRow _)
  rw [hshown, le_maxOf_iff (by simpa using hne)]
  simp only [List.mem_map, exists_exists_and_eq_and, hagent]
  exact exists_mem_groupBy

end

/-! ## Pooled histograms -/

/-- The bucketwise sum, with all other counters summed alike. -/
def pool (hists : List Snapshot) : Snapshot := hists.foldr Snapshot.add newMetrics.snapshot

/-- By every bucket at which each histogram has reached its own truncated rank, the
pooled histogram has reached its own. -/
def TailKept (q : ℚ) (hists : List Snapshot) : Prop :=
  ∀ b < numBuckets - 1, (∀ s ∈ hists, s.ReachedBy q b) → (pool hists).ReachedBy q b

/-- Some histogram of a family has as high a rank bucket as the pooled one. -/
theorem tailKept_iff {q : ℚ} {hists : List Snapshot} (hne : hists ≠ []) :
    TailKept q hists ↔ ∃ s ∈ hists, (pool hists).rankBucket q ≤ s.rankBucket q := by
  constructor
  · intro hkept
    by_contra hbelow
    push Not at hbelow
    obtain ⟨s, hs⟩ := List.exists_mem_of_ne_nil _ hne
    have hfirst := hbelow s hs
    have hlast := (pool hists).rankBucket_lt q
    -- the bucket below the pooled one
    have hb : (pool hists).rankBucket q - 1 < numBuckets - 1 := by omega
    have hreached := hkept _ hb fun t ht => by
      rw [← t.rankBucket_le_iff q hb]
      exact Nat.le_sub_one_of_lt (hbelow t ht)
    rw [← Snapshot.rankBucket_le_iff _ q hb] at hreached
    omega
  · rintro ⟨s, hs, hle⟩ b hb hreached
    rw [← Snapshot.rankBucket_le_iff _ q hb]
    exact hle.trans ((s.rankBucket_le_iff q hb).mpr (hreached s hs))

/-- A minute of reports shows at least the pooled quantile exactly when the
truncated ranks keep the tail. -/
theorem pool_le_shown_iff {db : Database} {jobId : String} {x : MinuteRow} {ticks : List TickReport}
    (hx : x ∈ db.watchMinutes jobId)
    (hrows : db.metricsIn jobId x.createdAt = ticks.map TickReport.row) (tail : Tail) :
    (pool (ticks.map TickReport.histogram)).quantile tail.q ≤ tail.shown x ↔
      TailKept tail.q (ticks.map TickReport.histogram) := by
  have hne : ticks.map TickReport.histogram ≠ [] := by
    intro hnil
    obtain ⟨as, -, has, hperm⟩ := db.watchMinutes_group hx
    have hticks : ticks = [] := by simpa using hnil
    rw [hrows, hticks] at hperm
    exact has hperm.eq_nil
  rw [tailKept_iff hne, db.le_shown_iff hx, hrows]
  simp only [List.mem_map, exists_exists_and_eq_and, tail.ofRow_row,
    Snapshot.quantile_le_quantile_iff]

/-! ## Ranks lost to truncation -/

theorem sum_zipWith_add (xs ys : List ℕ) (h : xs.length = ys.length) :
    (List.zipWith (· + ·) xs ys).sum = xs.sum + ys.sum := by
  induction xs generalizing ys with
  | nil =>
    cases ys with
    | nil => rfl
    | cons y ys => cases h
  | cons x xs ih =>
    cases ys with
    | nil => cases h
    | cons y ys =>
      rw [List.zipWith_cons_cons, List.sum_cons, ih ys (Nat.succ.inj h), List.sum_cons,
        List.sum_cons]
      omega

namespace Snapshot

/-- Counters that do not overflow add up as numbers. -/
theorem counts_add {s t : Snapshot} (h : s.counts.sum + t.counts.sum < 2 ^ 64) :
    (s.add t).counts = List.zipWith (· + ·) s.counts t.counts := by
  apply List.ext_getElem (by simp)
  intro i hi hi'
  have hs : i < s.counts.length := by simpa using hi
  have ht : i < t.counts.length := by simpa using hi
  have hsle := List.le_sum_of_mem (List.getElem_mem hs)
  have htle := List.le_sum_of_mem (List.getElem_mem ht)
  rw [List.getElem_zipWith]
  simp only [counts, List.getElem_map, Vector.getElem_toList] at hsle htle ⊢
  simp only [add, Vector.getElem_zipWith, UInt64.toNat_add]
  exact Nat.mod_eq_of_lt (by unfold counts at h; omega)

theorem counts_add_take {s t : Snapshot} (h : s.counts.sum + t.counts.sum < 2 ^ 64) (n : ℕ) :
    ((s.add t).counts.take n).sum = (s.counts.take n).sum + (t.counts.take n).sum := by
  rw [counts_add h, List.take_zipWith, sum_zipWith_add _ _ (by simp)]

end Snapshot

theorem Snapshot.take_counts (s : Snapshot) : s.counts.take numBuckets = s.counts :=
  List.take_of_length_le (by simp)

/-- The number of requests in the histograms of a family. -/
def totalOf (hists : List Snapshot) : ℕ := (hists.map fun s => s.counts.sum).sum

theorem counts_pool {hists : List Snapshot} (h : totalOf hists < 2 ^ 64) (n : ℕ) :
    ((pool hists).counts.take n).sum = (hists.map fun s => (s.counts.take n).sum).sum := by
  induction hists generalizing n with
  | nil => simp [pool, Snapshot.counts, newMetrics, Metrics.snapshot]
  | cons s hists ih =>
    rw [totalOf, List.map_cons, List.sum_cons] at h
    have hrest : totalOf hists < 2 ^ 64 := Nat.lt_of_le_of_lt (Nat.le_add_left _ _) h
    have htotal := ih hrest numBuckets
    simp only [Snapshot.take_counts] at htotal
    have hfit : s.counts.sum + (pool hists).counts.sum < 2 ^ 64 := by
      rw [htotal]
      exact h
    rw [List.map_cons, List.sum_cons, ← ih hrest n]
    exact Snapshot.counts_add_take hfit n

theorem sum_counts_pool {hists : List Snapshot} (h : totalOf hists < 2 ^ 64) :
    (pool hists).counts.sum = totalOf hists := by
  have hall := counts_pool h numBuckets
  simp only [Snapshot.take_counts] at hall
  exact hall

/-- The rank that `Quantile` searches among `n` requests. -/
def floorRank (q : ℚ) (n : ℕ) : ℕ := ⌊q * n⌋₊

theorem floorRank_le {q : ℚ} (hq : q ≤ 1) (n : ℕ) : floorRank q n ≤ n :=
  Ranks.floor_mul_le hq n

/-- The tail is kept when the truncated ranks add up to that of the sum. -/
theorem tailKept_of_ranks {q : ℚ} (hq : q ≤ 1) {hists : List Snapshot}
    (h : totalOf hists < 2 ^ 64)
    (hranks : floorRank q (totalOf hists) ≤
      (hists.map fun s => floorRank q s.counts.sum).sum) : TailKept q hists := by
  intro b _ hreached
  rw [Snapshot.reachedBy_iff _ (by rwa [sum_counts_pool h]) hq, sum_counts_pool h, counts_pool h]
  refine hranks.trans (List.sum_le_sum fun s hs => ?_)
  have hle : s.counts.sum ≤ totalOf hists := List.le_sum_of_mem (List.mem_map.mpr ⟨s, hs, rfl⟩)
  exact (s.reachedBy_iff (Nat.lt_of_le_of_lt hle h) hq b).mp (hreached s hs)

/-- A histogram with `low` requests in the first bucket and the others in the
second. -/
def lowHigh (low n : ℕ) : Snapshot :=
  { newMetrics.snapshot with
    buckets := ((Vector.replicate numBuckets 0).set 0 (UInt64.ofNat low)).set 1
      (UInt64.ofNat (n - low)) }

theorem counts_lowHigh {low n : ℕ} (hlow : low ≤ n) (hn : n < 2 ^ 64) :
    (lowHigh low n).counts = low :: (n - low) :: List.replicate 254 0 := by
  have hlist : (lowHigh low n).buckets.toList =
      UInt64.ofNat low :: UInt64.ofNat (n - low) :: List.replicate 254 0 := rfl
  have hlow' : (UInt64.ofNat low).toNat = low :=
    UInt64.toNat_ofNat_of_lt' (Nat.lt_of_le_of_lt hlow hn)
  have hhigh : (UInt64.ofNat (n - low)).toNat = n - low :=
    UInt64.toNat_ofNat_of_lt' (Nat.lt_of_le_of_lt (Nat.sub_le _ _) hn)
  rw [Snapshot.counts, hlist, List.map_cons, List.map_cons, List.map_replicate, hlow', hhigh]
  rfl

theorem sum_counts_lowHigh {low n : ℕ} (hlow : low ≤ n) (hn : n < 2 ^ 64) :
    (lowHigh low n).counts.sum = n := by
  rw [counts_lowHigh hlow hn, List.sum_cons, List.sum_cons, List.sum_replicate, smul_zero,
    Nat.add_zero]
  exact Nat.add_sub_cancel' hlow

/-- Otherwise some histograms with the same totals lose it. -/
theorem exists_not_tailKept {q : ℚ} (hq : q ≤ 1) {ns : List ℕ} (h : ns.sum < 2 ^ 64)
    (hranks : (ns.map (floorRank q)).sum < floorRank q ns.sum) :
    ∃ hists : List Snapshot, (hists.map fun s => s.counts.sum) = ns ∧ ¬ TailKept q hists := by
  have hlt : ∀ n ∈ ns, n < 2 ^ 64 := fun n hn =>
    Nat.lt_of_le_of_lt (List.le_sum_of_mem hn) h
  have hcounts : ∀ n ∈ ns, (lowHigh (floorRank q n) n).counts =
      floorRank q n :: (n - floorRank q n) :: List.replicate 254 0 := fun n hn =>
    counts_lowHigh (floorRank_le hq n) (hlt n hn)
  have htotal : ∀ n ∈ ns, (lowHigh (floorRank q n) n).counts.sum = n := fun n hn =>
    sum_counts_lowHigh (floorRank_le hq n) (hlt n hn)
  have hlow : ∀ n ∈ ns, ((lowHigh (floorRank q n) n).counts.take (0 + 1)).sum = floorRank q n := by
    intro n hn
    rw [hcounts n hn, List.take_succ_cons, List.take_zero, List.sum_singleton]
  have hmap : ((ns.map fun n => lowHigh (floorRank q n) n).map fun s => s.counts.sum) = ns := by
    rw [List.map_map]
    exact (List.map_congr_left htotal).trans (List.map_id' ns)
  have hpool : totalOf (ns.map fun n => lowHigh (floorRank q n) n) = ns.sum :=
    congrArg List.sum hmap
  have hfit : totalOf (ns.map fun n => lowHigh (floorRank q n) n) < 2 ^ 64 := by rwa [hpool]
  refine ⟨_, hmap, fun hkept => ?_⟩
  have hreached : ∀ s ∈ ns.map fun n => lowHigh (floorRank q n) n, s.ReachedBy q 0 := by
    intro s hs
    obtain ⟨n, hn, rfl⟩ := List.mem_map.mp hs
    rw [Snapshot.reachedBy_iff _ (by rw [htotal n hn]; exact hlt n hn) hq, htotal n hn, hlow n hn]
    exact le_rfl
  have hfirst := hkept 0 (by decide) hreached
  rw [Snapshot.reachedBy_iff _ (by rwa [sum_counts_pool hfit]) hq, sum_counts_pool hfit,
    counts_pool hfit, hpool, List.map_map] at hfirst
  have hsums := congrArg List.sum (List.map_congr_left hlow)
  exact absurd hranks (Nat.not_lt.mpr (hfirst.trans hsums.le))

/-! ## The totals of a minute -/

/-- What an agent of one job reports for tick `tick`, the delta of the interval being
all it has measured so far. -/
def tickReport (tick : ℤ) (delta : Snapshot) : TickReport where
  metricId := toString tick
  token := "t"
  assignment := { jobId := "j", spawnId := "j-a", targetRPS := 1, workers := 1, stopAt := 60000,
                  unthrottled := false }
  cumulative := delta
  histogram := delta
  totalSecs := 1
  intervalSecs := 1
  tick := tick
  createdAt := tick

/-- The database after the reports of a job's first ticks. -/
def reported (deltas : List (ℤ × Snapshot)) : Database :=
  ⟨[], [], deltas.map fun d => (tickReport d.1 d.2).row⟩

/-- Reports of the first minute are one minute of the page. -/
theorem reported_minute (deltas : List (ℤ × Snapshot)) (hne : deltas ≠ [])
    (h : ∀ d ∈ deltas, d.1 / 60 = 0) :
    ∃ x ∈ (reported deltas).watchMinutes "j",
      (reported deltas).metricsIn "j" x.createdAt =
        (deltas.map fun d => tickReport d.1 d.2).map TickReport.row := by
  have hjob : (reported deltas).metricsOfJob "j" =
      deltas.map fun d => (tickReport d.1 d.2).row := by
    apply List.filter_eq_self.mpr
    intro m hm
    obtain ⟨d, -, rfl⟩ := List.mem_map.mp hm
    rfl
  have hminutes : (deltas.map fun d => (tickReport d.1 d.2).row).map MetricRow.minute =
      List.replicate deltas.length 0 := by
    rw [List.map_map, ← List.map_const']
    exact List.map_congr_left h
  have hrecent : (reported deltas).recentMinutes "j" = [0] := by
    rw [Database.recentMinutes, hjob, hminutes,
      List.replicate_dedup (by simpa using hne), List.mergeSort_singleton]
    rfl
  obtain ⟨x, hx, hzero⟩ : ∃ x ∈ (reported deltas).watchMinutes "j", x.createdAt = 0 := by
    rw [← List.mem_map, Database.watchMinutes_createdAt, hrecent]
    exact List.mem_singleton_self 0
  refine ⟨x, hx, ?_⟩
  rw [hzero, Database.metricsIn, hjob, List.map_map]
  apply List.filter_eq_self.mpr
  intro m hm
  obtain ⟨d, hd, rfl⟩ := List.mem_map.mp hm
  exact decide_eq_true (h d hd)

/-- For given numbers of requests in the reports of a minute: whatever their
histograms hold, the minute shows at least the pooled quantile, if and only if the
truncated ranks of the reports add up to that of all the requests. -/
theorem tail_shown_iff_ranks {ns : List ℕ} (h : ns.sum < 2 ^ 64) (tail : Tail) :
    (∀ (db : Database) (jobId : String) (x : MinuteRow) (ticks : List TickReport),
      x ∈ db.watchMinutes jobId → db.metricsIn jobId x.createdAt = ticks.map TickReport.row →
      (ticks.map fun t => t.histogram.counts.sum) = ns →
      (pool (ticks.map TickReport.histogram)).quantile tail.q ≤ tail.shown x) ↔
    floorRank tail.q ns.sum ≤ (ns.map (floorRank tail.q)).sum := by
  have hq : tail.q ≤ 1 := by cases tail <;> norm_num [Tail.q]
  constructor
  · intro hshown
    by_contra hranks
    obtain ⟨hists, hns, hlost⟩ := exists_not_tailKept hq h (Nat.lt_of_not_le hranks)
    have hne : hists ≠ [] := by
      rintro rfl
      rw [← hns] at hranks
      exact hranks (by simp [floorRank])
    -- all the reports in the first minute
    have hdeltas : ((hists.map fun s => ((0 : ℤ), s)).map fun d => tickReport d.1 d.2) =
        hists.map (tickReport 0) := by simp
    obtain ⟨x, hx, hrows⟩ := reported_minute (hists.map fun s => (0, s))
      (by simpa using hne) (by simp)
    rw [hdeltas] at hrows
    have hback : (hists.map (tickReport 0)).map TickReport.histogram = hists := by
      rw [List.map_map]
      exact List.map_id' hists
    have hle := hshown _ _ x _ hx hrows (by rw [List.map_map]; exact hns)
    rw [pool_le_shown_iff hx hrows, hback] at hle
    exact hlost hle
  · rintro hranks db jobId x ticks hx hrows rfl
    rw [pool_le_shown_iff hx hrows]
    have htotal : totalOf (ticks.map TickReport.histogram) =
        (ticks.map fun t => t.histogram.counts.sum).sum := by rw [totalOf, List.map_map]; rfl
    refine tailKept_of_ranks hq (by rwa [htotal]) ?_
    rw [htotal, List.map_map]
    rw [List.map_map] at hranks
    exact hranks

/-- Two reports of twenty requests: the ranks 19 and 19 add up to 38. One report has
its last request in a higher bucket, the other has them all there. -/
theorem tail_shown_twenty :
    ∃ x ∈ (reported [(0, lowHigh 19 20), (1, lowHigh 0 20)]).watchMinutes "j",
      (pool [lowHigh 19 20, lowHigh 0 20]).quantile Tail.p95.q ≤ Tail.p95.shown x := by
  obtain ⟨x, hx, hrows⟩ := reported_minute [(0, lowHigh 19 20), (1, lowHigh 0 20)]
    (by simp) (by simp)
  have hone : floorRank Tail.p95.q 20 = 19 :=
    (Nat.floor_eq_iff (by norm_num [Tail.q])).mpr (by norm_num [Tail.q])
  have hboth : floorRank Tail.p95.q 40 = 38 :=
    (Nat.floor_eq_iff (by norm_num [Tail.q])).mpr (by norm_num [Tail.q])
  have hcounts : ([tickReport 0 (lowHigh 19 20), tickReport 1 (lowHigh 0 20)].map
      fun t => t.histogram.counts.sum) = [20, 20] := by
    have hmixed : (lowHigh 19 20).counts.sum = 20 := sum_counts_lowHigh (by decide) (by decide)
    have hhigh : (lowHigh 0 20).counts.sum = 20 := sum_counts_lowHigh (by decide) (by decide)
    simp only [tickReport, List.map_cons, List.map_nil, hmixed, hhigh]
  have hpool : (([(0, lowHigh 19 20), (1, lowHigh 0 20)].map
      fun d : ℤ × Snapshot => tickReport d.1 d.2).map TickReport.histogram) =
        [lowHigh 19 20, lowHigh 0 20] := by simp only [tickReport, List.map_cons, List.map_nil]
  have hranks : floorRank Tail.p95.q [20, 20].sum ≤ ([20, 20].map (floorRank Tail.p95.q)).sum := by
    simp [hone, hboth]
  have hshown := (tail_shown_iff_ranks (by decide) .p95).mpr hranks _ _ x _ hx hrows hcounts
  rw [hpool] at hshown
  exact ⟨x, hx, hshown⟩

/-- The delta of an interval with one request of one second. -/
def slowRequest : Snapshot := interval newMetrics [.success 1000000 0 200]

/-- Two reports with a single request of one second each: the minute shows 0, and
the pooled quantile is that of the requests. -/
theorem tail_understated : ¬ ∀ (db : Database) (jobId : String) (x : MinuteRow)
    (ticks : List TickReport) (tail : Tail), x ∈ db.watchMinutes jobId →
    db.metricsIn jobId x.createdAt = ticks.map TickReport.row →
    (pool (ticks.map TickReport.histogram)).quantile tail.q ≤ tail.shown x := by
  intro hclaim
  obtain ⟨x, hx, hrows⟩ := reported_minute [(0, slowRequest), (1, slowRequest)]
    (by simp) (by simp)
  have hle := hclaim _ _ x _ .p95 hx hrows
  have hpool : ([(0, slowRequest), (1, slowRequest)].map
      fun d : ℤ × Snapshot => tickReport d.1 d.2).map TickReport.histogram =
        [slowRequest, slowRequest] := rfl
  rw [Database.le_shown_iff hx, hrows, hpool] at hle
  obtain ⟨m, hm, hle⟩ := hle
  obtain ⟨t, ht, rfl⟩ := List.mem_map.mp hm
  have hdelta : t.histogram = slowRequest := by
    obtain ⟨d, hd, rfl⟩ := List.mem_map.mp ht
    simp only [List.mem_cons, List.not_mem_nil, or_false] at hd
    rcases hd with rfl | rfl <;> rfl
  have hlen : (micros [.success 1000000 0 200]).length = 1 := rfl
  have hown : slowRequest.rankBucket Tail.p95.q = 0 := by
    rw [slowRequest, rankBucket_interval newMetrics _ (by decide) (by decide)
      (by norm_num [Tail.q]), hlen, if_pos (by norm_num [Tail.q])]
  have hsum : slowRequest.counts.sum = 1 :=
    (counts_interval_sum newMetrics [.success 1000000 0 200] (by decide)).trans hlen
  have htotal : totalOf [slowRequest, slowRequest] = 2 := by simp [totalOf, hsum]
  have hlow : (slowRequest.counts.take (0 + 1)).sum = 0 := by
    rw [slowRequest, counts_interval_take _ _ (by decide) (by decide)]
    decide +kernel
  rw [Tail.ofRow_row, Snapshot.quantile_le_quantile_iff, hdelta, hown,
    Snapshot.rankBucket_le_iff _ _ (by decide)] at hle
  rw [Snapshot.reachedBy_iff _ (by rw [sum_counts_pool (by rw [htotal]; decide), htotal]; decide)
    (by norm_num [Tail.q]), sum_counts_pool (by rw [htotal]; decide), htotal,
    counts_pool (by rw [htotal]; decide)] at hle
  have hrank : ⌊Tail.p95.q * (2 : ℕ)⌋₊ = 1 :=
    (Nat.floor_eq_iff (by norm_num [Tail.q])).mpr (by norm_num [Tail.q])
  rw [hrank] at hle
  simp [hlow] at hle

end R2Bench
