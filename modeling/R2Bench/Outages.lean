import R2Bench.Repairs

/-!
# Riding out an outage

`putWithRetry` waits longer before each further attempt. An outage that ends before
the waits are over costs nothing, however the requests that it hits are delayed.
Times are in milliseconds.
-/
namespace R2Bench
open Machines

/-- What is slept before an attempt; `jitter` is what `rand.IntN(100)` yields. -/
def backoff (attempt jitter : ℕ) : ℕ := 2 ^ attempt * 100 + jitter

/-- When the attempts of one `putWithRetry` are sent and when it is known how each came out. -/
structure Timetable where
  sent : ℕ → ℕ
  heard : ℕ → ℕ
  jitter : ℕ → ℕ
  jitter_lt : ∀ attempt, jitter attempt < 100
  sent_le : ∀ attempt, sent attempt ≤ heard attempt
  waits : ∀ attempt, heard attempt + backoff (attempt + 1) (jitter (attempt + 1)) ≤
    sent (attempt + 1)

structure Outage where
  starts : ℕ
  ends : ℕ

/-- The attempt is under way at some time of the outage. -/
def Outage.Hits (x : Outage) (t : Timetable) (attempt : ℕ) : Prop :=
  x.starts ≤ t.heard attempt ∧ t.sent attempt ≤ x.ends

namespace Timetable
variable (t : Timetable)

/-- The waits add up. -/
theorem heard_add_le_sent (n : ℕ) : t.heard 0 + (2 ^ (n + 2) - 2) * 100 ≤ t.sent (n + 1) := by
  induction n with
  | zero =>
    have hwait := t.waits 0
    simp only [backoff] at hwait
    omega
  | succ n ih =>
    have hwait := t.waits (n + 1)
    have hsent := t.sent_le (n + 1)
    have hpow : 2 ^ (n + 1 + 2) = 2 * 2 ^ (n + 1 + 1) := by ring
    have hfour : 4 ≤ 2 ^ (n + 1 + 1) := by
      calc 4 = 2 ^ (0 + 1 + 1) := rfl
        _ ≤ 2 ^ (n + 1 + 1) := Nat.pow_le_pow_right (by norm_num) (by omega)
    have hsame : 2 ^ (n + 2) = 2 ^ (n + 1 + 1) := rfl
    simp only [backoff] at hwait
    omega

/-- An outage that hits all attempts is as long as the waits between them. -/
theorem length_of_hits {x : Outage} (h : ∀ attempt < attempts, x.Hits t attempt) :
    x.starts + 6200 ≤ x.ends := by
  have hwaits := t.heard_add_le_sent 4
  have hfirst := (h 0 (by decide)).1
  have hlast := (h 5 (by decide)).2
  norm_num at hwaits
  omega

end Timetable

/-- An attempt fails only where the outage hits it. -/
structure Outage.Explains (x : Outage) (p : Pattern) (objects : Job → Timetable)
    (sentinels : ℕ → Timetable) : Prop where
  object : ∀ j attempt, p.object j attempt ≠ .ok → x.Hits (objects j) attempt
  sentinel : ∀ b attempt, p.sentinel b attempt ≠ .ok → x.Hits (sentinels b) attempt

theorem succeeds_of_short {x : Outage} {replies : ℕ → PutReply} {t : Timetable}
    (short : x.ends < x.starts + 6200) (h : ∀ attempt, replies attempt ≠ .ok → x.Hits t attempt) :
    succeeds replies = true := by
  by_contra hfails
  have hall : ∀ attempt < attempts, replies attempt ≠ .ok := fun attempt hattempt hok =>
    hfails (succeeds_of_ok hattempt hok)
  have hlength := t.length_of_hits fun attempt hattempt => h attempt (hall attempt hattempt)
  omega

theorem allLand_of_short {x : Outage} {p : Pattern} {objects : Job → Timetable}
    {sentinels : ℕ → Timetable} (short : x.ends < x.starts + 6200)
    (explains : x.Explains p objects sentinels) : p.AllLand where
  objects j := succeeds_of_short short (explains.object j)
  sentinels b := succeeds_of_short short (explains.sentinel b)

theorem sentinelsWritten_of_allLand {p : Pattern} (lands : p.AllLand) (plan : SeedPlan) :
    sentinelsWritten p plan = plan.todo := by
  have hclean : cleanBuckets p plan plan.todo = plan.todo :=
    List.filter_eq_self.mpr fun b _ => by
      rw [decide_eq_true_eq]
      exact fun j _ _ => lands.objects j
  rw [sentinelsWritten, hclean]
  exact List.takeWhile_eq_self_iff.mpr fun b _ => lands.sentinels b

theorem count_of_allLand {p : Pattern} (lands : p.AllLand) (jobs : List Job) :
    (p.count jobs).written = jobs.length ∧ (p.count jobs).failed = 0 := by
  simp [Pattern.count, lands.objects]

/-- While objects and sentinels are written an outage of less than 6.2 s costs nothing:
whatever the workers do in it, and however long it holds their requests up, the run counts
each planned object as written, leaves all of them and the sentinels in their buckets, and
returns without an error. -/
theorem outage_costs_nothing {x : Outage} {p : Pattern} {objects : Job → Timetable}
    {sentinels : ℕ → Timetable} (short : x.ends < x.starts + 6200)
    (explains : x.Explains p objects sentinels) {plan : SeedPlan} {o : Options}
    {words : ℕ → UInt64} {s s' : Store} {acts : List SeederAct} {result : Option RunError}
    {events : List SeederEvent}
    (run : Run (o.advance words) p.Follows (s, plan.begin) acts (s', .returned result))
    (hevents : events = log (o.advance words) seederEvent acts (s, plan.begin)) :
    result = none ∧ (finalCounters events).written = plan.jobs.length ∧
      (finalCounters events).failed = 0 ∧ stampedBuckets events = plan.todo ∧
      ∀ j ∈ plan.jobs, (s' (o.bucketName j.bucket) (o.naming.objectKey j.key)).isSome = true := by
  have lands := allLand_of_short short explains
  obtain ⟨hresult, -, hthere⟩ := filled_of_run lands run hevents
  obtain ⟨-, hcounters, hstamped⟩ := told_of_run run
  rw [← hevents] at hcounters hstamped
  obtain ⟨hwritten, hfailed⟩ := count_of_allLand lands plan.jobs
  rw [hcounters, hstamped]
  exact ⟨hresult, hwritten, hfailed, sentinelsWritten_of_allLand lands plan, hthere⟩

/-! ## Two seconds -/

/-- Attempts that fail or succeed at once, the first of them at this time. -/
def promptly (first : ℕ) : Timetable where
  sent attempt := first + (2 ^ (attempt + 1) - 2) * 100
  heard attempt := first + (2 ^ (attempt + 1) - 2) * 100
  jitter _ := 0
  jitter_lt _ := by norm_num
  sent_le _ := le_rfl
  waits attempt := by
    have hpow : 2 ^ (attempt + 1 + 1) = 2 * 2 ^ (attempt + 1) := by ring
    have htwo : 0 < 2 ^ attempt := by positivity
    have hnext : 2 ^ (attempt + 1) = 2 * 2 ^ attempt := by ring
    simp only [backoff]
    omega

/-- No name resolves from second 1 to second 3. -/
def twoSeconds : Outage := ⟨1000, 3000⟩

/-- Four attempts at the object of bucket 0 are lost to it. -/
def lostFour : Pattern :=
  ⟨fun j attempt => if j.bucket = 0 ∧ attempt < 4 then .failed false else .ok, fun _ _ => .ok⟩

theorem twoSeconds_explains :
    twoSeconds.Explains lostFour (fun _ => promptly 1000) fun _ => promptly 0 where
  object j attempt h := by
    have hfew : attempt < 4 := by
      by_contra hmany
      simp [lostFour, hmany] at h
    simp only [Outage.Hits, twoSeconds, promptly]
    interval_cases attempt <;> norm_num
  sentinel b attempt h := absurd rfl h

theorem outage_costs_nothing_twoSeconds : ∃ (acts : List SeederAct) (s' : Store)
    (result : Option RunError) (events : List SeederEvent),
    events = log (pairOptions.advance fun _ => 0) seederEvent acts
      (Bench.empty.store, pairPlan.begin) ∧
    Run (pairOptions.advance fun _ => 0) lostFour.Follows (Bench.empty.store, pairPlan.begin)
      acts (s', .returned result) ∧
    result = none ∧ (finalCounters events).written = 2 ∧ stampedBuckets events = [0, 1] := by
  obtain ⟨s', result, run⟩ := exists_pair_run lostFour
    (seedOne (List.replicate 4 (.failed false) ++ [.ok]) ++ seedOne [.ok] ++
      [.drained, .stamp .ok, .stamp .ok]) (by decide +kernel)
  obtain ⟨hresult, hwritten, -, hstamped, -⟩ :=
    outage_costs_nothing (by decide) twoSeconds_explains run rfl
  exact ⟨_, s', result, _, rfl, run, hresult, hwritten, hstamped⟩

end R2Bench
