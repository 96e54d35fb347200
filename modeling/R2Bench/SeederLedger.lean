import R2Bench.SeederEvents
import R2Bench.Sentinels

/-!
# Every planned object is accounted for

Whatever the workers do in whatever order, and however each PUT comes out, a run
hands every planned job to one worker and counts it once, in its own bucket. The
sentinels are then written bucket by bucket, and the first that fails is the last
that is tried.
-/
namespace R2Bench
open Machines

/-- How each attempt at each object and at each sentinel comes out. -/
structure Pattern where
  object : Job → ℕ → PutReply
  sentinel : ℕ → ℕ → PutReply

/-- `putWithRetry` returns without an error. -/
def succeeds (replies : ℕ → PutReply) : Bool :=
  (List.range attempts).any fun tried => replies tried = .ok

theorem succeeds_of_ok {replies : ℕ → PutReply} {tried : ℕ} (ht : tried < attempts)
    (h : replies tried = .ok) : succeeds replies = true :=
  List.any_eq_true.mpr ⟨tried, List.mem_range.mpr ht, by simp [h]⟩

theorem not_succeeds {replies : ℕ → PutReply} (h : ∀ tried < attempts, replies tried ≠ .ok) :
    succeeds replies = false := by
  rw [succeeds, List.any_eq_false]
  intro tried ht
  simpa using h tried (List.mem_range.mp ht)

/-- One more attempt that fails. -/
theorem failing_succ {replies : ℕ → PutReply} {tried : ℕ} (before : ∀ t < tried, replies t ≠ .ok)
    (h : replies tried ≠ .ok) : ∀ t < tried + 1, replies t ≠ .ok := by
  intro t ht
  by_cases he : t = tried
  · subst he
    exact h
  · exact before t (by omega)

theorem not_succeeds_of_last {replies : ℕ → PutReply} {tried : ℕ}
    (failing : ∀ t < tried + 1, replies t ≠ .ok) (hlast : ¬ tried + 1 < attempts) :
    succeeds replies = false :=
  not_succeeds fun t ht => failing t (by omega)

namespace Pattern
variable (p : Pattern)

/-- The replies of a run are those of the pattern. -/
def Follows (x : Store × Phase) (a : SeederAct) : Prop :=
  (∀ worker reply todo work j tried, a = .put worker reply → x.2 = .seeding todo work →
    work.workers worker = some (j, tried) → reply = p.object j tried) ∧
  ∀ reply b rest tried c, a = .stamp reply → x.2 = .stamping b rest tried c →
    reply = p.sentinel b tried

def lands (j : Job) : Bool := succeeds (p.object j)

/-- What the counters come to for these jobs. -/
def count (jobs : List Job) : Counters where
  written := jobs.countP p.lands
  failed := jobs.countP fun j => !p.lands j
  failedPerBucket b := jobs.countP fun j => j.bucket = b ∧ !p.lands j

theorem count_cons (j : Job) (jobs : List Job) : p.count (j :: jobs) =
    if p.lands j then (p.count jobs).success else (p.count jobs).failure j.bucket := by
  cases hj : p.lands j with
  | true => simp [count, hj, Counters.success]
  | false =>
    simp only [count, Counters.failure, Bool.false_eq_true, if_false, Counters.mk.injEq]
    refine ⟨by simp [hj], by simp [hj], ?_⟩
    funext b
    by_cases hb : b = j.bucket
    · subst hb
      simp [hj]
    · simp [hb, Ne.symm hb]

theorem count_perm {jobs jobs' : List Job} (h : jobs.Perm jobs') :
    p.count jobs = p.count jobs' := by
  simp only [count, h.countP_eq]

end Pattern

/-! ## The workers' hands -/

/-- A function on the first numbers that takes on one more value. -/
theorem filterMap_range_update_perm {α : Type*} {f : ℕ → Option α} {n i : ℕ} (hi : i < n)
    (hf : f i = none) (x : α) : ((List.range n).filterMap (Function.update f i (some x))).Perm
      (x :: (List.range n).filterMap f) := by
  induction n with
  | zero => omega
  | succ n ih =>
    simp only [List.range_succ, List.filterMap_append]
    by_cases he : i = n
    · subst he
      have hsame : (List.range i).filterMap (Function.update f i (some x)) =
          (List.range i).filterMap f := by
        apply List.filterMap_congr
        intro k hk
        have hne : k ≠ i := (List.mem_range.mp hk).ne
        simp [hne]
      simp [hsame, hf]
    · have hlast : [n].filterMap (Function.update f i (some x)) = [n].filterMap f := by
        apply List.filterMap_congr
        intro k hk
        have hne : k ≠ i := by
          rw [List.mem_singleton.mp hk]
          exact Ne.symm he
        simp [hne]
      rw [hlast]
      exact (ih (by omega)).append_right _

namespace Seeding

/-- What the workers hold. -/
def held (work : Seeding) (n : ℕ) : List Job :=
  (List.range n).filterMap fun worker => (work.workers worker).map Prod.fst

/-- A worker takes a job into its empty hands. -/
theorem held_take {work work' : Seeding} {n worker tried : ℕ} {j : Job} (hworker : worker < n)
    (idle : work.workers worker = none)
    (h : work'.workers = Function.update work.workers worker (some (j, tried))) :
    (work'.held n).Perm (j :: work.held n) := by
  have hupdate : (fun k => (work'.workers k).map Prod.fst) =
      Function.update (fun k => (work.workers k).map Prod.fst) worker (some j) := by
    funext k
    by_cases hk : k = worker
    · subst hk
      simp [h]
    · simp [h, hk]
  simp only [held, hupdate]
  exact filterMap_range_update_perm hworker (by simp [idle]) j

/-- A worker tries its job again. -/
theorem held_again {work work' : Seeding} {worker tried tried' : ℕ} {j : Job} (n : ℕ)
    (holds : work.workers worker = some (j, tried))
    (h : work'.workers = Function.update work.workers worker (some (j, tried'))) :
    work'.held n = work.held n := by
  apply List.filterMap_congr
  intro k _
  by_cases hk : k = worker
  · subst hk
    simp [h, holds]
  · simp [h, hk]

end Seeding

/-- Where the jobs are: sent or not, and of those handed over, settled or held. -/
structure Ledger (p : Pattern) (n : ℕ) (jobs : List Job) (work : Seeding)
    (handed settled : List Job) : Prop where
  sent : (handed ++ (work.channel ++ work.pending)).Perm jobs
  taken : handed.Perm (settled ++ work.held n)
  within : ∀ worker, work.workers worker ≠ none → worker < n
  tries : ∀ worker j tried, work.workers worker = some (j, tried) →
    tried < attempts ∧ ∀ t < tried, p.object j t ≠ .ok
  counters : work.counters = p.count settled

namespace Ledger
variable {p : Pattern} {n : ℕ} {jobs handed settled : List Job} {work : Seeding}

theorem start (p : Pattern) (n : ℕ) (jobs : List Job) :
    Ledger p n jobs ⟨jobs, [], fun _ => none, .zero⟩ [] [] where
  sent := .refl _
  taken := by simp [Seeding.held]
  within worker h := absurd rfl h
  tries worker j tried h := by cases h
  counters := rfl

theorem send (h : Ledger p n jobs work handed settled) {j : Job} {rest : List Job}
    (hpending : work.pending = j :: rest) : Ledger p n jobs
      { work with pending := rest, channel := work.channel ++ [j] } handed settled where
  sent := by
    have hsent := h.sent
    rw [hpending] at hsent
    simpa using hsent
  taken := h.taken
  within := h.within
  tries := h.tries
  counters := h.counters

theorem receive (h : Ledger p n jobs work handed settled) {worker : ℕ} {j : Job} {rest : List Job}
    (hchannel : work.channel = j :: rest) (hworker : worker < n)
    (idle : work.workers worker = none) : Ledger p n jobs
      { work with
        channel := rest
        workers := Function.update work.workers worker (some (j, 0)) } (handed ++ [j]) settled where
  sent := by
    have hsent := h.sent
    rw [hchannel] at hsent
    simpa using hsent
  taken := by
    let work' := { work with
      channel := rest
      workers := Function.update work.workers worker (some (j, 0)) }
    have hheld : (work'.held n).Perm (j :: work.held n) := Seeding.held_take hworker idle rfl
    calc (handed ++ [j]).Perm (settled ++ work.held n ++ [j]) := h.taken.append_right [j]
      _ = settled ++ (work.held n ++ [j]) := List.append_assoc _ _ _
      (settled ++ (work.held n ++ [j])).Perm _ :=
        ((List.perm_append_singleton j _).trans hheld.symm).append_left settled
  within k hk := by
    by_cases he : k = worker
    · exact he ▸ hworker
    · exact h.within k (by simpa [he] using hk)
  tries k j' tried hk := by
    by_cases he : k = worker
    · subst he
      obtain ⟨rfl, rfl⟩ : j = j' ∧ 0 = tried := by simpa using hk
      exact ⟨by decide, fun t ht => absurd ht (Nat.not_lt_zero t)⟩
    · exact h.tries k j' tried (by simpa [he] using hk)
  counters := h.counters

/-- A worker that puts its job down has settled it. -/
theorem settle (h : Ledger p n jobs work handed settled) {worker tried : ℕ} {j : Job}
    (holds : work.workers worker = some (j, tried)) {counters : Counters}
    (hcounters : counters = p.count (j :: settled)) : Ledger p n jobs
      { work with
        workers := Function.update work.workers worker none
        counters := counters } handed (j :: settled) where
  sent := h.sent
  taken := by
    let work' := { work with
      workers := Function.update work.workers worker none
      counters := counters }
    have hput : work.workers = Function.update work'.workers worker (some (j, tried)) := by
      simp [work', ← holds]
    have hheld : (work.held n).Perm (j :: work'.held n) :=
      Seeding.held_take (h.within worker (by simp [holds])) (by simp [work']) hput
    exact h.taken.trans ((hheld.append_left settled).trans List.perm_middle)
  within k hk := by
    by_cases he : k = worker
    · subst he
      simp at hk
    · exact h.within k (by simpa [he] using hk)
  tries k j' tried' hk := by
    by_cases he : k = worker
    · subst he
      simp at hk
    · exact h.tries k j' tried' (by simpa [he] using hk)
  counters := hcounters

/-- A reply of the pattern has the job tried again, or settles it: with success, or
because no attempt at it succeeds. -/
theorem replied (h : Ledger p n jobs work handed settled) {worker tried : ℕ} {j : Job}
    (holds : work.workers worker = some (j, tried)) :
    ∃ settled', Ledger p n jobs (work.replied worker j tried (p.object j tried)) handed settled' ∧
      (settled' = settled ∨
        settled' = j :: settled ∧ (p.object j tried = .ok ∨ p.lands j = false)) := by
  obtain ⟨hlt, hbefore⟩ := h.tries worker j tried holds
  cases hreply : p.object j tried with
  | ok =>
    refine ⟨j :: settled, h.settle holds ?_, .inr ⟨rfl, .inl rfl⟩⟩
    have hlands : p.lands j = true := succeeds_of_ok hlt hreply
    rw [p.count_cons, if_pos hlands, ← h.counters]
  | failed landed =>
    have hnow : ∀ t < tried + 1, p.object j t ≠ .ok := by
      intro t ht
      by_cases he : t = tried
      · subst he
        simp [hreply]
      · exact hbefore t (by omega)
    rw [Seeding.replied]
    split
    · case isTrue hagain =>
      refine ⟨settled, ⟨h.sent, ?_, ?_, ?_, h.counters⟩, .inl rfl⟩
      · rw [Seeding.held_again n holds rfl]
        exact h.taken
      · intro k hk
        by_cases he : k = worker
        · subst he
          exact h.within k (by simp [holds])
        · exact h.within k (by simpa [he] using hk)
      · intro k j' tried' hk
        by_cases he : k = worker
        · subst he
          obtain ⟨rfl, rfl⟩ : j = j' ∧ tried + 1 = tried' := by simpa using hk
          exact ⟨hagain, hnow⟩
        · exact h.tries k j' tried' (by simpa [he] using hk)
    · case isFalse hlast =>
      have hlands : p.lands j = false := not_succeeds fun t ht => hnow t (by omega)
      refine ⟨j :: settled, h.settle holds ?_, .inr ⟨rfl, .inr hlands⟩⟩
      rw [p.count_cons, if_neg (by simp [hlands]), ← h.counters]

/-- Once the workers are done, every job has been handed over and counted. -/
theorem done (h : Ledger p n jobs work handed settled) (sent : work.pending = [])
    (taken : work.channel = []) (idle : ∀ worker < n, work.workers worker = none) :
    handed.Perm jobs ∧ settled.Perm jobs ∧ work.counters = p.count jobs := by
  have hsent : handed.Perm jobs := by simpa [sent, taken] using h.sent
  have hheld : work.held n = [] := by
    rw [Seeding.held, List.filterMap_eq_nil_iff]
    intro worker hworker
    simp [idle worker (List.mem_range.mp hworker)]
  have htaken : handed.Perm settled := by simpa [hheld] using h.taken
  have hsettled := htaken.symm.trans hsent
  exact ⟨hsent, hsettled, h.counters.trans (p.count_perm hsettled)⟩

end Ledger

/-! ## A whole run -/

/-- The buckets to seed, and the keys to write in each. -/
structure SeedPlan where
  todo : List ℕ
  missing : ℕ → List ℕ
  todo_nodup : todo.Nodup
  missing_nodup : ∀ b, (missing b).Nodup

namespace SeedPlan
variable (plan : SeedPlan)

/-- The planned objects, in the order in which `run` sends them. -/
def jobs : List Job := plan.todo.flatMap fun b => (plan.missing b).map fun k => Job.mk b k

theorem mem_jobs {j : Job} :
    j ∈ plan.jobs ↔ j.bucket ∈ plan.todo ∧ j.key ∈ plan.missing j.bucket := by
  obtain ⟨b, k⟩ := j
  simp only [jobs, List.mem_flatMap, List.mem_map, Job.mk.injEq]
  constructor
  · rintro ⟨b', hb', k', hk', rfl, rfl⟩
    exact ⟨hb', hk'⟩
  · intro h
    exact ⟨b, h.1, k, h.2, rfl, rfl⟩

theorem jobs_nodup : plan.jobs.Nodup := by
  rw [jobs, List.nodup_flatMap]
  constructor
  · intro b _
    exact (plan.missing_nodup b).map fun k k' h => congrArg Job.key h
  · apply plan.todo_nodup.imp
    intro b b' hne x hx hx'
    obtain ⟨k, -, rfl⟩ := List.mem_map.mp hx
    obtain ⟨k', -, heq⟩ := List.mem_map.mp hx'
    exact hne (congrArg Job.bucket heq).symm

/-- Where `run` goes with the plan. -/
def begin : Phase :=
  if plan.jobs = [] then writeSentinels .zero plan.todo else .seed plan.todo plan.jobs

/-- A repair goes there with what the listings leave. -/
theorem repair_eq {o : Options} (hdry : ¬ o.flags.dryRun) :
    o.repair plan.todo plan.missing = plan.begin := by
  simp only [Options.repair, if_neg hdry, begin, jobs]
  rfl

/-- Without `-repair` every key of the buckets is planned. -/
def whole (o : Options) (todo : List ℕ) (h : todo.Nodup) : SeedPlan where
  todo := todo
  missing _ := List.range o.keyspace.toNat
  todo_nodup := h
  missing_nodup _ := List.nodup_range

end SeedPlan

section
variable (p : Pattern) (plan : SeedPlan)

/-- No object of the bucket failed. -/
def CleanBucket (b : ℕ) : Prop := ∀ j ∈ plan.jobs, j.bucket = b → p.lands j = true

instance : DecidablePred (CleanBucket p plan) := fun b => by
  unfold CleanBucket
  infer_instance

/-- The buckets of the list that `writeSentinels` does not pass over. -/
def cleanBuckets (todo : List ℕ) : List ℕ := todo.filter fun b => CleanBucket p plan b

/-- The sentinels that a run writes: up to the first that fails. -/
def sentinelsWritten : List ℕ :=
  (cleanBuckets p plan plan.todo).takeWhile fun b => succeeds (p.sentinel b)

theorem count_failed_eq_zero (b : ℕ) :
    (p.count plan.jobs).failedPerBucket b = 0 ↔ CleanBucket p plan b := by
  simp only [Pattern.count, List.countP_eq_zero, CleanBucket, decide_eq_true_eq, not_and,
    Bool.not_eq_true', Bool.not_eq_false]

/-- The sentinels written so far and those still ahead. -/
structure Stamping (events : List SeederEvent) (ahead : List ℕ) : Prop where
  handed : (handedJobs events).Perm plan.jobs
  counted : finalCounters events = p.count plan.jobs
  stamped : stampedBuckets events ++ ahead = cleanBuckets p plan plan.todo
  succeeded : ∀ b ∈ stampedBuckets events, succeeds (p.sentinel b) = true

/-- What the events of a run say in each of its phases. -/
def Phase.Told (o : Options) (events : List SeederEvent) : Phase → Prop
  | .seeding todo work => todo = plan.todo ∧ countersSeen events = [] ∧
      stampedBuckets events = [] ∧
      ∃ settled, Ledger p o.concurrency.toNat plan.jobs work (handedJobs events) settled
  | .stamping b rest tried c => c = p.count plan.jobs ∧
      Stamping p plan events (b :: cleanBuckets p plan rest) ∧ tried < attempts ∧
      ∀ t < tried, p.sentinel b t ≠ .ok
  | .returned _ => (handedJobs events).Perm plan.jobs ∧ finalCounters events = p.count plan.jobs ∧
      stampedBuckets events = sentinelsWritten p plan
  | _ => False

variable {p plan} {o : Options} {events : List SeederEvent}

theorem told_writeSentinels {rest : List ℕ}
    (h : Stamping p plan events (cleanBuckets p plan rest)) :
    (writeSentinels (p.count plan.jobs) rest).Told p plan o events := by
  induction rest with
  | nil =>
    have hall : stampedBuckets events = cleanBuckets p plan plan.todo := by
      have hstamped := h.stamped
      rwa [cleanBuckets, List.filter_nil, List.append_nil] at hstamped
    refine ⟨h.handed, h.counted, ?_⟩
    rw [sentinelsWritten, ← hall]
    exact (List.takeWhile_eq_self_iff.mpr h.succeeded).symm
  | cons b rest ih =>
    rw [writeSentinels]
    by_cases hclean : CleanBucket p plan b
    · have hzero := (count_failed_eq_zero p plan b).mpr hclean
      rw [if_neg (by omega)]
      have hahead : cleanBuckets p plan (b :: rest) = b :: cleanBuckets p plan rest := by
        simp [cleanBuckets, hclean]
      exact ⟨rfl, hahead ▸ h, by decide, fun t ht => absurd ht (Nat.not_lt_zero t)⟩
    · have hfailed : 0 < (p.count plan.jobs).failedPerBucket b := by
        rw [Nat.pos_iff_ne_zero, ne_eq, count_failed_eq_zero]
        exact hclean
      rw [if_pos hfailed]
      apply ih
      have hahead : cleanBuckets p plan (b :: rest) = cleanBuckets p plan rest := by
        simp [cleanBuckets, hclean]
      rwa [hahead] at h

theorem told_begin : plan.begin.Told p plan o [] := by
  rw [SeedPlan.begin]
  split_ifs with hnone
  · have hzero : Counters.zero = p.count plan.jobs := by rw [hnone]; rfl
    rw [hzero]
    apply told_writeSentinels
    refine ⟨by rw [hnone]; exact .refl _, hzero, rfl, by simp [stampedBuckets]⟩
  · exact ⟨rfl, rfl, rfl, [], Ledger.start p _ plan.jobs⟩

theorem told_seeding {words : ℕ → UInt64} {s s' : Store} {todo : List ℕ} {work : Seeding}
    {a : SeederAct} {phase' : Phase} (h : (Phase.seeding todo work).Moved words s o a s' phase')
    (follows : p.Follows (s, .seeding todo work) a)
    (told : (Phase.seeding todo work).Told p plan o events) :
    phase'.Told p plan o (events ++ (seederEvent (s, .seeding todo work) a).toList) := by
  obtain ⟨htodo, huncounted, hunstamped, settled, ledger⟩ := told
  cases h with
  | send hpending _ =>
    have hsame : events ++ (seederEvent (s, .seeding todo work) .send).toList = events := by
      simp [seederEvent]
    rw [hsame]
    exact ⟨htodo, huncounted, hunstamped, settled, ledger.send hpending⟩
  | @receive _ _ worker j rest hchannel hworker idle =>
    rw [seederEvent_receive hchannel]
    simp only [Option.toList_some, Phase.Told, handedJobs_handed, countersSeen_handed,
      stampedBuckets_handed]
    exact ⟨htodo, huncounted, hunstamped, settled, ledger.receive hchannel (by omega) idle⟩
  | @put _ _ worker tried j reply holds =>
    obtain rfl : reply = p.object j tried :=
      follows.1 worker reply todo work j tried rfl rfl holds
    rw [seederEvent_put holds]
    simp only [Option.toList_some, Phase.Told, handedJobs_object, countersSeen_object,
      stampedBuckets_object]
    obtain ⟨settled', hreplied, -⟩ := ledger.replied holds
    exact ⟨htodo, huncounted, hunstamped, settled', hreplied⟩
  | drained sent taken idle =>
    obtain ⟨hhanded, -, hcounters⟩ := ledger.done sent taken idle
    have hevent : seederEvent (s, .seeding todo work) .drained = some (.counted work.counters) :=
      rfl
    rw [hevent, htodo, hcounters]
    apply told_writeSentinels
    exact ⟨by simpa using hhanded, by simp, by simp [hunstamped], by simp [hunstamped]⟩

theorem told_stamping {words : ℕ → UInt64} {s s' : Store} {b tried : ℕ} {rest : List ℕ}
    {c : Counters} {a : SeederAct} {phase' : Phase}
    (h : o.advance words (s, .stamping b rest tried c) a = some (s', phase'))
    (follows : p.Follows (s, .stamping b rest tried c) a)
    (told : (Phase.stamping b rest tried c).Told p plan o events) :
    phase'.Told p plan o (events ++ (seederEvent (s, .stamping b rest tried c) a).toList) := by
  obtain ⟨rfl, stamping, hlt, hbefore⟩ := told
  obtain ⟨reply, rfl, -, hnext⟩ := advance_stamping h
  have hreply : reply = p.sentinel b tried := follows.2 reply b rest tried _ rfl rfl
  have hevent : seederEvent (s, .stamping b rest tried (p.count plan.jobs)) (.stamp reply) =
      some (.sentinel b reply) := rfl
  rw [hevent, Option.toList_some]
  obtain ⟨rfl, hphase⟩ | ⟨hne, hagain, hphase⟩ | ⟨hne, hlast, hphase⟩ := hnext
  · have hphase : phase' = _ := hphase
    subst hphase
    apply told_writeSentinels
    refine ⟨by simpa using stamping.handed, by simpa using stamping.counted, ?_, ?_⟩
    · simpa using stamping.stamped
    · intro b' hb'
      rw [stampedBuckets_ok] at hb'
      rcases List.mem_append.mp hb' with hold | hnew
      · exact stamping.succeeded b' hold
      · rw [List.mem_singleton.mp hnew]
        exact succeeds_of_ok hlt hreply.symm
  · have hphase : phase' = _ := hphase
    subst hphase
    refine ⟨rfl, ⟨?_, ?_, ?_, ?_⟩, hagain, failing_succ hbefore (hreply ▸ hne)⟩
    · simpa using stamping.handed
    · simpa using stamping.counted
    · rw [stampedBuckets_failed _ _ _ hne]
      exact stamping.stamped
    · rw [stampedBuckets_failed _ _ _ hne]
      exact stamping.succeeded
  · have hphase : phase' = _ := hphase
    subst hphase
    refine ⟨by simpa using stamping.handed, by simpa using stamping.counted, ?_⟩
    -- the loop stops here, whatever buckets are still ahead
    have hfails : ¬ succeeds (p.sentinel b) = true := by
      rw [not_succeeds_of_last (failing_succ hbefore (hreply ▸ hne)) hlast]
      simp
    rw [stampedBuckets_failed _ _ _ hne, sentinelsWritten, ← stamping.stamped,
      List.takeWhile_append_of_pos stamping.succeeded,
      List.takeWhile_cons_of_neg (p := fun a => succeeds (p.sentinel a)) hfails, List.append_nil]

/-- Each step keeps what the events say. -/
theorem told_advance {words : ℕ → UInt64} {x x' : Store × Phase} {a : SeederAct}
    (h : o.advance words x a = some x') (follows : p.Follows x a)
    (told : x.2.Told p plan o events) :
    x'.2.Told p plan o (events ++ (seederEvent x a).toList) := by
  obtain ⟨s, phase⟩ := x
  obtain ⟨s', phase'⟩ := x'
  cases phase with
  | checking todo next => exact told.elim
  | listing todo => exact told.elim
  | returned result =>
    rw [advance_returned] at h
    cases h
  | seeding todo work => exact told_seeding (Options.moved_of_advance h) follows told
  | stamping b rest tried c => exact told_stamping h follows told

/-- What the events of a run from the plan say. -/
theorem told_of_run {words : ℕ → UInt64} {s : Store} {acts : List SeederAct} {y : Store × Phase}
    (run : Run (o.advance words) p.Follows (s, plan.begin) acts y) :
    y.2.Told p plan o (log (o.advance words) seederEvent acts (s, plan.begin)) :=
  run.invariant_log _ (I := fun x noted => x.2.Told p plan o noted) told_begin
    fun _ _ _ _ follows moved told => told_advance moved follows told

/-- In a list without repeats the elements before the first failure are all that do
not fail, exactly when nothing but failures comes after one. -/
theorem all_in_takeWhile_iff {α : Type*} {q : α → Bool} {l : List α} (hl : l.Nodup) :
    (∀ x ∈ l, q x = true → x ∈ l.takeWhile q) ↔
      l.Pairwise fun x y => q x = false → q y = false := by
  induction l with
  | nil => simp
  | cons x l ih =>
    obtain ⟨hx, hl⟩ := List.nodup_cons.mp hl
    rw [List.pairwise_cons]
    cases hq : q x with
    | true =>
      rw [List.takeWhile_cons_of_pos hq, ← ih hl]
      constructor
      · intro h
        refine ⟨by simp, fun y hy hqy => ?_⟩
        have hne : y ≠ x := fun he => hx (he ▸ hy)
        exact List.mem_of_ne_of_mem hne (h y (.tail x hy) hqy)
      · rintro ⟨-, h⟩ y hy hqy
        rcases List.mem_cons.mp hy with rfl | hy
        · exact List.mem_cons_self
        · exact .tail x (h y hy hqy)
    | false =>
      rw [List.takeWhile_cons_of_neg (by simp [hq])]
      constructor
      · intro h
        have hnone : ∀ y ∈ l, q y = false := by
          intro y hy
          by_contra hqy
          have hmem := h y (.tail x hy) (by simpa using hqy)
          cases hmem
        exact ⟨fun y hy _ => hnone y hy,
          List.pairwise_of_forall_mem_list fun _ _ y hy _ => hnone y hy⟩
      · rintro ⟨h, -⟩ y hy hqy
        rcases List.mem_cons.mp hy with rfl | hy
        · rw [hq] at hqy
          cases hqy
        · rw [h y hy rfl] at hqy
          cases hqy

variable (p plan) in
/-- No clean bucket whose sentinel fails comes before a clean one whose sentinel
would be written. -/
def NoneBlocked : Prop := plan.todo.Pairwise fun b b' => CleanBucket p plan b →
  CleanBucket p plan b' → succeeds (p.sentinel b) = false → succeeds (p.sentinel b') = false

theorem mem_sentinelsWritten_iff : (∀ b, b ∈ sentinelsWritten p plan ↔ b ∈ plan.todo ∧
    CleanBucket p plan b ∧ succeeds (p.sentinel b) = true) ↔ NoneBlocked p plan := by
  have hnodup : (cleanBuckets p plan plan.todo).Nodup := plan.todo_nodup.filter _
  have hclean : ∀ b, b ∈ cleanBuckets p plan plan.todo ↔
      b ∈ plan.todo ∧ CleanBucket p plan b := fun b => by simp [cleanBuckets]
  have hblocked : NoneBlocked p plan ↔ (cleanBuckets p plan plan.todo).Pairwise fun b b' =>
      succeeds (p.sentinel b) = false → succeeds (p.sentinel b') = false := by
    simp [NoneBlocked, cleanBuckets, List.pairwise_filter]
  rw [hblocked, ← all_in_takeWhile_iff (q := fun b => succeeds (p.sentinel b)) hnodup]
  constructor
  · intro h b hb hq
    obtain ⟨htodo, hb⟩ := (hclean b).mp hb
    exact (h b).mpr ⟨htodo, hb, hq⟩
  · intro h b
    constructor
    · intro hb
      obtain ⟨htodo, hcb⟩ := (hclean b).mp ((List.takeWhile_prefix _).subset hb)
      exact ⟨htodo, hcb, List.mem_takeWhile_imp (p := fun b => succeeds (p.sentinel b)) hb⟩
    · rintro ⟨htodo, hcb, hq⟩
      exact h b ((hclean b).mpr ⟨htodo, hcb⟩) hq

/-- When `run` returns, every planned object has been handed over once and counted
once, in its own bucket, whatever the workers did and however the PUTs came out. The
sentinels written are those of all clean buckets whose own PUT succeeds, if and only if
no sentinel that fails comes before one of them. -/
theorem one_bad_bucket {words : ℕ → UInt64} {s s' : Store} {acts : List SeederAct}
    {result : Option RunError} {events : List SeederEvent}
    (run : Run (o.advance words) p.Follows (s, plan.begin) acts (s', .returned result))
    (hevents : events = log (o.advance words) seederEvent acts (s, plan.begin)) :
    plan.jobs.Nodup ∧ (handedJobs events).Perm plan.jobs ∧
    (finalCounters events).written + (finalCounters events).failed = plan.jobs.length ∧
    (∀ b, (finalCounters events).failedPerBucket b =
      plan.jobs.countP fun j => j.bucket = b ∧ !p.lands j) ∧
    ((∀ b, b ∈ stampedBuckets events ↔ b ∈ plan.todo ∧ CleanBucket p plan b ∧
      succeeds (p.sentinel b) = true) ↔ NoneBlocked p plan) := by
  obtain ⟨hhanded, hcounters, hstamped⟩ := told_of_run run
  rw [← hevents] at hhanded hcounters hstamped
  refine ⟨plan.jobs_nodup, hhanded, ?_, ?_, ?_⟩
  · have hsum := List.length_eq_countP_add_countP p.lands (l := plan.jobs)
    rw [hcounters]
    simpa [Pattern.count] using hsum.symm
  · intro b
    rw [hcounters]
    rfl
  · rw [hstamped]
    exact mem_sentinelsWritten_iff

end

/-! ## Two buckets of one object -/

theorem int_two_pos : (0 : ℤ) < 2 := two_pos

def pairOptions : Options :=
  { tinyOptions 9 nine_pos with bucketCount := 2, bucketCount_pos := int_two_pos }

def pairPlan : SeedPlan := .whole pairOptions [0, 1] (by decide)

/-- An executable form of `Follows`. -/
def Pattern.guard (p : Pattern) : Store × Phase → SeederAct → Bool
  | (_, .seeding _ work), .put worker reply =>
    (work.workers worker).all fun held => reply = p.object held.1 held.2
  | (_, .stamping b _ tried _), .stamp reply => reply = p.sentinel b tried
  | _, _ => true

theorem Pattern.follows_of_guard (p : Pattern) (x : Store × Phase) (a : SeederAct)
    (h : p.guard x a = true) : p.Follows x a := by
  obtain ⟨s, phase⟩ := x
  constructor
  · intro worker reply todo work j tried ha hphase holds
    subst ha
    have hphase : phase = .seeding todo work := hphase
    subst hphase
    simpa [guard, holds] using h
  · intro reply b rest tried c ha hphase
    subst ha
    have hphase : phase = .stamping b rest tried c := hphase
    subst hphase
    simpa [guard] using h

/-- Send, take and put one object, in that many attempts. -/
def seedOne (replies : List PutReply) : List SeederAct :=
  .send :: .receive 0 :: replies.map (.put 0)

def hasReturned (x : Store × Phase) : Bool :=
  match x.2 with
  | .returned _ => true
  | _ => false

theorem returned_of_hasReturned {x : Store × Phase} (h : hasReturned x = true) :
    ∃ result, x.2 = .returned result := by
  unfold hasReturned at h
  split at h
  · exact ⟨_, by assumption⟩
  · cases h

/-- A run of the pair that follows the pattern to its end. -/
theorem exists_pair_run (p : Pattern) (acts : List SeederAct)
    (h : (replayIf (pairOptions.advance fun _ => 0) p.guard acts
      (Bench.empty.store, pairPlan.begin)).any hasReturned = true) :
    ∃ s' result, Run (pairOptions.advance fun _ => 0) p.Follows
      (Bench.empty.store, pairPlan.begin) acts (s', .returned result) := by
  obtain ⟨⟨s', phase⟩, run, hend⟩ := exists_run_of_replayIf p.guard p.follows_of_guard acts _ h
  obtain ⟨result, hresult⟩ := returned_of_hasReturned hend
  have hresult : phase = .returned result := hresult
  subst hresult
  exact ⟨s', result, run⟩

/-- No attempt at the object of bucket 0 succeeds. -/
def lostObject : Pattern :=
  ⟨fun j _ => if j.bucket = 0 then .failed false else .ok, fun _ _ => .ok⟩

/-- One object is counted as failed, and bucket 1 has its sentinel. -/
theorem one_bad_bucket_object : ∃ (acts : List SeederAct) (s' : Store) (result : Option RunError)
    (events : List SeederEvent), events = log (pairOptions.advance fun _ => 0) seederEvent acts
      (Bench.empty.store, pairPlan.begin) ∧
    Run (pairOptions.advance fun _ => 0) lostObject.Follows (Bench.empty.store, pairPlan.begin)
      acts (s', .returned result) ∧
    (finalCounters events).written + (finalCounters events).failed = pairPlan.jobs.length ∧
    ∀ b, b ∈ stampedBuckets events ↔ b ∈ pairPlan.todo ∧ CleanBucket lostObject pairPlan b ∧
      succeeds (lostObject.sentinel b) = true := by
  obtain ⟨s', result, run⟩ := exists_pair_run lostObject
    (seedOne (List.replicate 6 (.failed false)) ++ seedOne [.ok] ++ [.drained, .stamp .ok])
    (by decide +kernel)
  obtain ⟨-, -, hsum, -, hstamped⟩ := one_bad_bucket run rfl
  refine ⟨_, s', result, _, rfl, run, hsum, hstamped.mpr ?_⟩
  simp [NoneBlocked, succeeds, attempts, lostObject, pairPlan, SeedPlan.whole]

/-- Both objects are written, but the sentinel of bucket 0 fails: that of bucket 1 is
not tried, though its PUT would succeed. -/
theorem one_bad_bucket_blocks : ¬ ∀ (p : Pattern) (plan : SeedPlan) (o : Options)
    (words : ℕ → UInt64) (s s' : Store) (acts : List SeederAct) (result : Option RunError),
    Run (o.advance words) p.Follows (s, plan.begin) acts (s', .returned result) →
      ∀ b, b ∈ stampedBuckets (log (o.advance words) seederEvent acts (s, plan.begin)) ↔
        b ∈ plan.todo ∧ CleanBucket p plan b ∧ succeeds (p.sentinel b) = true := by
  intro hclaim
  let p : Pattern := ⟨fun _ _ => .ok, fun b _ => if b = 0 then .failed false else .ok⟩
  let acts : List SeederAct := seedOne [.ok] ++ seedOne [.ok] ++ .drained ::
    List.replicate 6 (.stamp (.failed false))
  obtain ⟨s', result, run⟩ := exists_pair_run p acts (by decide +kernel)
  have hnone : stampedBuckets (log (pairOptions.advance fun _ => 0) seederEvent acts
      (Bench.empty.store, pairPlan.begin)) = [] := by decide +kernel
  have hclean : CleanBucket p pairPlan 1 := fun _ _ _ => rfl
  have hone := (hclaim p pairPlan pairOptions _ _ s' acts result run 1).mpr
    ⟨by decide, hclean, by decide⟩
  rw [hnone] at hone
  cases hone

end R2Bench
