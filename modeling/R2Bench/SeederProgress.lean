import Mathlib.Algebra.BigOperators.Group.Finset.Basic
import R2Bench.Repairs

/-!
# The seeder comes to an end

The channel has room for two jobs a worker, and a worker that holds a job tries it a
few times at most. So the sender is never blocked for good, and a run that cannot go
on has returned, whatever R2 answers.
-/
namespace R2Bench
open Machines
open scoped BigOperators

/-! ## What is left to do -/

/-- The attempts that a worker may still make. -/
def triesLeft : Option (Job × ℕ) → ℕ
  | none => 0
  | some (_, tried) => attempts - tried

/-- Each job is sent, received and tried. -/
def Seeding.left (n : ℕ) (work : Seeding) : ℕ :=
  (attempts + 2) * work.pending.length + (attempts + 1) * work.channel.length +
    ∑ worker ∈ Finset.range n, triesLeft (work.workers worker)

/-- The steps that a bucket takes once it is queued: its objects and its sentinel. -/
def Options.perBucket (o : Options) : ℕ := (attempts + 2) * o.keyspace.toNat + attempts

def Phase.left (o : Options) : Phase → ℕ
  | .checking todo next =>
    (o.bucketCount.toNat - next) * (o.perBucket + 1) + o.perBucket * todo.length + 2
  | .listing todo => o.perBucket * todo.length + 2
  | .seeding todo work => work.left o.concurrency.toNat + attempts * todo.length + 1
  | .stamping _ rest tried _ => attempts - tried + attempts * rest.length
  | .returned _ => 0

/-- Nobody is beyond the last attempt, and no worker beyond the last worker. -/
def Phase.Within (o : Options) : Phase → Prop
  | .checking _ next => next < o.bucketCount
  | .seeding _ work => ∀ worker j tried, work.workers worker = some (j, tried) →
    worker < o.concurrency.toNat ∧ tried < attempts
  | .stamping _ _ tried _ => tried < attempts
  | _ => True

section
variable {o : Options} {todo : List ℕ}

theorem sum_triesLeft {n worker : ℕ} (hworker : worker < n) (f : ℕ → Option (Job × ℕ))
    (x : Option (Job × ℕ)) :
    ∑ k ∈ Finset.range n, triesLeft (Function.update f worker x k) + triesLeft (f worker) =
      ∑ k ∈ Finset.range n, triesLeft (f k) + triesLeft x := by
  have hmem : worker ∈ Finset.range n := Finset.mem_range.mpr hworker
  have hothers : ∑ k ∈ Finset.range n \ {worker}, triesLeft (Function.update f worker x k) =
      ∑ k ∈ Finset.range n \ {worker}, triesLeft (f k) := by
    refine Finset.sum_congr rfl fun k hk => ?_
    have hne : k ≠ worker := by simpa using (Finset.mem_sdiff.mp hk).2
    rw [Function.update_of_ne hne]
  rw [Finset.sum_eq_add_sum_sdiff_singleton_of_mem hmem, hothers, Function.update_self,
    Finset.sum_eq_add_sum_sdiff_singleton_of_mem hmem (fun k => triesLeft (f k))]
  omega

theorem writeSentinels_left (c : Counters) (rest : List ℕ) :
    (writeSentinels c rest).left o ≤ attempts * rest.length := by
  obtain ⟨-, hend⟩ | ⟨passed, b, rest, rfl, -, -, hend⟩ := writeSentinels_cases c rest
  · rw [hend]
    exact Nat.zero_le _
  · rw [hend, Phase.left, List.length_append, List.length_cons, Nat.mul_add, Nat.mul_succ]
    omega

theorem writeSentinels_within (c : Counters) (rest : List ℕ) :
    (writeSentinels c rest).Within o := by
  obtain ⟨-, hend⟩ | ⟨_, _, _, -, -, -, hend⟩ := writeSentinels_cases c rest
  · rw [hend]
    exact trivial
  · rw [hend]
    show 0 < attempts
    decide

theorem seed_left (jobs : List Job) : (Phase.seed todo jobs).left o =
    (attempts + 2) * jobs.length + attempts * todo.length + 1 := by
  simp [Phase.seed, Phase.left, Seeding.left, triesLeft]

theorem seed_within (jobs : List Job) : (Phase.seed todo jobs).Within o :=
  fun _ _ _ h => nomatch h

/-- The jobs of a bucket are among its keys. -/
theorem seed_left_le {missing : ℕ → List ℕ} (h : ∀ b, (missing b).length ≤ o.keyspace.toNat) :
    (Phase.seed todo (todo.flatMap fun b => (missing b).map fun k => Job.mk b k)).left o ≤
      o.perBucket * todo.length + 1 := by
  have hjobs : (todo.flatMap fun b => (missing b).map fun k => Job.mk b k).length ≤
      todo.length * o.keyspace.toNat := by
    rw [List.length_flatMap]
    have hsum := List.sum_le_card_nsmul (todo.map fun b => (missing b).length) o.keyspace.toNat
      fun x hx => by
        obtain ⟨b, -, rfl⟩ := List.mem_map.mp hx
        exact h b
    simpa using hsum
  rw [seed_left, Options.perBucket]
  nlinarith

theorem planned_left : (o.planned todo).left o ≤ o.perBucket * todo.length + 2 := by
  rw [Options.planned]
  split_ifs
  · exact Nat.zero_le _
  · exact le_rfl
  · have hless : (Phase.seed todo (todo.flatMap fun b =>
        (List.range o.keyspace.toNat).map fun k => Job.mk b k)).left o ≤ _ :=
      seed_left_le fun _ => by simp
    simpa [Options.plan, List.map_flatMap, Function.comp_def] using hless.trans (Nat.le_succ _)

theorem planned_within : (o.planned todo).Within o := by
  rw [Options.planned]
  split_ifs
  · exact trivial
  · exact trivial
  · exact seed_within _

theorem bucketsToSeed_left (next : ℕ) : (o.bucketsToSeed todo next).left o ≤
    (o.bucketCount.toNat - next) * (o.perBucket + 1) + o.perBucket * todo.length + 2 := by
  rw [Options.bucketsToSeed]
  split_ifs
  · exact le_rfl
  · exact planned_left.trans (by omega)

theorem bucketsToSeed_within (next : ℕ) : (o.bucketsToSeed todo next).Within o := by
  rw [Options.bucketsToSeed]
  split_ifs with hnext
  · exact hnext
  · exact planned_within

theorem repair_left (results : List (ℕ × Option (List Page))) :
    (o.repair todo (resultOf o.naming results)).left o ≤ o.perBucket * todo.length + 1 := by
  rw [Options.repair]
  split_ifs
  · exact Nat.zero_le _
  · have hattempts : attempts * todo.length ≤ o.perBucket * todo.length :=
      Nat.mul_le_mul_right _ (Nat.le_add_left _ _)
    exact (writeSentinels_left _ _).trans (hattempts.trans (Nat.le_succ _))
  · refine seed_left_le fun b => ?_
    unfold resultOf
    split
    · exact (List.length_filter_le _ _).trans (by simp [Options.naming])
    · exact Nat.zero_le _

theorem repair_within (results : List (ℕ × Option (List Page))) :
    (o.repair todo (resultOf o.naming results)).Within o := by
  rw [Options.repair]
  split_ifs
  · exact trivial
  · exact writeSentinels_within _ _
  · exact seed_within _

end

/-! ## One step -/

section
variable {words : ℕ → UInt64} {o : Options} {s s' : Store} {phase phase' : Phase} {a : SeederAct}

theorem Seeding.replied_left {work : Seeding} {n worker tried : ℕ} {j : Job} (hworker : worker < n)
    (htried : tried < attempts) (holds : work.workers worker = some (j, tried)) (reply : PutReply) :
    (work.replied worker j tried reply).left n < work.left n := by
  have hsum := fun x => sum_triesLeft hworker work.workers x
  have hlost : triesLeft (work.workers worker) = attempts - tried := by rw [holds]; rfl
  cases reply with
  | ok =>
    have := hsum none
    simp only [Seeding.replied, Seeding.left, triesLeft] at this hlost ⊢
    omega
  | failed landed =>
    rw [Seeding.replied]
    split_ifs
    · have := hsum (some (j, tried + 1))
      simp only [Seeding.left, triesLeft] at this hlost ⊢
      omega
    · have := hsum none
      simp only [Seeding.left, triesLeft] at this hlost ⊢
      omega

theorem Seeding.replied_within {work : Seeding} {worker tried : ℕ} {j : Job} {reply : PutReply}
    (h : ∀ k j t, work.workers k = some (j, t) → k < o.concurrency.toNat ∧ t < attempts)
    (holds : work.workers worker = some (j, tried)) (k : ℕ) (j' : Job) (t : ℕ)
    (hk : (work.replied worker j tried reply).workers k = some (j', t)) :
    k < o.concurrency.toNat ∧ t < attempts := by
  by_cases he : k = worker
  · subst he
    refine ⟨(h k j tried holds).1, ?_⟩
    cases reply with
    | ok => simp [Seeding.replied] at hk
    | failed landed =>
      rw [Seeding.replied] at hk
      split_ifs at hk with hagain
      · obtain ⟨-, rfl⟩ : j = j' ∧ tried + 1 = t := by simpa using hk
        exact hagain
      · simp at hk
  · rw [Seeding.replied_workers_other _ _ _ _ _ he] at hk
    exact h k j' t hk

/-- A step of the seeder does some of what is left. -/
theorem seeding_left {todo : List ℕ} {work : Seeding}
    (moved : (Phase.seeding todo work).Moved words s o a s' phase')
    (within : (Phase.seeding todo work).Within o) :
    phase'.Within o ∧ phase'.left o < (Phase.seeding todo work).left o := by
  cases moved with
  | send hpending _ =>
    refine ⟨within, ?_⟩
    simp only [Phase.left, Seeding.left, hpending, List.length_append, List.length_cons,
      List.length_nil, attempts]
    omega
  | @receive _ _ worker j rest hchannel hworker idle =>
    have hworker : worker < o.concurrency.toNat := by omega
    refine ⟨fun k j' t hk => ?_, ?_⟩
    · by_cases he : k = worker
      · subst he
        obtain ⟨-, rfl⟩ : j = j' ∧ 0 = t := by simpa using hk
        exact ⟨hworker, by decide⟩
      · exact within k j' t (by simpa [he] using hk)
    · have hsum := sum_triesLeft hworker work.workers (some (j, 0))
      simp only [Phase.left, Seeding.left, hchannel, List.length_cons, triesLeft, attempts,
        idle] at hsum ⊢
      omega
  | @put _ _ _ _ _ reply holds =>
    obtain ⟨hworker, htried⟩ := within _ _ _ holds
    have hless := Seeding.replied_left hworker htried holds reply
    refine ⟨Seeding.replied_within within holds, ?_⟩
    rw [Phase.left, Phase.left]
    omega
  | drained _ _ _ =>
    refine ⟨writeSentinels_within _ _, (writeSentinels_left _ _).trans_lt ?_⟩
    rw [Phase.left]
    omega

theorem stamping_left {b tried : ℕ} {rest : List ℕ} {c : Counters}
    (moved : (Phase.stamping b rest tried c).step words s o a = some (s', phase'))
    (within : (Phase.stamping b rest tried c).Within o) :
    phase'.Within o ∧ phase'.left o < (Phase.stamping b rest tried c).left o := by
  have htried : tried < attempts := within
  cases a with
  | stamp reply =>
    cases reply with
    | ok =>
      cases moved
      refine ⟨writeSentinels_within _ _, (writeSentinels_left _ _).trans_lt ?_⟩
      rw [Phase.left]
      omega
    | failed landed =>
      simp only [Phase.step] at moved
      split_ifs at moved with hagain
      all_goals cases moved
      · refine ⟨hagain, ?_⟩
        rw [Phase.left, Phase.left]
        omega
      · refine ⟨trivial, ?_⟩
        rw [Phase.left, Phase.left]
        omega
  | _ => cases moved

theorem advance_left {x x' : Store × Phase} (moved : o.advance words x a = some x')
    (within : x.2.Within o) : x'.2.Within o ∧ x'.2.left o < x.2.left o := by
  obtain ⟨s, phase⟩ := x
  obtain ⟨s', phase'⟩ := x'
  have hmoved : phase.Moved words s o a s' phase' := Options.moved_of_advance moved
  cases phase with
  | checking todo next =>
    have hnext : next < o.bucketCount.toNat := by
      have : (next : ℤ) < o.bucketCount := within
      omega
    have hone : (o.bucketCount.toNat - next) * (o.perBucket + 1) =
        (o.bucketCount.toNat - (next + 1)) * (o.perBucket + 1) + (o.perBucket + 1) := by
      rw [← Nat.succ_mul]
      congr 1
      omega
    cases hmoved with
    | skip _ =>
      refine ⟨bucketsToSeed_within _, (bucketsToSeed_left _).trans_lt ?_⟩
      rw [Phase.left]
      omega
    | queue _ =>
      refine ⟨bucketsToSeed_within _, (bucketsToSeed_left _).trans_lt ?_⟩
      have hqueued : o.perBucket * (todo.length + 1) = o.perBucket * todo.length + o.perBucket :=
        Nat.mul_succ _ _
      rw [Phase.left, List.length_append, List.length_singleton, hqueued]
      omega
  | listing todo =>
    cases hmoved with
    | unlisted _ _ => exact ⟨trivial, Nat.succ_pos _⟩
    | listed _ _ => exact ⟨repair_within _, (repair_left _).trans_lt (Nat.lt_succ_self _)⟩
  | seeding todo work => exact seeding_left hmoved within
  | stamping b rest tried c => exact stamping_left moved within
  | returned result => cases hmoved

/-! ## Never stuck -/

/-- R2 may answer so that the run goes on. -/
def GoesOn (words : ℕ → UInt64) (o : Options) (p : Pattern) (x : Store × Phase) : Prop :=
  ∃ a, p.Follows x a ∧ (o.advance words x a).isSome = true

/-- A worker with a job hears of its attempt. -/
theorem goesOn_put {p : Pattern} {todo : List ℕ} {work : Seeding} {worker tried : ℕ} {j : Job}
    (holds : work.workers worker = some (j, tried)) : GoesOn words o p (s, .seeding todo work) := by
  refine ⟨.put worker (p.object j tried), ⟨?_, by simp⟩, ?_⟩
  · rintro _ _ _ _ j' tried' ⟨⟩ ⟨⟩ hholds
    obtain ⟨rfl, rfl⟩ := Prod.mk.inj (Option.some.inj (holds.symm.trans hholds))
    rfl
  · simp [Options.advance, Phase.step, holds]

/-- Of the sender, a worker with empty hands and a worker with a job there is one that
can go on, or all are done. -/
theorem goesOn_seeding (p : Pattern) (todo : List ℕ) (work : Seeding) :
    GoesOn words o p (s, .seeding todo work) := by
  by_cases hbusy : ∃ worker, work.workers worker ≠ none
  · obtain ⟨worker, hworker⟩ := hbusy
    obtain ⟨⟨j, tried⟩, holds⟩ := Option.ne_none_iff_exists'.mp hworker
    exact goesOn_put holds
  have hidle : ∀ worker, work.workers worker = none := by simpa using hbusy
  have hpos := o.concurrency_pos
  cases hchannel : work.channel with
  | cons j rest =>
    refine ⟨.receive 0, ⟨by simp, by simp⟩, ?_⟩
    simp [Options.advance, Phase.step, hchannel, hidle, hpos]
  | nil =>
    cases hpending : work.pending with
    | cons j rest =>
      refine ⟨.send, ⟨by simp, by simp⟩, ?_⟩
      simp [Options.advance, Phase.step, hchannel, hpending, hpos]
    | nil =>
      refine ⟨.drained, ⟨by simp, by simp⟩, ?_⟩
      simp [Options.advance, Phase.step, hchannel, hpending, hidle]

theorem goesOn_listing (p : Pattern) (todo : List ℕ) : GoesOn words o p (s, .listing todo) := by
  refine ⟨.list (todo.map fun b => (b, none)), ⟨by simp, by simp⟩, ?_⟩
  have hkeys : (todo.map fun b => (b, (none : Option (List Page)))).map Prod.fst = todo := by
    simp [Function.comp_def]
  simp only [Options.advance, Phase.step, if_pos (List.Perm.of_eq hkeys)]
  split <;> rfl

theorem goesOn_stamping (p : Pattern) {b tried : ℕ} {rest : List ℕ} {c : Counters} :
    GoesOn words o p (s, .stamping b rest tried c) := by
  refine ⟨.stamp (p.sentinel b tried), ⟨by simp, ?_⟩, ?_⟩
  · rintro _ _ _ _ _ ⟨⟩ ⟨⟩
    rfl
  · cases hreply : p.sentinel b tried with
    | ok => rfl
    | failed landed =>
      simp only [Options.advance, Phase.step]
      split_ifs <;> rfl

/-- A seeder comes to an end: a run has no more steps than eight for an object and seven
for a bucket allow, and however the PUTs come out it can go on until it has returned. -/
theorem seeder_finishes {acts : List SeederAct} {x : Store × Phase}
    (run : Run (o.advance words) (fun _ _ => True) (s, o.begin) acts x) :
    acts.length ≤ o.bucketCount.toNat * (8 * o.keyspace.toNat + 7) + 2 ∧
    ∀ p : Pattern, (∀ a, p.Follows x a → o.advance words x a = none) →
      ∃ result, x.2 = .returned result := by
  refine ⟨?_, fun p hstuck => ?_⟩
  · have hbegin : o.begin.Within o ∧ o.begin.left o ≤
        o.bucketCount.toNat * (8 * o.keyspace.toNat + 7) + 2 := by
      have hfull : o.bucketCount.toNat * (o.perBucket + 1) =
          o.bucketCount.toNat * (8 * o.keyspace.toNat + 7) := rfl
      rw [Options.begin]
      split_ifs
      · exact ⟨trivial, Nat.zero_le _⟩
      · refine ⟨planned_within, planned_left.trans ?_⟩
        rw [List.length_range, Nat.mul_comm, ← hfull]
        exact Nat.add_le_add_right (Nat.mul_le_mul_left _ (Nat.le_succ _)) _
      · exact ⟨bucketsToSeed_within _, (bucketsToSeed_left 0).trans_eq (by simp [hfull])⟩
    have hpaid := run.countP_log_le (fun x => x.2.left o) (fun _ a => some a) (fun _ => true)
      (I := fun x => x.2.Within o) hbegin.1 fun x a x' _ within moved => by
        have hmoved := advance_left moved within
        exact ⟨hmoved.1, by simpa using hmoved.2⟩
    rw [run.log_self, List.countP_true] at hpaid
    have hbegin := hbegin.2
    dsimp only at hpaid
    omega
  · by_contra hopen
    have hgoes : GoesOn words o p x := by
      obtain ⟨s', phase⟩ := x
      cases phase with
      | checking todo next =>
        refine ⟨.get false, ⟨by simp, by simp⟩, ?_⟩
        simp [Options.advance, Phase.step]
      | listing todo => exact goesOn_listing p todo
      | seeding todo work => exact goesOn_seeding p todo work
      | stamping b rest tried c => exact goesOn_stamping p
      | returned result => exact absurd ⟨result, rfl⟩ hopen
    obtain ⟨a, follows, hsome⟩ := hgoes
    simp [hstuck a follows] at hsome

end

/-- The first attempts at the object and at the sentinel fail; the sentinel lands anyway. -/
def retried : List SeederAct :=
  [.get true, .send, .receive 0, .put 0 (.failed false), .put 0 .ok, .drained,
    .stamp (.failed true), .stamp .ok]

/-- After its first attempt the seeder is not done; it is at the end of the run, which is
one of 17 steps at most. -/
theorem seeder_finishes_retried : ∃ u x : Store × Phase,
    Run ((tinyOptions 9 nine_pos).advance fun _ => 0) (fun _ _ => True)
      (Bench.empty.store, (tinyOptions 9 nine_pos).begin) (retried.take 4) u ∧
    (∀ p : Pattern, ∃ a, p.Follows u a ∧
      (tinyOptions 9 nine_pos).advance (fun _ => 0) u a ≠ none) ∧
    Run ((tinyOptions 9 nine_pos).advance fun _ => 0) (fun _ _ => True)
      (Bench.empty.store, (tinyOptions 9 nine_pos).begin) retried x ∧
    retried.length ≤ 1 * (8 * 1 + 7) + 2 ∧ hasReturned x = true := by
  obtain ⟨u, before, hopen⟩ := exists_run_of_replay
    ((tinyOptions 9 nine_pos).advance fun _ => 0)
    (Bench.empty.store, (tinyOptions 9 nine_pos).begin) (retried.take 4)
    (fun u => !hasReturned u) (by decide +kernel)
  obtain ⟨x, run, hend⟩ := exists_run_of_replay
    ((tinyOptions 9 nine_pos).advance fun _ => 0)
    (Bench.empty.store, (tinyOptions 9 nine_pos).begin) retried hasReturned (by decide +kernel)
  refine ⟨u, x, before, fun p => ?_, run, (seeder_finishes run).1, hend⟩
  by_contra hstuck
  push Not at hstuck
  obtain ⟨result, hresult⟩ := (seeder_finishes before).2 p hstuck
  obtain ⟨s, phase⟩ := u
  obtain rfl : phase = .returned result := hresult
  cases hopen

end R2Bench
