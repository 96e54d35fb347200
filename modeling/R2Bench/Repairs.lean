import R2Bench.Addresses
import R2Bench.SeederLedger

/-!
# A repair writes the gaps

A listing, however it is split into pages, leaves exactly the absent keys of the
keyspace. A repair whose PUTs succeed writes each of them once, and no object else.
-/
namespace R2Bench
open Machines

/-! ## Following the pages -/

/-- Every page but the last names the next. -/
def Chained (pages : List Page) : Prop :=
  ∀ page ∈ pages.dropLast, page.isTruncated = true ∧ page.nextContinuationToken ≠ []

/-- The pages show the keys of the bucket that have the prefix, in any order. -/
def Shows (c : Contents) (keyPrefix : Bytes) (pages : List Page) : Prop :=
  ∀ key, (∃ page ∈ pages, key ∈ page.contents) ↔ keyPrefix <+: key ∧ (c key).isSome = true

theorem mem_listedKeys {pages : List Page} (h : Chained pages) {key : Bytes} :
    key ∈ listedKeys pages ↔ ∃ page ∈ pages, key ∈ page.contents := by
  induction pages with
  | nil => simp [listedKeys]
  | cons page pages ih =>
    cases pages with
    | nil => simp [listedKeys]
    | cons next pages =>
      have hpage := h page (by simp)
      have hrest : Chained (next :: pages) := fun x hx => h x (by simp [hx])
      have hgo : ¬ ((!page.isTruncated) = true ∨ page.nextContinuationToken = []) := by
        simp [hpage]
      rw [listedKeys, if_neg hgo, List.mem_append, ih hrest]
      simp

/-- The keys that a listing leaves, in ascending order and without repeats. -/
theorem missingKeys_sorted (n : Naming) (pages : List Page) :
    (missingKeys n pages).Pairwise (· < ·) := List.pairwise_lt_range.filter _

/-- They are the keys of the keyspace whose objects the bucket does not have. -/
theorem mem_missingKeys_iff {n : Naming} {c : Contents} {pages : List Page} (h : Chained pages)
    (shows : Shows c n.keyPrefix pages) (k : ℕ) :
    k ∈ missingKeys n pages ↔ k < n.keyspace ∧ c (n.objectKey k) = none := by
  have hkey : n.keyPrefix <+: n.objectKey k := List.prefix_append _ _
  rw [mem_missingKeys, mem_listedKeys h, shows]
  simp [hkey]

/-! ## Runs whose PUTs succeed -/

/-- Every PUT succeeds, if need be when it is tried again. -/
structure Pattern.AllLand (p : Pattern) : Prop where
  objects : ∀ j, p.lands j = true
  sentinels : ∀ b, succeeds (p.sentinel b) = true

/-- The object has been sent, and the bucket has it. -/
def Written (o : Options) (s : Store) (events : List SeederEvent) (j : Job) : Prop :=
  j ∈ objectPuts events ∧ (s (o.bucketName j.bucket) (o.naming.objectKey j.key)).isSome = true

theorem isSome_tryPut {s : Store} {name key : Bytes} (h : (s name key).isSome = true)
    (reply : PutReply) (bucket key' body : Bytes) :
    (s.tryPut reply bucket key' body name key).isSome = true := by
  rw [Store.tryPut]
  split
  · rw [Store.put_apply]
    split
    · rfl
    · exact h
  · exact h

theorem isSome_tryPut_ok (s : Store) (bucket key body : Bytes) :
    (s.tryPut .ok bucket key body bucket key).isSome = true := by
  simp [Store.tryPut, Store.put_apply]

/-- How far the plan has been carried out in each phase of such a run. -/
def Filling (p : Pattern) (plan : SeedPlan) (o : Options) (events : List SeederEvent)
    (x : Store × Phase) : Prop :=
  match x.2 with
  | .seeding _ work => ∃ settled, Ledger p o.concurrency.toNat plan.jobs work
      (handedJobs events) settled ∧ ∀ j ∈ settled, Written o x.1 events j
  | .stamping _ _ _ c => c.failed = 0 ∧ ∀ j ∈ plan.jobs, Written o x.1 events j
  | .returned result => result = none ∧ ∀ j ∈ plan.jobs, Written o x.1 events j
  | _ => False

section
variable {p : Pattern} {plan : SeedPlan} {o : Options} {events : List SeederEvent} {s : Store}

theorem Written.append {j : Job} (h : Written o s events j) (more : List SeederEvent) :
    Written o s (events ++ more) j := by
  refine ⟨?_, h.2⟩
  rw [objectPuts, List.filterMap_append]
  exact List.mem_append_left _ h.1

theorem Written.tryPut {j : Job} (h : Written o s events j) (reply : PutReply)
    (bucket key body : Bytes) : Written o (s.tryPut reply bucket key body) events j :=
  ⟨h.1, isSome_tryPut h.2 reply bucket key body⟩

theorem filling_writeSentinels {c : Counters} (hfailed : c.failed = 0)
    (hjobs : ∀ j ∈ plan.jobs, Written o s events j) (rest : List ℕ) :
    Filling p plan o events (s, writeSentinels c rest) := by
  obtain ⟨-, hend⟩ | ⟨_, _, _, -, -, -, hend⟩ := writeSentinels_cases c rest
  · rw [hend]
    exact ⟨if_neg (by omega), hjobs⟩
  · rw [hend]
    exact ⟨hfailed, hjobs⟩

theorem filling_begin : Filling p plan o [] (s, plan.begin) := by
  rw [SeedPlan.begin]
  split_ifs with hnone
  · apply filling_writeSentinels rfl
    simp [hnone]
  · exact ⟨[], Ledger.start p _ plan.jobs, by simp⟩

theorem filling_seeding {words : ℕ → UInt64} (lands : p.AllLand) {s' : Store} {todo : List ℕ}
    {work : Seeding} {a : SeederAct} {phase' : Phase}
    (h : (Phase.seeding todo work).Moved words s o a s' phase')
    (follows : p.Follows (s, .seeding todo work) a)
    (filling : Filling p plan o events (s, .seeding todo work)) :
    Filling p plan o (events ++ (seederEvent (s, .seeding todo work) a).toList) (s', phase') := by
  obtain ⟨settled, ledger, hsettled⟩ := filling
  cases h with
  | send hpending _ =>
    have hsame : events ++ (seederEvent (s, .seeding todo work) .send).toList = events := by
      simp [seederEvent]
    rw [hsame]
    exact ⟨settled, ledger.send hpending, hsettled⟩
  | @receive _ _ worker j rest hchannel hworker idle =>
    rw [seederEvent_receive hchannel, Option.toList_some]
    refine ⟨settled, ?_, fun j' hj' => (hsettled j' hj').append _⟩
    rw [handedJobs_handed]
    exact ledger.receive hchannel (by omega) idle
  | @put _ _ worker tried j reply holds =>
    obtain rfl : reply = p.object j tried :=
      follows.1 worker reply todo work j tried rfl rfl holds
    obtain ⟨settled', hreplied, hhow⟩ := ledger.replied holds
    rw [seederEvent_put holds, Option.toList_some]
    refine ⟨settled', by rwa [handedJobs_object], ?_⟩
    have hold : ∀ j' ∈ settled, Written o (s.tryPut (p.object j tried) (o.bucketName j.bucket)
        (o.naming.objectKey j.key) (payload words o.size j))
        (events ++ [.object j (p.object j tried)]) j' := fun j' hj' =>
      ((hsettled j' hj').append _).tryPut _ _ _ _
    obtain rfl | ⟨rfl, hok | hlost⟩ := hhow
    · exact hold
    · intro j' hj'
      rcases List.mem_cons.mp hj' with rfl | hj'
      · refine ⟨by simp, ?_⟩
        rw [hok]
        exact isSome_tryPut_ok s _ _ _
      · exact hold j' hj'
    · rw [lands.objects j] at hlost
      cases hlost
  | drained sent taken idle =>
    obtain ⟨-, hputs, hcounters⟩ := ledger.done sent taken idle
    have hfailed : work.counters.failed = 0 := by
      rw [hcounters]
      simp [Pattern.count, lands.objects]
    apply filling_writeSentinels hfailed
    exact fun j hj => (hsettled j (hputs.mem_iff.mpr hj)).append _

theorem filling_stamping {words : ℕ → UInt64} (lands : p.AllLand) {s' : Store} {b tried : ℕ}
    {rest : List ℕ} {c : Counters} {a : SeederAct} {phase' : Phase}
    (h : o.advance words (s, .stamping b rest tried c) a = some (s', phase'))
    (follows : p.Follows (s, .stamping b rest tried c) a)
    (told : (Phase.stamping b rest tried c).Told p plan o events)
    (filling : Filling p plan o events (s, .stamping b rest tried c)) :
    Filling p plan o (events ++ (seederEvent (s, .stamping b rest tried c) a).toList)
      (s', phase') := by
  obtain ⟨hfailed, hjobs⟩ := filling
  obtain ⟨-, -, -, hbefore⟩ := told
  obtain ⟨reply, rfl, hstore, hnext⟩ := advance_stamping h
  have hreply : reply = p.sentinel b tried := follows.2 reply b rest tried c rfl rfl
  have hstore : s' = _ := hstore
  subst hstore
  have hjobs' := fun j hj => ((hjobs j hj).append
    (seederEvent (s, .stamping b rest tried c) (.stamp reply)).toList).tryPut reply
      (o.bucketName b) o.naming.sentinelKey (o.naming.sentinelBody o.objectSize)
  obtain ⟨-, hphase⟩ | ⟨-, -, hphase⟩ | ⟨hne, hlast, -⟩ := hnext
  · have hphase : phase' = _ := hphase
    subst hphase
    exact filling_writeSentinels hfailed hjobs' rest
  · have hphase : phase' = _ := hphase
    subst hphase
    exact ⟨hfailed, hjobs'⟩
  · have hnone := not_succeeds_of_last (failing_succ hbefore (hreply ▸ hne)) hlast
    rw [lands.sentinels b] at hnone
    cases hnone

theorem filling_advance {words : ℕ → UInt64} (lands : p.AllLand) {x x' : Store × Phase}
    {a : SeederAct} (h : o.advance words x a = some x') (follows : p.Follows x a)
    (told : x.2.Told p plan o events) (filling : Filling p plan o events x) :
    Filling p plan o (events ++ (seederEvent x a).toList) x' := by
  obtain ⟨s, phase⟩ := x
  obtain ⟨s', phase'⟩ := x'
  cases phase with
  | checking todo next => exact filling.elim
  | listing todo => exact filling.elim
  | returned result =>
    rw [advance_returned] at h
    cases h
  | seeding todo work =>
    exact filling_seeding lands (Options.moved_of_advance h) follows filling
  | stamping b rest tried c => exact filling_stamping lands h follows told filling

/-- What workers hold was planned. -/
theorem Ledger.mem_jobs {n : ℕ} {jobs handed settled : List Job} {work : Seeding}
    (h : Ledger p n jobs work handed settled) {worker tried : ℕ} {j : Job}
    (holds : work.workers worker = some (j, tried)) : j ∈ jobs := by
  have hheld : j ∈ work.held n := List.mem_filterMap.mpr
    ⟨worker, List.mem_range.mpr (h.within worker (by simp [holds])), by simp [holds]⟩
  have hhanded : j ∈ handed := h.taken.mem_iff.mpr (List.mem_append_right _ hheld)
  exact h.sent.mem_iff.mp (List.mem_append_left _ hhanded)

/-- Only planned objects are ever sent. -/
theorem objectPuts_advance {words : ℕ → UInt64} {x x' : Store × Phase} {a : SeederAct}
    (h : o.advance words x a = some x') (told : x.2.Told p plan o events)
    (hputs : ∀ j ∈ objectPuts events, j ∈ plan.jobs) :
    ∀ j ∈ objectPuts (events ++ (seederEvent x a).toList), j ∈ plan.jobs := by
  intro j hj
  rw [objectPuts, List.filterMap_append] at hj
  rcases List.mem_append.mp hj with hold | hnew
  · exact hputs j hold
  obtain ⟨s, phase⟩ := x
  obtain ⟨s', phase'⟩ := x'
  have hmoved : phase.Moved words s o a s' phase' := Options.moved_of_advance h
  cases hmoved with
  | @receive _ _ _ _ _ hchannel _ _ =>
    simp [seederEvent, hchannel, SeederEvent.object?] at hnew
  | @put _ _ worker tried j' reply holds =>
    obtain ⟨-, -, -, settled, ledger⟩ := told
    have hsame : j = j' := by simpa [seederEvent, holds, SeederEvent.object?] using hnew
    rw [hsame]
    exact ledger.mem_jobs holds
  | _ => simp [seederEvent, SeederEvent.object?] at hnew

/-- Nothing is ever removed from a bucket. -/
theorem isSome_advance {words : ℕ → UInt64} {x x' : Store × Phase} {a : SeederAct}
    (h : o.advance words x a = some x') {name key : Bytes} (hsome : (x.1 name key).isSome = true) :
    (x'.1 name key).isSome = true := by
  have hmoved := Options.moved_of_advance h
  obtain ⟨s, phase⟩ := x
  obtain ⟨s', phase'⟩ := x'
  cases hmoved with
  | put _ => exact isSome_tryPut hsome _ _ _ _
  | stamp _ => exact isSome_tryPut hsome _ _ _ _
  | _ => exact hsome

/-- What a run from the plan comes to when every PUT succeeds in the end. -/
theorem filled_of_run {words : ℕ → UInt64} (lands : p.AllLand) {s' : Store} {acts : List SeederAct}
    {result : Option RunError} {events : List SeederEvent}
    (run : Run (o.advance words) p.Follows (s, plan.begin) acts (s', .returned result))
    (hevents : events = log (o.advance words) seederEvent acts (s, plan.begin)) :
    result = none ∧ (∀ j, j ∈ objectPuts events ↔ j ∈ plan.jobs) ∧
      ∀ j ∈ plan.jobs, (s' (o.bucketName j.bucket) (o.naming.objectKey j.key)).isSome = true := by
  have hinv := run.invariant_log seederEvent (I := fun x noted =>
    x.2.Told p plan o noted ∧ Filling p plan o noted x ∧ ∀ j ∈ objectPuts noted, j ∈ plan.jobs)
    ⟨told_begin, filling_begin, by simp [objectPuts]⟩ fun _ _ _ _ follows moved h =>
      ⟨told_advance moved follows h.1, filling_advance lands moved follows h.1 h.2.1,
        objectPuts_advance moved h.1 h.2.2⟩
  rw [← hevents] at hinv
  obtain ⟨-, ⟨hresult, hwritten⟩, hplanned⟩ := hinv
  exact ⟨hresult, fun j => ⟨hplanned j, fun hj => (hwritten j hj).1⟩, fun j hj => (hwritten j hj).2⟩

end

/-! ## From the start of the run -/

/-- Up to the listing nothing is written, and no bucket is queued twice. -/
def Untouched (s : Store) (x : Store × Phase) (noted : List SeederEvent) : Prop :=
  match x.2 with
  | .checking todo next => x.1 = s ∧ noted = [] ∧ todo.Nodup ∧ ∀ b ∈ todo, b < next
  | .listing todo => x.1 = s ∧ noted = [] ∧ todo.Nodup
  | _ => True

section
variable {o : Options} {s : Store} {todo : List ℕ}

theorem untouched_planned (h : todo.Nodup) : Untouched s (s, o.planned todo) [] := by
  rw [Options.planned]
  split_ifs
  · exact trivial
  · exact ⟨rfl, rfl, h⟩
  · exact trivial

theorem untouched_bucketsToSeed {next : ℕ} (h : todo.Nodup) (hlt : ∀ b ∈ todo, b < next) :
    Untouched s (s, o.bucketsToSeed todo next) [] := by
  rw [Options.bucketsToSeed]
  split
  · exact ⟨rfl, rfl, h, hlt⟩
  · exact untouched_planned h

theorem untouched_begin : Untouched s (s, o.begin) [] := by
  rw [Options.begin]
  split_ifs
  · exact trivial
  · exact untouched_planned List.nodup_range
  · exact untouched_bucketsToSeed List.nodup_nil (by simp)

theorem untouched_writeSentinels {c : Counters} {s' : Store} {noted : List SeederEvent} :
    Untouched s (s', writeSentinels c todo) noted := by
  obtain ⟨-, hend⟩ | ⟨_, _, _, -, -, -, hend⟩ := writeSentinels_cases c todo
  · rw [hend]
    exact trivial
  · rw [hend]
    exact trivial

theorem untouched_repair {missing : ℕ → List ℕ} {s' : Store} {noted : List SeederEvent} :
    Untouched s (s', o.repair todo missing) noted := by
  rw [Options.repair]
  split_ifs
  · exact trivial
  · exact untouched_writeSentinels
  · exact trivial

/-- What the buckets are is left to the requests: only a PUT changes it. -/
theorem untouched_moved {words : ℕ → UInt64} {s₀ s₁ t t' : Store} {phase phase' : Phase}
    {a : SeederAct} {noted : List SeederEvent} (moved : phase.Moved words t o a t' phase')
    (kept : phase.sent words o a = none → s₁ = s₀) (hx : Untouched s (s₀, phase) noted) :
    Untouched s (s₁, phase') (noted ++ (seederEvent (s₀, phase) a).toList) := by
  cases moved with
  | @skip todo next _ =>
    obtain ⟨rfl, rfl, hnodup, hlt⟩ := hx
    obtain rfl := kept rfl
    exact untouched_bucketsToSeed hnodup fun b hb => (hlt b hb).trans (Nat.lt_succ_self next)
  | @queue todo next ok _ =>
    obtain ⟨rfl, rfl, hnodup, hlt⟩ := hx
    obtain rfl := kept rfl
    apply untouched_bucketsToSeed
    · rw [List.nodup_append]
      refine ⟨hnodup, List.nodup_singleton _, ?_⟩
      intro b hb b' hb' heq
      have hsmall := hlt b hb
      rw [List.mem_singleton.mp hb'] at heq
      omega
    · intro b hb
      rcases List.mem_append.mp hb with hb | hb
      · exact (hlt b hb).trans (Nat.lt_succ_self next)
      · rw [List.mem_singleton.mp hb]
        exact Nat.lt_succ_self next
  | listed _ _ => exact untouched_repair
  | drained _ _ _ => exact untouched_writeSentinels
  | stamp hphase =>
    obtain rfl | rfl | rfl := hphase
    · exact untouched_writeSentinels
    · exact trivial
    · exact trivial
  | _ => exact trivial

theorem untouched_advance {words : ℕ → UInt64} {x x' : Store × Phase} {a : SeederAct}
    {noted : List SeederEvent} (h : o.advance words x a = some x') (hx : Untouched s x noted) :
    Untouched s x' (noted ++ (seederEvent x a).toList) :=
  untouched_moved (Options.moved_of_advance h) (fun hnone => by
    rw [Options.stored_of_advance h, hnone]
    rfl) hx

/-- The listings succeed and show what their buckets have. -/
def ListsAll (o : Options) (x : Store × Phase) (a : SeederAct) : Prop :=
  ∀ results, a = .list results → ∀ r ∈ results, ∃ pages, r.2 = some pages ∧ Chained pages ∧
    Shows (x.1 (o.bucketName r.1)) o.keyPrefix pages

/-- The plan that listings leave. -/
def SeedPlan.ofListing (o : Options) (todo : List ℕ) (h : todo.Nodup)
    (results : List (ℕ × Option (List Page))) : SeedPlan where
  todo := todo
  missing := resultOf o.naming results
  todo_nodup := h
  missing_nodup b := by
    unfold resultOf
    split
    · exact (missingKeys_sorted _ _).imp fun h => h.ne
    · exact List.nodup_nil

/-- What is planned after the listings is what the buckets do not have. -/
theorem mem_jobs_ofListing {h : todo.Nodup} {results : List (ℕ × Option (List Page))}
    (answered : (results.map Prod.fst).Perm todo) (hall : ∀ r ∈ results, r.2 ≠ none)
    (lists : ListsAll o (s, .listing todo) (.list results)) (j : Job) :
    j ∈ (SeedPlan.ofListing o todo h results).jobs ↔ j.bucket ∈ todo ∧ j.key < o.keyspace ∧
      s (o.bucketName j.bucket) (o.naming.objectKey j.key) = none := by
  rw [SeedPlan.mem_jobs]
  apply and_congr_right
  intro hb
  obtain ⟨pages, hpages, hres⟩ := exists_resultOf (n := o.naming) (answered.mem_iff.mpr hb) hall
  obtain ⟨pages', hsome, chained, shows⟩ := lists results rfl _ hpages
  obtain rfl := Option.some.inj hsome
  show j.key ∈ resultOf o.naming results j.bucket ↔ _
  rw [hres]
  exact mem_missingKeys_iff chained shows j.key

/-- Where every PUT succeeds, every bucket to do gets its sentinel. -/
theorem sentinelsWritten_of_lands {p : Pattern} (lands : p.AllLand) (plan : SeedPlan) :
    sentinelsWritten p plan = plan.todo := by
  have hclean : cleanBuckets p plan plan.todo = plan.todo :=
    List.filter_eq_self.mpr fun b _ => decide_eq_true fun j _ _ => lands.objects j
  rw [sentinelsWritten, hclean]
  exact List.takeWhile_eq_self_iff.mpr fun b _ => lands.sentinels b

/-- A repair whose listings and PUTs succeed: it sends the objects that the buckets to do
do not have and no other, leaves no gap, and writes their sentinels. -/
theorem repaired_of_run {p : Pattern} (lands : p.AllLand) {words : ℕ → UInt64}
    (hdry : ¬ o.flags.dryRun) (hnodup : todo.Nodup) {s' : Store} {writes : List SeederAct}
    {result : Option RunError} {events : List SeederEvent}
    (repaired : Run (o.advance words) (fun x a => p.Follows x a ∧ ListsAll o x a)
      (s, .listing todo) writes (s', .returned result))
    (hevents : events = log (o.advance words) seederEvent writes (s, .listing todo)) :
    result = none ∧
    (∀ j, j ∈ objectPuts events ↔ j.bucket ∈ todo ∧ j.key < o.keyspace ∧
      s (o.bucketName j.bucket) (o.naming.objectKey j.key) = none) ∧
    (∀ b ∈ todo, ∀ k : ℕ, k < o.keyspace →
      (s' (o.bucketName b) (o.naming.objectKey k)).isSome = true) ∧
    stampedBuckets events = todo := by
  -- the first step is the listing itself
  obtain ⟨-, hbad⟩ | ⟨a, rest, x, rfl, ⟨-, lists⟩, hlist, hrun⟩ := repaired.cases_first
  · cases hbad
  obtain ⟨s₁, phase⟩ := x
  have hmoved : (Phase.listing todo).Moved words s o a s₁ phase := Options.moved_of_advance hlist
  cases hmoved with
  | @unlisted _ results b answered hnone =>
    obtain ⟨pages, hpages, -⟩ := lists results rfl _ hnone
    cases hpages
  | @listed _ results answered hall =>
    let plan := SeedPlan.ofListing o todo hnodup results
    have hplan : o.repair todo (resultOf o.naming results) = plan.begin := plan.repair_eq hdry
    rw [hplan] at hrun hlist
    have hevents' : events = log (o.advance words) seederEvent rest (s, plan.begin) := by
      rw [hevents]
      simp [log, hlist, seederEvent]
    obtain ⟨hresult, hputs, hthere⟩ :=
      filled_of_run lands (hrun.mono fun _ _ h => h.1) hevents'
    have hjobs : ∀ j, j ∈ plan.jobs ↔ j.bucket ∈ todo ∧ j.key < o.keyspace ∧
        s (o.bucketName j.bucket) (o.naming.objectKey j.key) = none :=
      mem_jobs_ofListing answered hall lists
    obtain ⟨-, -, hstamped⟩ := told_of_run (hrun.mono fun _ _ h => h.1)
    rw [← hevents', sentinelsWritten_of_lands lands] at hstamped
    refine ⟨hresult, fun j => (hputs j).trans (hjobs j), fun b hb k hk => ?_, hstamped⟩
    cases hfound : s (o.bucketName b) (o.naming.objectKey k) with
    | none => exact hthere ⟨b, k⟩ ((hjobs ⟨b, k⟩).mpr ⟨hb, hk, hfound⟩)
    | some body =>
      have hkept : ((s', Phase.returned result).1 (o.bucketName b)
          (o.naming.objectKey k)).isSome = true :=
        hrun.invariant (I := fun x => (x.1 (o.bucketName b) (o.naming.objectKey k)).isSome = true)
          (by simp [hfound]) fun _ _ _ _ moved hsome => isSome_advance moved hsome
      exact hkept

end

/-! ## One gap of two -/

def gapOptions : Options :=
  { tinyOptions 9 nine_pos with
    keyspace := 2
    keyspace_pos := int_two_pos
    flags := { noSwitches with repair := true } }

/-- Key 0 is there, key 1 is not. -/
def gapStore : Store :=
  Bench.empty.store.put (ascii "b-00") (gapOptions.naming.objectKey 0) (ascii "some body")

def gapListing : List (ℕ × Option (List Page)) :=
  [(0, some [⟨false, [], [gapOptions.naming.objectKey 0]⟩])]

theorem gapListing_lists : ListsAll gapOptions (gapStore, .listing [0]) (.list gapListing) := by
  intro results hresults r hr
  obtain rfl := SeederAct.list.inj hresults
  rw [gapListing, List.mem_singleton] at hr
  subst hr
  refine ⟨_, rfl, by simp [Chained], ?_⟩
  intro key
  have hname : gapOptions.bucketName 0 = ascii "b-00" := by decide
  have hfound : (gapStore (gapOptions.bucketName 0) key).isSome = true ↔
      key = gapOptions.naming.objectKey 0 := by
    rw [gapStore, Store.put_apply, hname]
    by_cases hkey : key = gapOptions.naming.objectKey 0
    · simp [hkey]
    · simp [hkey, Bench.empty]
  rw [hfound]
  constructor
  · intro hpage
    have hkey : key = gapOptions.naming.objectKey 0 := by simpa using hpage
    exact ⟨hkey ▸ List.prefix_append _ _, hkey⟩
  · intro h
    simpa using h.2

def allLand : Pattern := ⟨fun _ _ => .ok, fun _ _ => .ok⟩

theorem allLand_lands : allLand.AllLand where
  objects _ := rfl
  sentinels _ := rfl

/-- The check leaves the bucket to the repair. -/
theorem gap_checked : gapOptions.advance (fun _ => 0) (gapStore, gapOptions.begin) (.get true) =
    some (gapStore, .listing [0]) := by
  have hmatch : sentinelMatches gapStore gapOptions 0 = false := by decide +kernel
  show Phase.step _ gapStore gapOptions (.checking [] 0) (.get true) = _
  rw [Phase.step, hmatch]
  rfl

end R2Bench
