import R2Bench.Seeder

/-!
# When sentinels can be relied on

A run writes a bucket's sentinel once each of its objects is known to be there. An
object counts as known after a 2xx, or because a listing showed its key; a listing
does not show sizes. An older sentinel stays in place while objects are rewritten.
-/
namespace R2Bench
open Machines

/-! ## What a run knows -/

/-- Where an object of a bucket to seed is on its way. -/
def Seeding.Accounted (work : Seeding) (s : Store) (o : Options) (b k : ℕ) : Prop :=
  ⟨b, k⟩ ∈ work.pending ∨ ⟨b, k⟩ ∈ work.channel ∨
    (∃ worker tried, work.workers worker = some (⟨b, k⟩, tried)) ∨
    (s (o.bucketName b)).HasObject o.naming o.objectSize k ∨
    0 < work.counters.failedPerBucket b

structure Seeding.Sound (work : Seeding) (s : Store) (o : Options) (todo : List ℕ) : Prop where
  accounted : ∀ b ∈ todo, ∀ k : ℕ, k < o.keyspace → work.Accounted s o b k
  within : ∀ worker, work.workers worker ≠ none → worker < o.concurrency

/-- The bucket has failures of its own or holds the shape of the run. -/
def Counters.Clean (c : Counters) (s : Store) (o : Options) (b : ℕ) : Prop :=
  c.failedPerBucket b = 0 → (s (o.bucketName b)).Holds o.naming o.objectSize

def Phase.Sound (s : Store) (o : Options) : Phase → Prop
  | .seeding todo work => work.Sound s o todo
  | .stamping b rest _ c =>
    (s (o.bucketName b)).Holds o.naming o.objectSize ∧ ∀ b' ∈ rest, c.Clean s o b'
  | _ => True

section
variable {s : Store} {o : Options} {todo : List ℕ}

theorem writeSentinels_sound {c : Counters} (h : ∀ b ∈ todo, c.Clean s o b) :
    (writeSentinels c todo).Sound s o := by
  obtain ⟨-, hend⟩ | ⟨passed, b, rest, rfl, -, hclean, hend⟩ := writeSentinels_cases c todo
  · rw [hend]
    exact trivial
  · rw [hend]
    exact ⟨h b (by simp) hclean, fun b' hb' => h b' (by simp [hb'])⟩

/-- A plan that leaves out only objects that are there. -/
theorem seed_sound {jobs : List Job} (h : ∀ b ∈ todo, ∀ k : ℕ, k < o.keyspace →
    ⟨b, k⟩ ∈ jobs ∨ (s (o.bucketName b)).HasObject o.naming o.objectSize k) :
    (Phase.seed todo jobs).Sound s o where
  accounted b hb k hk := by
    rcases h b hb k hk with hjob | hthere
    · exact .inl hjob
    · exact .inr (.inr (.inr (.inl hthere)))
  within worker hworker := absurd rfl hworker

theorem planned_sound : (o.planned todo).Sound s o := by
  rw [Options.planned]
  split_ifs
  · exact trivial
  · exact trivial
  · apply seed_sound
    intro b hb k hk
    exact .inl (List.mem_map.mpr ⟨(b, k), Options.mem_plan.mpr ⟨hb, hk⟩, rfl⟩)

theorem bucketsToSeed_sound {next : ℕ} : (o.bucketsToSeed todo next).Sound s o := by
  rw [Options.bucketsToSeed]
  split
  · exact trivial
  · exact planned_sound

theorem begin_sound : o.begin.Sound s o := by
  rw [Options.begin]
  split_ifs
  · exact trivial
  · exact planned_sound
  · exact bucketsToSeed_sound

theorem repair_sound {missing : ℕ → List ℕ} (h : ∀ b ∈ todo, ∀ k : ℕ, k < o.keyspace →
    k ∉ missing b → (s (o.bucketName b)).HasObject o.naming o.objectSize k) :
    (o.repair todo missing).Sound s o := by
  have hjob : ∀ b ∈ todo, ∀ k ∈ missing b,
      Job.mk b k ∈ todo.flatMap fun b => (missing b).map fun k => Job.mk b k :=
    fun b hb k hk => List.mem_flatMap.mpr ⟨b, hb, List.mem_map.mpr ⟨k, hk, rfl⟩⟩
  rw [Options.repair]
  split_ifs with hdry hnone
  · exact trivial
  · apply writeSentinels_sound
    intro b hb _ k hk
    apply h b hb k hk
    intro hmissing
    have hmem := hjob b hb k hmissing
    rw [hnone] at hmem
    cases hmem
  · apply seed_sound
    intro b hb k hk
    by_cases hmissing : k ∈ missing b
    · exact .inl (hjob b hb k hmissing)
    · exact .inr (h b hb k hk hmissing)

end

/-! ## Steps of the seeding -/

section
variable {words : ℕ → UInt64} {s : Store} {o : Options} {todo : List ℕ} {work : Seeding}

theorem Seeding.Sound.send (h : work.Sound s o todo) {j : Job} {rest : List Job}
    (hpending : work.pending = j :: rest) :
    Seeding.Sound { work with pending := rest, channel := work.channel ++ [j] } s o todo where
  accounted b hb k hk := by
    obtain hpend | hchan | hrest := h.accounted b hb k hk
    · rw [hpending] at hpend
      rcases List.mem_cons.mp hpend with rfl | hpend
      · exact .inr (.inl (by simp))
      · exact .inl hpend
    · exact .inr (.inl (List.mem_append_left _ hchan))
    · exact .inr (.inr hrest)
  within := h.within

theorem Seeding.Sound.receive (h : work.Sound s o todo) {worker : ℕ} {j : Job} {rest : List Job}
    (hchannel : work.channel = j :: rest) (hworker : worker < o.concurrency)
    (idle : work.workers worker = none) :
    Seeding.Sound
      { work with
        channel := rest
        workers := Function.update work.workers worker (some (j, 0)) } s o todo where
  accounted b hb k hk := by
    obtain hpend | hchan | ⟨other, tried, hother⟩ | hrest := h.accounted b hb k hk
    · exact .inl hpend
    · rw [hchannel] at hchan
      rcases List.mem_cons.mp hchan with rfl | hchan
      · exact .inr (.inr (.inl ⟨worker, 0, by simp⟩))
      · exact .inr (.inl hchan)
    · have hne : other ≠ worker := by
        intro heq
        subst heq
        rw [idle] at hother
        cases hother
      exact .inr (.inr (.inl ⟨other, tried, by simpa [hne] using hother⟩))
    · exact .inr (.inr (.inr hrest))
  within other hother := by
    by_cases hne : other = worker
    · exact hne ▸ hworker
    · exact h.within other (by simpa [hne] using hother)

theorem hasObject_tryPut {reply : PutReply} {j : Job} {name : Bytes} {k : ℕ}
    (h : (s name).HasObject o.naming o.objectSize k) :
    (s.tryPut reply (o.bucketName j.bucket) (o.naming.objectKey j.key)
      (payload words o.size j) name).HasObject o.naming o.objectSize k := by
  rw [Store.tryPut]
  split
  · exact Store.hasObject_put_object (by rw [length_payload, o.size_eq]) h
  · exact h

theorem hasObject_written {j : Job} : (s.tryPut .ok (o.bucketName j.bucket)
    (o.naming.objectKey j.key) (payload words o.size j) (o.bucketName j.bucket)).HasObject
      o.naming o.objectSize j.key :=
  Store.hasObject_put_self (by rw [length_payload, o.size_eq])

/-- A reply settles the job of the worker: the object is there, the job is still
held, or the bucket has a failure. -/
theorem Seeding.Sound.replied (h : work.Sound s o todo) {worker tried : ℕ} {j : Job}
    {reply : PutReply} (hworker : work.workers worker = some (j, tried)) :
    (work.replied worker j tried reply).Sound
      (s.tryPut reply (o.bucketName j.bucket) (o.naming.objectKey j.key)
        (payload words o.size j)) o todo where
  accounted b hb k hk := by
    obtain hpend | hchan | ⟨other, n, hother⟩ | hthere | hfailed := h.accounted b hb k hk
    · exact .inl (by simpa using hpend)
    · exact .inr (.inl (by simpa using hchan))
    · by_cases hne : other = worker
      · subst hne
        obtain ⟨rfl, rfl⟩ := Prod.mk.inj (Option.some.inj (hother.symm.trans hworker))
        cases reply with
        | ok => exact .inr (.inr (.inr (.inl hasObject_written)))
        | failed landed =>
          rcases work.replied_failed other ⟨b, k⟩ n landed with hheld | hcounted
          · exact .inr (.inr (.inl ⟨other, n + 1, hheld⟩))
          · exact .inr (.inr (.inr (.inr hcounted)))
      · have hsame := work.replied_workers_other worker j tried reply hne
        exact .inr (.inr (.inl ⟨other, n, hsame.trans hother⟩))
    · exact .inr (.inr (.inr (.inl (hasObject_tryPut hthere))))
    · have hle := work.failedPerBucket_le_replied worker j tried reply b
      exact .inr (.inr (.inr (.inr (hfailed.trans_le hle))))
  within other hother := by
    by_cases hne : other = worker
    · subst hne
      exact h.within other (by simp [hworker])
    · rw [work.replied_workers_other worker j tried reply hne] at hother
      exact h.within other hother

/-- When the workers have nothing left, every object is there or counted. -/
theorem Seeding.Sound.clean (h : work.Sound s o todo) (sent : work.pending = [])
    (taken : work.channel = [])
    (idle : ∀ worker < o.concurrency.toNat, work.workers worker = none) :
    ∀ b ∈ todo, work.counters.Clean s o b := by
  intro b hb hnone k hk
  obtain hpend | hchan | ⟨worker, n, hworker⟩ | hthere | hfailed := h.accounted b hb k hk
  · rw [sent] at hpend
    cases hpend
  · rw [taken] at hchan
    cases hchan
  · have hwithin := h.within worker (by simp [hworker])
    rw [idle worker (by omega)] at hworker
    cases hworker
  · exact hthere
  · omega

/-- Sentinels do not touch objects. -/
theorem holds_tryPut_sentinel {reply : PutReply} {b : ℕ} {name body : Bytes} :
    (s.tryPut reply (o.bucketName b) o.naming.sentinelKey body name).Holds o.naming o.objectSize ↔
      (s name).Holds o.naming o.objectSize := by
  rw [Store.tryPut]
  split
  · exact forall₂_congr fun k _ => Store.hasObject_put_sentinel
  · exact Iff.rfl

end

/-! ## Runs -/

/-- The pages show the keys of the bucket that have the prefix. -/
def Store.Lists (s : Store) (bucket keyPrefix : Bytes) (pages : List Page) : Prop :=
  ∀ key, key ∈ listedKeys pages ↔ keyPrefix <+: key ∧ (s bucket key).isSome = true

/-- A listing that succeeds shows what is in its bucket. -/
def HonestListing (s : Store) (o : Options) (_ : Phase) (a : SeederAct) : Prop :=
  ∀ results, a = .list results → ∀ b pages, (b, some pages) ∈ results →
    s.Lists (o.bucketName b) o.keyPrefix pages

/-- No object lands under a sentinel that promises another size for its key, and
a repair finds no object of another size among the keys that it counts as there. -/
def OneSize (s : Store) (o : Options) (phase : Phase) (a : SeederAct) : Prop :=
  (∀ worker reply todo work j tried, a = .put worker reply → reply.landed = true →
    phase = .seeding todo work → work.workers worker = some (j, tried) →
      s.Respects (o.bucketName j.bucket) o.naming o.objectSize j.key) ∧
  (∀ results todo, a = .list results → phase = .listing todo → ∀ b ∈ todo, ∀ k : ℕ,
    k < o.keyspace → ∀ body, s (o.bucketName b) (o.naming.objectKey k) = some body →
      body.length = o.objectSize)

/-- A condition on the run in progress. -/
def Bench.Meets (P : Store → Options → Phase → SeederAct → Prop) (w : Bench)
    (a : SeederAct) : Prop :=
  ∀ o phase, w.run = some (o, phase) → P w.store o phase a

def Bench.Sound (w : Bench) : Prop := ∀ o phase, w.run = some (o, phase) → phase.Sound w.store o

section
variable {words : ℕ → UInt64} {s s' : Store} {o : Options} {phase phase' : Phase} {a : SeederAct}

theorem Phase.Moved.sound (h : phase.Moved words s o a s' phase') (hs : phase.Sound s o)
    (honest : HonestListing s o phase a) (size : OneSize s o phase a) : phase'.Sound s' o := by
  cases h with
  | skip _ => exact bucketsToSeed_sound
  | queue _ => exact bucketsToSeed_sound
  | unlisted _ _ => exact trivial
  | @listed todo results answered hall =>
    apply repair_sound
    intro b hb k hk hmissing
    obtain ⟨pages, hpages, hresult⟩ :=
      exists_resultOf (n := o.naming) (answered.mem_iff.mpr hb) hall
    rw [hresult, mem_missingKeys, not_and, not_not] at hmissing
    have hlisted := (honest results rfl b pages hpages _).mp (hmissing hk)
    obtain ⟨body, hbody⟩ := Option.isSome_iff_exists.mp hlisted.2
    exact ⟨body, hbody, size.2 results todo rfl rfl b hb k hk body hbody⟩
  | send hpending _ => exact Seeding.Sound.send hs hpending
  | receive hchannel hworker idle => exact Seeding.Sound.receive hs hchannel hworker idle
  | put hworker => exact Seeding.Sound.replied hs hworker
  | drained sent taken idle =>
    exact writeSentinels_sound (Seeding.Sound.clean hs sent taken idle)
  | @stamp b tried rest c reply phase' hphase =>
    obtain ⟨hholds, hrest⟩ := hs
    have hrest' : ∀ b' ∈ rest, c.Clean (s.tryPut reply (o.bucketName b) o.naming.sentinelKey
        (o.naming.sentinelBody o.objectSize)) o b' := fun b' hb' hnone =>
      holds_tryPut_sentinel.mpr (hrest b' hb' hnone)
    obtain rfl | rfl | rfl := hphase
    · exact writeSentinels_sound hrest'
    · exact ⟨holds_tryPut_sentinel.mpr hholds, hrest'⟩
    · exact trivial

/-- Only PUTs that land change a bucket. -/
theorem Phase.Moved.truthful (h : phase.Moved words s o a s' phase') (hs : phase.Sound s o)
    (size : OneSize s o phase a) (ht : s.Truthful) : s'.Truthful := by
  cases h with
  | @put todo work worker tried j reply hworker =>
    rw [Store.tryPut]
    split
    · case isTrue hlanded =>
      apply (Store.truthful_put_object_iff ht (by rw [length_payload, o.size_eq])).mpr
      exact size.1 worker reply todo work j tried rfl hlanded rfl hworker
    · exact ht
  | stamp _ =>
    rw [Store.tryPut]
    split
    · exact (Store.truthful_put_sentinel_iff ht).mpr hs.1
    · exact ht
  | _ => exact ht

end

/-- Buckets come up empty, and nothing runs. -/
def Bench.empty : Bench := ⟨fun _ _ => none, none⟩

theorem Bench.step_sound {words : ℕ → UInt64} {w w' : Bench} {a : SeederAct}
    (h : w.step words a = some w') (honest : w.Meets HonestListing a) (size : w.Meets OneSize a)
    (hs : w.Sound) (ht : w.store.Truthful) : w'.Sound ∧ w'.store.Truthful := by
  obtain ⟨o, rfl, -, rfl⟩ | rfl | ⟨o, phase, store, phase', hrun, hmoved, rfl⟩ :=
    Bench.step_cases words h
  · refine ⟨?_, ht⟩
    intro o' phase h
    cases h
    exact begin_sound
  · exact ⟨by simp [Bench.Sound], ht⟩
  · have hphase := hs o phase hrun
    refine ⟨?_, hmoved.truthful hphase (size o phase hrun) ht⟩
    intro o' phase'' h
    cases h
    exact hmoved.sound hphase (honest o _ hrun) (size o _ hrun)

/-- One bucket, one object, one worker. -/
def tinyOptions (objectSize : ℤ) (h : 0 < objectSize) : Options where
  endpoint := ascii "https://r2"
  bucketPrefix := ascii "b-"
  bucketCount := 1
  keyPrefix := ascii "obj/"
  keyspace := 1
  objectSize := objectSize
  concurrency := 1
  region := ascii "auto"
  flags := noSwitches
  bucketCount_pos := one_pos
  keyspace_pos := one_pos
  objectSize_pos := h
  concurrency_pos := one_pos

theorem nine_pos : (0 : ℤ) < 9 := by norm_num

def SeederAct.quiet : SeederAct → Bool
  | .put .. => false
  | .list _ => false
  | _ => true

end R2Bench
