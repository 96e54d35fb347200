import R2Bench.Configuration
import R2Bench.Buckets
import R2Bench.Machines

/-!
# Seeder runs

Runs of the seeder, one after another, against the same buckets. One step is one
request, one move of a job, or the end of a phase; a run can die between any two.
The words that the generator yields are given. Here a bucket takes a request under the
key that it was built for; `Options.wire` sends it where its URL leads.
-/
namespace R2Bench

/-! ## Payloads -/

def littleEndian64 (x : UInt64) : Bytes :=
  (List.range 8).map fun i => (x >>> (8 * i).toUInt64).toUInt8

/-- The four bytes of `uint32(n)`. -/
def bigEndian32 (n : ℕ) : Bytes :=
  [n / 2 ^ 24, n / 2 ^ 16, n / 2 ^ 8, n].map UInt8.ofNat

/-- Eight bytes of each word, then single bytes from the upper halves. -/
def fillDeterministic (words : ℕ → UInt64) (size : ℕ) : Bytes :=
  ((List.range (size / 8)).flatMap fun i => littleEndian64 (words i)) ++
    (List.range (size % 8)).map fun i => (words (size / 8 + i) >>> 32).toUInt8

theorem length_fillDeterministic (words : ℕ → UInt64) (size : ℕ) :
    (fillDeterministic words size).length = size := by
  have hwords : ((List.range (size / 8)).flatMap fun i => littleEndian64 (words i)).length =
      size / 8 * 8 := by
    rw [List.length_flatMap]
    simp [littleEndian64]
  rw [fillDeterministic, List.length_append, hwords, List.length_map, List.length_range]
  omega

structure Job where
  bucket : ℕ
  key : ℕ
  deriving DecidableEq

/-- What a worker sends for a job: its buffer with the leading bytes varied. -/
def payload (words : ℕ → UInt64) (size : ℕ) (j : Job) : Bytes :=
  let buf := fillDeterministic words size
  if 8 ≤ buf.length then bigEndian32 j.bucket ++ bigEndian32 j.key ++ buf.drop 8 else buf

@[simp] theorem length_payload (words : ℕ → UInt64) (size : ℕ) (j : Job) :
    (payload words size j).length = size := by
  have hfill := length_fillDeterministic words size
  rw [payload]
  split
  · simp only [bigEndian32, List.length_append, List.length_map, List.length_cons, List.length_nil,
      List.length_drop]
    omega
  · exact hfill

/-! ## Listings -/

structure Page where
  isTruncated : Bool
  nextContinuationToken : Bytes
  contents : List Bytes
  deriving DecidableEq

/-- The keys of the pages, up to the first that names no page after it. -/
def listedKeys : List Page → List Bytes
  | [] => []
  | page :: pages =>
    page.contents ++
      if !page.isTruncated ∨ page.nextContinuationToken = [] then [] else listedKeys pages

/-- The key indices absent from a listing. -/
def missingKeys (n : Naming) (pages : List Page) : List ℕ :=
  (List.range n.keyspace.toNat).filter fun k => n.objectKey k ∉ listedKeys pages

theorem mem_missingKeys {n : Naming} {pages : List Page} {k : ℕ} :
    k ∈ missingKeys n pages ↔ k < n.keyspace ∧ n.objectKey k ∉ listedKeys pages := by
  simp only [missingKeys, List.mem_filter, List.mem_range, decide_eq_true_eq]
  exact and_congr_left' (by omega)

/-! ## Phases -/

/-- What a PUT came to. The bucket may have taken one that is reported as failed. -/
inductive PutReply
  | ok
  | failed (landed : Bool)
  deriving DecidableEq

@[simp] def PutReply.landed : PutReply → Bool
  | ok => true
  | failed landed => landed

inductive RunError
  | listing (bucket : ℕ)
  | sentinel (bucket : ℕ)
  | objects (failed : ℕ)
  deriving DecidableEq

structure Counters where
  written : ℕ
  failed : ℕ
  failedPerBucket : ℕ → ℕ

namespace Counters

def zero : Counters := ⟨0, 0, fun _ => 0⟩

def success (c : Counters) : Counters := { c with written := c.written + 1 }

def failure (c : Counters) (bucket : ℕ) : Counters :=
  { c with
    failed := c.failed + 1
    failedPerBucket :=
      Function.update c.failedPerBucket bucket (c.failedPerBucket bucket + 1) }

end Counters

/-- The seeding of the planned objects: jobs not sent yet, the channel, and what
each worker holds with the attempts it has made. -/
structure Seeding where
  pending : List Job
  channel : List Job
  workers : ℕ → Option (Job × ℕ)
  counters : Counters

inductive Phase
  | checking (todo : List ℕ) (next : ℕ)
  | listing (todo : List ℕ)
  | seeding (todo : List ℕ) (work : Seeding)
  | stamping (bucket : ℕ) (rest : List ℕ) (attempts : ℕ) (counters : Counters)
  | returned (result : Option RunError)

/-- How often one object is tried. -/
def attempts : ℕ := 6

/-- `writeSentinels` from here on: buckets with failures of their own are passed over. -/
def writeSentinels (c : Counters) : List ℕ → Phase
  | [] => .returned (if 0 < c.failed then some (.objects c.failed) else none)
  | b :: rest =>
    if 0 < c.failedPerBucket b then writeSentinels c rest else .stamping b rest 0 c

/-- It stops at the first bucket without failures, or returns where there is none. -/
theorem writeSentinels_cases (c : Counters) (todo : List ℕ) :
    ((∀ b ∈ todo, 0 < c.failedPerBucket b) ∧
      writeSentinels c todo = .returned (if 0 < c.failed then some (.objects c.failed) else none)) ∨
    ∃ passed b rest, todo = passed ++ b :: rest ∧ (∀ b' ∈ passed, 0 < c.failedPerBucket b') ∧
      c.failedPerBucket b = 0 ∧ writeSentinels c todo = .stamping b rest 0 c := by
  induction todo with
  | nil => exact .inl ⟨by simp, rfl⟩
  | cons b rest ih =>
    by_cases hfailed : 0 < c.failedPerBucket b
    · rw [writeSentinels, if_pos hfailed]
      obtain ⟨hall, hend⟩ | ⟨passed, b', rest', rfl, hpassed, hclean, hend⟩ := ih
      · exact .inl ⟨List.forall_mem_cons.mpr ⟨hfailed, hall⟩, hend⟩
      · exact .inr ⟨b :: passed, b', rest', rfl,
          List.forall_mem_cons.mpr ⟨hfailed, hpassed⟩, hclean, hend⟩
    · rw [writeSentinels, if_neg hfailed]
      exact .inr ⟨[], b, rest, rfl, by simp, Nat.eq_zero_of_not_pos hfailed, rfl⟩

/-- The workers start with empty hands. -/
def Phase.seed (todo : List ℕ) (jobs : List Job) : Phase :=
  .seeding todo ⟨jobs, [], fun _ => none, .zero⟩

namespace Options
variable (o : Options)

def size : ℕ := o.objectSize.toNat

theorem size_eq : (o.size : ℤ) = o.objectSize := Int.toNat_of_nonneg o.objectSize_pos.le

def bucketName (b : ℕ) : Bytes := o.naming.bucketName b

/-- Every key of the buckets, or the listing first. -/
def planned (todo : List ℕ) : Phase :=
  if todo = [] then .returned none
  else if o.flags.repair then .listing todo
  else .seed todo ((o.plan todo).map fun (b, k) => ⟨b, k⟩)

/-- `bucketsToSeed` from the given bucket on. -/
def bucketsToSeed (todo : List ℕ) (next : ℕ) : Phase :=
  if next < o.bucketCount then .checking todo next else o.planned todo

/-- What `main` begins with. -/
def begin : Phase :=
  if o.flags.dryRun ∧ ¬o.flags.repair then .returned none
  else if o.flags.force then o.planned (List.range o.bucketCount.toNat)
  else o.bucketsToSeed [] 0

/-- After the listings: the jobs that they leave, in the order of the buckets. -/
def repair (todo : List ℕ) (missing : ℕ → List ℕ) : Phase :=
  let jobs := todo.flatMap fun b => (missing b).map fun k => Job.mk b k
  if o.flags.dryRun then .returned none
  else if jobs = [] then writeSentinels .zero todo
  else .seed todo jobs

end Options

/-! ## Steps -/

/-- The buckets and the run in progress. -/
structure Bench where
  store : Store
  run : Option (Options × Phase)

inductive SeederAct
  | start (o : Options)
  | get (ok : Bool)
  | list (results : List (ℕ × Option (List Page)))
  | send
  | receive (worker : ℕ)
  | put (worker : ℕ) (reply : PutReply)
  | drained
  | stamp (reply : PutReply)
  | exit
  | crash

/-- The sentinel that is read back, at most 64 KiB of it. -/
def sentinelMatches (s : Store) (o : Options) (b : ℕ) : Bool :=
  ((s (o.bucketName b) o.naming.sentinelKey).map fun body => body.take (2 ^ 16)) =
    some (o.naming.sentinelBody o.objectSize)

/-- What the listings leave to write in a bucket. -/
def resultOf (n : Naming) (results : List (ℕ × Option (List Page))) (b : ℕ) : List ℕ :=
  match results.lookup b with
  | some (some pages) => missingKeys n pages
  | _ => []

/-- When every listing succeeded, each bucket has its own. -/
theorem exists_resultOf {n : Naming} {results : List (ℕ × Option (List Page))} {b : ℕ}
    (hb : b ∈ results.map Prod.fst) (h : ∀ r ∈ results, r.2 ≠ none) :
    ∃ pages, (b, some pages) ∈ results ∧ resultOf n results b = missingKeys n pages := by
  cases hlookup : results.lookup b with
  | none =>
    obtain ⟨r, hr, rfl⟩ := List.mem_map.mp hb
    have hne := List.lookup_eq_none_iff.mp hlookup r hr
    simp at hne
  | some found =>
    obtain ⟨before, after, rfl, -⟩ := List.lookup_eq_some_iff.mp hlookup
    cases found with
    | none => exact absurd rfl (h (b, none) (by simp))
    | some pages => exact ⟨pages, by simp, by simp [resultOf, hlookup]⟩

/-- A bucket takes a body, unless the request never reached it. -/
def Store.tryPut (s : Store) (reply : PutReply) (bucket key body : Bytes) : Store :=
  if reply.landed then s.put bucket key body else s

/-- A worker's reply: the job is done, tried again, or counted as failed. -/
def Seeding.replied (work : Seeding) (worker : ℕ) (j : Job) (tried : ℕ) : PutReply → Seeding
  | .ok =>
    { work with
      workers := Function.update work.workers worker none
      counters := work.counters.success }
  | .failed _ =>
    if tried + 1 < attempts then
      { work with workers := Function.update work.workers worker (some (j, tried + 1)) }
    else
      { work with
        workers := Function.update work.workers worker none
        counters := work.counters.failure j.bucket }

namespace Seeding
variable (work : Seeding) (worker : ℕ) (j : Job) (tried : ℕ) (reply : PutReply)

@[simp] theorem replied_pending : (work.replied worker j tried reply).pending = work.pending := by
  cases reply with
  | ok => rfl
  | failed landed =>
    rw [replied]
    split <;> rfl

@[simp] theorem replied_channel : (work.replied worker j tried reply).channel = work.channel := by
  cases reply with
  | ok => rfl
  | failed landed =>
    rw [replied]
    split <;> rfl

theorem replied_workers_other {other : ℕ} (h : other ≠ worker) :
    (work.replied worker j tried reply).workers other = work.workers other := by
  cases reply with
  | ok => simp [replied, h]
  | failed landed =>
    rw [replied]
    split <;> simp [h]

/-- Failures are only ever added. -/
theorem failedPerBucket_le_replied (b : ℕ) : work.counters.failedPerBucket b ≤
    (work.replied worker j tried reply).counters.failedPerBucket b := by
  cases reply with
  | ok => exact le_rfl
  | failed landed =>
    rw [replied]
    split
    · exact le_rfl
    · by_cases hb : b = j.bucket
      · subst hb
        simp [Counters.failure]
      · simp [Counters.failure, hb]

/-- After a failure the worker holds the job still or has counted it. -/
theorem replied_failed (landed : Bool) :
    (work.replied worker j tried (.failed landed)).workers worker = some (j, tried + 1) ∨
      0 < (work.replied worker j tried (.failed landed)).counters.failedPerBucket j.bucket := by
  rw [replied]
  split
  · left
    simp
  · right
    simp [Counters.failure]

end Seeding

section
variable (words : ℕ → UInt64)

/-- One step of a run that has not returned. -/
def Phase.step (s : Store) (o : Options) : Phase → SeederAct → Option (Store × Phase)
  | .checking todo next, .get ok =>
    if ok ∧ sentinelMatches s o next then some (s, o.bucketsToSeed todo (next + 1))
    else some (s, o.bucketsToSeed (todo ++ [next]) (next + 1))
  | .listing todo, .list results =>
    if (results.map Prod.fst).Perm todo then
      match results.find? fun r => r.2.isNone with
      | some r => some (s, .returned (some (.listing r.1)))
      | none => some (s, o.repair todo (resultOf o.naming results))
    else none
  | .seeding todo work, .send =>
    match work.pending with
    | [] => none
    | j :: rest =>
      if work.channel.length < o.concurrency * 2 then
        some (s, .seeding todo { work with pending := rest, channel := work.channel ++ [j] })
      else none
  | .seeding todo work, .receive worker =>
    match work.channel with
    | [] => none
    | j :: rest =>
      if worker < o.concurrency ∧ (work.workers worker).isNone then
        some (s, .seeding todo
          { work with
            channel := rest
            workers := Function.update work.workers worker (some (j, 0)) })
      else none
  | .seeding todo work, .put worker reply =>
    match work.workers worker with
    | none => none
    | some (j, tried) =>
      some (s.tryPut reply (o.bucketName j.bucket) (o.naming.objectKey j.key)
          (payload words o.size j),
        .seeding todo (work.replied worker j tried reply))
  | .seeding todo work, .drained =>
    if work.pending = [] ∧ work.channel = [] ∧
        ∀ worker < o.concurrency.toNat, work.workers worker = none then
      some (s, writeSentinels work.counters todo)
    else none
  | .stamping b rest tried c, .stamp reply =>
    let s' := s.tryPut reply (o.bucketName b) o.naming.sentinelKey
      (o.naming.sentinelBody o.objectSize)
    match reply with
    | .ok => some (s', writeSentinels c rest)
    | .failed _ =>
      if tried + 1 < attempts then some (s', .stamping b rest (tried + 1) c)
      else some (s', .returned (some (.sentinel b)))
  | _, _ => none

/-- Everything one step of a run can do. -/
inductive Phase.Moved (s : Store) (o : Options) : Phase → SeederAct → Store → Phase → Prop
  | skip {todo : List ℕ} {next : ℕ} (h : sentinelMatches s o next = true) :
      Moved s o (.checking todo next) (.get true) s (o.bucketsToSeed todo (next + 1))
  | queue {todo : List ℕ} {next : ℕ} {ok : Bool}
      (h : ok = true → sentinelMatches s o next = false) :
      Moved s o (.checking todo next) (.get ok) s (o.bucketsToSeed (todo ++ [next]) (next + 1))
  | unlisted {todo : List ℕ} {results : List (ℕ × Option (List Page))} {b : ℕ}
      (answered : (results.map Prod.fst).Perm todo) (h : (b, none) ∈ results) :
      Moved s o (.listing todo) (.list results) s (.returned (some (.listing b)))
  | listed {todo : List ℕ} {results : List (ℕ × Option (List Page))}
      (answered : (results.map Prod.fst).Perm todo) (h : ∀ r ∈ results, r.2 ≠ none) :
      Moved s o (.listing todo) (.list results) s (o.repair todo (resultOf o.naming results))
  | send {todo : List ℕ} {work : Seeding} {j : Job} {rest : List Job}
      (h : work.pending = j :: rest) (room : work.channel.length < o.concurrency * 2) :
      Moved s o (.seeding todo work) .send s
        (.seeding todo { work with pending := rest, channel := work.channel ++ [j] })
  | receive {todo : List ℕ} {work : Seeding} {worker : ℕ} {j : Job} {rest : List Job}
      (h : work.channel = j :: rest) (hworker : worker < o.concurrency)
      (idle : work.workers worker = none) :
      Moved s o (.seeding todo work) (.receive worker) s
        (.seeding todo
          { work with
            channel := rest
            workers := Function.update work.workers worker (some (j, 0)) })
  | put {todo : List ℕ} {work : Seeding} {worker tried : ℕ} {j : Job} {reply : PutReply}
      (h : work.workers worker = some (j, tried)) :
      Moved s o (.seeding todo work) (.put worker reply)
        (s.tryPut reply (o.bucketName j.bucket) (o.naming.objectKey j.key)
          (payload words o.size j))
        (.seeding todo (work.replied worker j tried reply))
  | drained {todo : List ℕ} {work : Seeding} (sent : work.pending = [])
      (taken : work.channel = [])
      (idle : ∀ worker < o.concurrency.toNat, work.workers worker = none) :
      Moved s o (.seeding todo work) .drained s (writeSentinels work.counters todo)
  | stamp {b tried : ℕ} {rest : List ℕ} {c : Counters} {reply : PutReply} {phase : Phase}
      (h : phase = writeSentinels c rest ∨ phase = .stamping b rest (tried + 1) c ∨
        phase = .returned (some (.sentinel b))) :
      Moved s o (.stamping b rest tried c) (.stamp reply)
        (s.tryPut reply (o.bucketName b) o.naming.sentinelKey
          (o.naming.sentinelBody o.objectSize)) phase

theorem Phase.moved {s s' : Store} {o : Options} {phase phase' : Phase} {a : SeederAct}
    (h : phase.step words s o a = some (s', phase')) :
    phase.Moved words s o a s' phase' := by
  cases phase with
  | checking todo next =>
    cases a with
    | get ok =>
      simp only [step] at h
      split_ifs at h with hmatch
      · cases h
        obtain ⟨rfl, hmatch⟩ := hmatch
        exact .skip hmatch
      · cases h
        exact .queue fun hok => by simpa [hok] using hmatch
    | _ => cases h
  | listing todo =>
    cases a with
    | list results =>
      simp only [step] at h
      split_ifs at h with hperm
      cases hfind : results.find? fun r => r.2.isNone with
      | some r =>
        rw [hfind] at h
        cases h
        have hnone : r.2 = none := by simpa using List.find?_some hfind
        have hmem : (r.1, none) ∈ results := hnone ▸ List.mem_of_find?_eq_some hfind
        exact .unlisted hperm hmem
      | none =>
        rw [hfind] at h
        cases h
        exact .listed hperm fun r hr => by simpa using List.find?_eq_none.mp hfind r hr
    | _ => cases h
  | seeding todo work =>
    cases a with
    | send =>
      simp only [step] at h
      split at h
      · cases h
      · case h_2 j rest hpending =>
        split_ifs at h with hroom
        cases h
        exact .send hpending hroom
    | receive worker =>
      simp only [step] at h
      split at h
      · cases h
      · case h_2 j rest hchannel =>
        split_ifs at h with hidle
        cases h
        exact .receive hchannel hidle.1 (by simpa using hidle.2)
    | put worker reply =>
      simp only [step] at h
      split at h
      · cases h
      · case h_2 j tried hworker =>
        cases h
        exact .put hworker
    | drained =>
      simp only [step] at h
      split_ifs at h with hdone
      cases h
      exact .drained hdone.1 hdone.2.1 hdone.2.2
    | _ => cases h
  | stamping b rest tried c =>
    cases a with
    | stamp reply =>
      cases reply with
      | ok =>
        cases h
        exact .stamp (.inl rfl)
      | failed landed =>
        simp only [step] at h
        split_ifs at h with hagain
        · cases h
          exact .stamp (.inr (.inl rfl))
        · cases h
          exact .stamp (.inr (.inr rfl))
    | _ => cases h
  | returned result => cases h

def Bench.step (w : Bench) (a : SeederAct) : Option Bench :=
  match w.run, a with
  | none, .start o => some { w with run := some (o, o.begin) }
  | none, _ => none
  | some _, .crash => some { w with run := none }
  | some (_, .returned _), .exit => some { w with run := none }
  | some (o, phase), a =>
    (phase.step words w.store o a).map fun next => ⟨next.1, some (o, next.2)⟩

/-- Everything one step of the bench can do. -/
theorem Bench.step_cases {w w' : Bench} {a : SeederAct} (h : w.step words a = some w') :
    (∃ o, a = .start o ∧ w.run = none ∧ w' = { w with run := some (o, o.begin) }) ∨
    (w' = { w with run := none }) ∨
    (∃ o phase store phase', w.run = some (o, phase) ∧
      phase.Moved words w.store o a store phase' ∧ w' = ⟨store, some (o, phase')⟩) := by
  obtain ⟨store, run⟩ := w
  cases run with
  | none =>
    cases a with
    | start o =>
      cases h
      exact .inl ⟨o, rfl, rfl, rfl⟩
    | _ => cases h
  | some current =>
    obtain ⟨o, phase⟩ := current
    simp only [step] at h
    split at h
    case h_3 | h_4 =>
      cases h
      exact .inr (.inl rfl)
    case h_5 o' phase' hrun _ _ =>
      obtain ⟨rfl, rfl⟩ := Prod.mk.inj (Option.some.inj hrun)
      obtain ⟨next, hstep, rfl⟩ := Option.map_eq_some_iff.mp h
      exact .inr (.inr ⟨o, phase, next.1, next.2, rfl, Phase.moved words hstep, rfl⟩)
    all_goals contradiction

end

end R2Bench
