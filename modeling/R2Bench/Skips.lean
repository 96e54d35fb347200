import R2Bench.Addresses
import R2Bench.Sentinels

/-!
# Which buckets a run skips

A bucket is skipped when the sentinel read back is the one that the run would write.
What is read back is what was written there last, up to 64 KiB of it.
-/
namespace R2Bench
open Machines

/-! ## What the buckets record -/

/-- The shape that a sentinel records, with its bucket. -/
structure Stamp where
  bucket : Bytes
  keyPrefix : Bytes
  keyspace : ℤ
  objectSize : ℤ
  deriving DecidableEq

/-- The text of the sentinel; the names of buckets do not enter into it. -/
def Stamp.body (x : Stamp) : Bytes :=
  Naming.sentinelBody ⟨[], 0, x.keyPrefix, x.keyspace⟩ x.objectSize

/-- What the options would record for a bucket. -/
def Options.stamp (o : Options) (b : ℕ) : Stamp :=
  ⟨o.bucketName b, o.keyPrefix, o.keyspace, o.objectSize⟩

/-- The sentinel that a step puts in place, if it does. -/
def landedSentinel (w : Bench) : SeederAct → Option Stamp
  | .stamp reply =>
    match w.run with
    | some (o, .stamping b _ _ _) => if reply.landed then some (o.stamp b) else none
    | _ => none
  | _ => none

/-- The last sentinel written to the bucket under the prefix. -/
def lastStamp (stamps : List Stamp) (bucket keyPrefix : Bytes) : Option Stamp :=
  (stamps.filter fun x => x.bucket = bucket ∧ x.keyPrefix = keyPrefix).getLast?

theorem lastStamp_append (stamps : List Stamp) (x : Stamp) (bucket keyPrefix : Bytes) :
    lastStamp (stamps ++ [x]) bucket keyPrefix =
      if x.bucket = bucket ∧ x.keyPrefix = keyPrefix then some x
      else lastStamp stamps bucket keyPrefix := by
  rw [lastStamp, List.filter_append]
  split_ifs with h
  · simp [h]
  · simp [lastStamp, h]

theorem of_lastStamp {stamps : List Stamp} {bucket keyPrefix : Bytes} {x : Stamp}
    (h : lastStamp stamps bucket keyPrefix = some x) :
    x.bucket = bucket ∧ x.keyPrefix = keyPrefix := by
  have hmem := List.mem_of_getLast? h
  simpa using (List.mem_filter.mp hmem).2

/-- The sentinels in the buckets are those written last. -/
def Recorded (w : Bench) (stamps : List Stamp) : Prop :=
  ∀ bucket keyPrefix, w.store bucket (keyPrefix ++ ascii "_seed_complete") =
    (lastStamp stamps bucket keyPrefix).map Stamp.body

section
variable {words : ℕ → UInt64} {w w' : Bench}

/-- A step that is no attempt at a sentinel puts down an object at most. -/
theorem Bench.stored_object {a : SeederAct} (h : w.step words a = some w')
    (ha : ∀ reply, a ≠ .stamp reply) : w'.store = w.store ∨
      ∃ (o : Options) (j : Job) (body : Bytes), w'.store =
        w.store.put (o.bucketName j.bucket) (o.naming.objectKey j.key) body := by
  obtain ⟨o, -, -, rfl⟩ | rfl | ⟨o, phase, store, phase', -, hmoved, rfl⟩ := step_cases words h
  · exact .inl rfl
  · exact .inl rfl
  · cases hmoved with
    | @put _ _ _ _ j reply _ =>
      by_cases hlanded : reply.landed = true
      · exact .inr ⟨o, j, payload words o.size j, if_pos hlanded⟩
      · exact .inl (if_neg hlanded)
    | stamp _ => exact absurd rfl (ha _)
    | _ => exact .inl rfl

/-- An attempt at a sentinel. -/
theorem Bench.stored_sentinel {reply : PutReply} (h : w.step words (.stamp reply) = some w') :
    ∃ (o : Options) (b : ℕ),
      landedSentinel w (.stamp reply) = (if reply.landed then some (o.stamp b) else none) ∧
      w'.store = w.store.tryPut reply (o.bucketName b) o.naming.sentinelKey (o.stamp b).body := by
  obtain ⟨o, hstart, -⟩ | hstop | ⟨o, phase, store, phase', hrun, hmoved, rfl⟩ :=
    step_cases words h
  · cases hstart
  · obtain ⟨store, _ | ⟨o, phase⟩⟩ := w
    · cases h
    · have hmap : (phase.step words store o (.stamp reply)).map
          (fun next => Bench.mk next.1 (some (o, next.2))) = some w' := by
        cases phase <;> exact h
      obtain ⟨next, -, rfl⟩ := Option.map_eq_some_iff.mp hmap
      cases hstop
  · obtain ⟨store', run⟩ := w
    have hrun : run = some (o, phase) := hrun
    subst hrun
    cases hmoved with
    | @stamp b tried rest c _ _ _ => exact ⟨o, b, rfl, rfl⟩

theorem recorded_step {a : SeederAct} {stamps : List Stamp} (h : w.step words a = some w')
    (recorded : Recorded w stamps) : Recorded w' (stamps ++ (landedSentinel w a).toList) := by
  intro bucket keyPrefix
  have hold := recorded bucket keyPrefix
  by_cases ha : ∃ reply, a = .stamp reply
  · obtain ⟨reply, rfl⟩ := ha
    obtain ⟨o, b, hlanded, hstore⟩ := Bench.stored_sentinel h
    rw [hlanded, hstore, Store.tryPut]
    split_ifs with hput
    · have hkey : keyPrefix ++ ascii "_seed_complete" = o.naming.sentinelKey ↔
          o.keyPrefix = keyPrefix := by
        rw [Naming.sentinelKey, List.append_left_inj, eq_comm]
        rfl
      rw [Option.toList_some, lastStamp_append, Store.put_apply]
      by_cases hhere : (o.stamp b).bucket = bucket ∧ (o.stamp b).keyPrefix = keyPrefix
      · rw [if_pos ⟨hhere.1.symm, hkey.mpr hhere.2⟩, if_pos hhere]
        rfl
      · rw [if_neg fun hboth => hhere ⟨hboth.1.symm, hkey.mp hboth.2⟩, if_neg hhere]
        exact hold
    · simpa using hold
  · have hnone : landedSentinel w a = none := by
      cases a with
      | stamp reply => exact absurd ⟨reply, rfl⟩ ha
      | _ => rfl
    rw [hnone, Option.toList_none, List.append_nil, ← hold]
    obtain hsame | ⟨o, j, body, hput⟩ := Bench.stored_object h fun reply heq => ha ⟨reply, heq⟩
    · rw [hsame]
    · have hne : keyPrefix ++ ascii "_seed_complete" ≠ o.naming.objectKey j.key :=
        (o.naming.objectKey_ne_sentinelKey ⟨[], 0, keyPrefix, 0⟩ j.key).symm
      rw [hput, Store.put_apply, if_neg fun hboth => hne hboth.2]

/-- In every state that any runs from empty buckets lead to. -/
theorem recorded_of_history {acts : List SeederAct}
    (history : Run (Bench.step words) (fun _ _ => True) Bench.empty acts w) :
    Recorded w (log (Bench.step words) landedSentinel acts Bench.empty) :=
  history.invariant_log _ (fun _ _ => rfl) fun _ _ _ _ _ moved h => recorded_step moved h

end

/-! ## What the checks find -/

/-- A sentinel that begins with another of its prefix is that one. -/
theorem sentinelBody_congr {n m : Naming} {size size' : ℤ} (hkey : n.keyPrefix = m.keyPrefix)
    (h : n.sentinelBody size <+: m.sentinelBody size') :
    n.sentinelBody size = m.sentinelBody size' := by
  obtain ⟨rest, hrest⟩ := h
  have hnewline : ∀ k : ℤ, '\n'.toUInt8 ∉ decimal k := fun k =>
    not_mem_decimal (by decide) (by decide)
  simp only [Naming.sentinelBody, List.append_assoc, List.append_cancel_left_eq] at hrest
  obtain ⟨hkeyspace, hrest⟩ := field_inj (hnewline _) (hnewline _) hrest
  obtain ⟨hsize, -⟩ := field_inj (hnewline _) (hnewline _) (List.append_cancel_left hrest)
  simp only [Naming.sentinelBody, hkey, hsize, decimal_inj.mp hkeyspace]

/-- The last sentinel of the bucket under the prefix carries the keyspace and object
size of the options. -/
def CarriesShape (o : Options) (stamps : List Stamp) (b : ℕ) : Prop :=
  ∃ x, lastStamp stamps (o.bucketName b) o.keyPrefix = some x ∧
    x.keyspace = o.keyspace ∧ x.objectSize = o.objectSize

section
variable {words : ℕ → UInt64} {o : Options} {s : Store}

/-- The whole sentinel of the options can be read back. -/
def Options.Readable (o : Options) : Prop := (o.naming.sentinelBody o.objectSize).length ≤ 2 ^ 16

theorem sentinelMatches_iff {w : Bench} {stamps : List Stamp} (recorded : Recorded w stamps)
    (b : ℕ) : sentinelMatches w.store o b = true ↔ CarriesShape o stamps b ∧ o.Readable := by
  have hstored : w.store (o.bucketName b) o.naming.sentinelKey = _ :=
    recorded (o.bucketName b) o.keyPrefix
  rw [sentinelMatches, decide_eq_true_iff, hstored, CarriesShape]
  cases hlast : lastStamp stamps (o.bucketName b) o.keyPrefix with
  | none => simp
  | some x =>
    have hx : x.keyPrefix = o.naming.keyPrefix := (of_lastStamp hlast).2
    simp only [Option.map_some, Option.some.injEq, exists_eq_left']
    constructor
    · intro htake
      have hlen := congrArg List.length htake
      rw [List.length_take] at hlen
      have hbody : x.body = o.naming.sentinelBody o.objectSize :=
        (sentinelBody_congr hx.symm (htake ▸ List.take_prefix _ _)).symm
      obtain ⟨hkeyspace, hsize, -⟩ := Naming.shape_of_sentinelBody hbody
      exact ⟨⟨hkeyspace, hsize⟩, by rw [Options.Readable]; omega⟩
    · rintro ⟨⟨hkeyspace, hsize⟩, hreadable⟩
      have hbody : x.body = o.naming.sentinelBody o.objectSize := by
        simp only [Stamp.body, Naming.sentinelBody, hkeyspace, hsize, hx]
        rfl
      rw [hbody, List.take_of_length_le hreadable]

/-- The buckets from `next` on that the checks leave. -/
def needed (s : Store) (o : Options) (next n : ℕ) : List ℕ :=
  (List.range' next n).filter fun b => !sentinelMatches s o b

/-- The checks that remain, all answered. -/
theorem replay_checks (words : ℕ → UInt64) (s : Store) (n : ℕ) :
    ∀ (todo : List ℕ) (next : ℕ), (next + n : ℤ) = o.bucketCount →
    replay (o.advance words) (List.replicate n (.get true)) (s, o.bucketsToSeed todo next) =
      some (s, o.planned (todo ++ needed s o next n)) := by
  induction n with
  | zero =>
    intro todo next hn
    rw [Options.bucketsToSeed, if_neg (by omega)]
    simp [replay, needed]
  | succ n ih =>
    intro todo next hn
    have hstep : o.advance words (s, o.bucketsToSeed todo next) (.get true) =
        some (s, o.bucketsToSeed (todo ++ needed s o next 1) (next + 1)) := by
      rw [Options.bucketsToSeed, if_pos (by omega)]
      cases hmatch : sentinelMatches s o next <;>
        simp [Options.advance, Phase.step, needed, hmatch]
    have hsplit : needed s o next (n + 1) = needed s o next 1 ++ needed s o (next + 1) n := by
      rw [needed, Nat.add_comm n 1, ← List.range'_append_1, List.filter_append]
      rfl
    rw [List.replicate_succ, replay, hstep, Option.bind_some, ih _ _ (by push_cast; omega), hsplit,
      List.append_assoc]

end

/-! ## Running it again -/

/-- Every bucket has the sentinel of the options. -/
def AllSeeded (s : Store) (o : Options) : Prop :=
  ∀ b : ℕ, b < o.bucketCount → sentinelMatches s o b = true

/-- Every bucket has the sentinel or is still to come. -/
def OnTheWay (s : Store) (o : Options) : Phase → Prop
  | .checking todo next => ∀ b < next, b ∈ todo ∨ sentinelMatches s o b = true
  | .listing todo => ∀ b : ℕ, b < o.bucketCount → b ∈ todo ∨ sentinelMatches s o b = true
  | .seeding todo work => (work.counters.failed = 0 → ∀ b, work.counters.failedPerBucket b = 0) ∧
    ∀ b : ℕ, b < o.bucketCount → b ∈ todo ∨ sentinelMatches s o b = true
  | .stamping b rest _ c => (c.failed = 0 → ∀ b, c.failedPerBucket b = 0) ∧
    (c.failed = 0 → ∀ b' : ℕ, b' < o.bucketCount →
      b' ∈ b :: rest ∨ sentinelMatches s o b' = true)
  | .returned result => result = none → o.flags.dryRun = true ∨ AllSeeded s o

section
variable {words : ℕ → UInt64} {o : Options} {s : Store} {todo : List ℕ}

theorem sentinelMatches_object (reply : PutReply) (name body : Bytes) (n : Naming) (k b : ℕ) :
    sentinelMatches (s.tryPut reply name (n.objectKey k) body) o b = sentinelMatches s o b := by
  have hne : o.naming.sentinelKey ≠ n.objectKey k := (n.objectKey_ne_sentinelKey o.naming k).symm
  rw [Store.tryPut]
  split
  · simp [sentinelMatches, Store.put_apply, hne]
  · rfl

theorem sentinelMatches_sentinel (readable : o.Readable) {b b' : ℕ} {reply : PutReply}
    (h : reply = .ok ∧ b' = b ∨ sentinelMatches s o b' = true) :
    sentinelMatches (s.tryPut reply (o.bucketName b) o.naming.sentinelKey
      (o.naming.sentinelBody o.objectSize)) o b' = true := by
  rw [Store.tryPut]
  split
  · rw [sentinelMatches, Store.put_apply]
    split
    · rw [Option.map_some, List.take_of_length_le readable]
      exact decide_eq_true rfl
    · case isFalse hother =>
      obtain ⟨-, rfl⟩ | hold := h
      · exact absurd ⟨rfl, rfl⟩ hother
      · exact hold
  · case isFalse hlost =>
    obtain ⟨rfl, -⟩ | hold := h
    · exact absurd rfl hlost
    · exact hold

theorem onTheWay_writeSentinels {c : Counters}
    (sane : c.failed = 0 → ∀ b, c.failedPerBucket b = 0)
    (h : c.failed = 0 → ∀ b : ℕ, b < o.bucketCount → b ∈ todo ∨ sentinelMatches s o b = true) :
    OnTheWay s o (writeSentinels c todo) := by
  obtain ⟨hfailed, hend⟩ | ⟨passed, b, rest, rfl, hpassed, -, hend⟩ :=
    writeSentinels_cases c todo
  · rw [hend]
    intro hnone
    right
    split_ifs at hnone with hany
    have hzero := sane (by omega)
    exact fun b hb => (h (by omega) b hb).resolve_left fun hmem =>
      absurd (hfailed b hmem) (by simp [hzero b])
  · rw [hend]
    refine ⟨sane, fun hnone b' hb' => (h hnone b' hb').imp_left fun hmem => ?_⟩
    -- without failures no bucket is passed over
    refine (List.mem_append.mp hmem).resolve_left fun hmem => ?_
    have hlost := hpassed b' hmem
    have hzero := sane hnone b'
    omega

theorem onTheWay_planned
    (h : ∀ b : ℕ, b < o.bucketCount → b ∈ todo ∨ sentinelMatches s o b = true) :
    OnTheWay s o (o.planned todo) := by
  rw [Options.planned]
  split_ifs with hnone
  · subst hnone
    intro _
    right
    exact fun b hb => (h b hb).resolve_left List.not_mem_nil
  · exact h
  · exact ⟨fun _ _ => rfl, h⟩

theorem onTheWay_bucketsToSeed {next : ℕ}
    (h : ∀ b < next, b ∈ todo ∨ sentinelMatches s o b = true) :
    OnTheWay s o (o.bucketsToSeed todo next) := by
  rw [Options.bucketsToSeed]
  split
  · exact h
  · exact onTheWay_planned fun b hb => h b (by omega)

theorem onTheWay_begin : OnTheWay s o o.begin := by
  rw [Options.begin]
  split_ifs with hdry
  · exact fun _ => .inl hdry.1
  · apply onTheWay_planned
    intro b hb
    left
    rw [List.mem_range]
    omega
  · apply onTheWay_bucketsToSeed
    intro b hb
    exact absurd hb (Nat.not_lt_zero b)

theorem sane_replied {work : Seeding} {worker tried : ℕ} {j : Job} (reply : PutReply)
    (sane : work.counters.failed = 0 → ∀ b, work.counters.failedPerBucket b = 0) :
    (work.replied worker j tried reply).counters.failed = 0 →
      ∀ b, (work.replied worker j tried reply).counters.failedPerBucket b = 0 := by
  cases reply with
  | ok => exact sane
  | failed landed =>
    rw [Seeding.replied]
    split_ifs
    · exact sane
    · intro hnone
      simp [Counters.failure] at hnone

theorem onTheWay_stamping (readable : o.Readable) {b tried : ℕ} {rest : List ℕ} {c : Counters}
    {a : SeederAct} {x' : Store × Phase}
    (h : o.advance words (s, .stamping b rest tried c) a = some x')
    (hx : OnTheWay s o (.stamping b rest tried c)) : OnTheWay x'.1 o x'.2 := by
  obtain ⟨sane, hb⟩ := hx
  obtain ⟨reply, -, hstore, hnext⟩ := advance_stamping h
  have hkept : ∀ b', reply = .ok ∧ b' = b ∨ sentinelMatches s o b' = true →
      sentinelMatches x'.1 o b' = true := by
    intro b' h'
    rw [hstore]
    exact sentinelMatches_sentinel readable h'
  obtain ⟨hok, hphase⟩ | ⟨-, -, hphase⟩ | ⟨-, -, hphase⟩ := hnext
  · rw [hphase]
    apply onTheWay_writeSentinels sane
    intro hnone b' hb'
    rcases hb hnone b' hb' with hmem | hold
    · rcases List.mem_cons.mp hmem with rfl | hrest
      · exact .inr (hkept b' (.inl ⟨hok, rfl⟩))
      · exact .inl hrest
    · exact .inr (hkept b' (.inr hold))
  · rw [hphase]
    exact ⟨sane, fun hnone b' hb' => (hb hnone b' hb').imp_right fun hold => hkept b' (.inr hold)⟩
  · rw [hphase]
    intro hnone
    cases hnone

theorem onTheWay_advance (readable : o.Readable) {x x' : Store × Phase} {a : SeederAct}
    (h : o.advance words x a = some x') (hx : OnTheWay x.1 o x.2) : OnTheWay x'.1 o x'.2 := by
  obtain ⟨s, phase⟩ := x
  obtain ⟨s', phase'⟩ := x'
  have hmoved : phase.Moved words s o a s' phase' := Options.moved_of_advance h
  cases hmoved with
  | @skip todo next hmatch =>
    apply onTheWay_bucketsToSeed
    intro b hb
    by_cases he : b = next
    · exact .inr (he ▸ hmatch)
    · exact hx b (by omega)
  | @queue todo next ok _ =>
    apply onTheWay_bucketsToSeed
    intro b hb
    by_cases he : b = next
    · left
      simp [he]
    · exact (hx b (by omega)).imp_left (List.mem_append_left _)
  | unlisted _ _ =>
    intro hnone
    cases hnone
  | listed _ _ =>
    rw [Options.repair]
    split_ifs with hdry
    · exact fun _ => .inl hdry
    · exact onTheWay_writeSentinels (fun _ _ => rfl) fun _ => hx
    · exact ⟨fun _ _ => rfl, hx⟩
  | send _ _ => exact hx
  | receive _ _ _ => exact hx
  | put _ =>
    refine ⟨sane_replied _ hx.1, fun b hb => ?_⟩
    rw [sentinelMatches_object]
    exact hx.2 b hb
  | drained _ _ _ => exact onTheWay_writeSentinels hx.1 fun _ => hx.2
  | stamp _ => exact onTheWay_stamping readable h hx

/-- A run without an error leaves every bucket with its sentinel. -/
theorem allSeeded_of_run (readable : o.Readable) {s' : Store} {acts : List SeederAct}
    {C : Store × Phase → SeederAct → Prop}
    (run : Run (o.advance words) C (s, o.begin) acts (s', .returned none)) :
    o.flags.dryRun = true ∨ AllSeeded s' o := by
  have hend : OnTheWay s' o (.returned none) :=
    run.invariant (I := fun x => OnTheWay x.1 o x.2) onTheWay_begin
      fun _ _ _ _ moved hx => onTheWay_advance readable moved hx
  exact hend rfl

/-- The phases of a run that has nothing to write. -/
def Idle (s : Store) (o : Options) : Phase → Prop
  | .checking todo next => next < o.bucketCount ∧
    ((o.flags.dryRun ∧ o.flags.repair) ∨ AllSeeded s o ∧ todo = [])
  | .listing _ => o.flags.dryRun
  | .returned _ => True
  | _ => False

theorem idle_bucketsToSeed {next : ℕ}
    (h : (o.flags.dryRun ∧ o.flags.repair) ∨ AllSeeded s o ∧ todo = []) :
    Idle s o (o.bucketsToSeed todo next) := by
  rw [Options.bucketsToSeed]
  split
  · case isTrue hnext => exact ⟨hnext, h⟩
  rw [Options.planned]
  split_ifs with hnone hrepair
  · exact trivial
  · obtain ⟨hdry, -⟩ | ⟨-, hnil⟩ := h
    · exact hdry
    · exact absurd hnil hnone
  · obtain ⟨-, hboth⟩ | ⟨-, hnil⟩ := h
    · exact absurd hboth hrepair
    · exact absurd hnil hnone

theorem idle_begin (hforce : ¬ o.flags.force) (h : o.flags.dryRun = true ∨ AllSeeded s o) :
    Idle s o o.begin := by
  rw [Options.begin, if_neg hforce]
  split_ifs with hdry
  · exact trivial
  · apply idle_bucketsToSeed
    obtain hdryRun | hall := h
    · exact .inl ⟨hdryRun, by simpa [hdryRun] using hdry⟩
    · exact .inr ⟨hall, rfl⟩

/-- GETs are answered. -/
def GetAnswered (_ : Store × Phase) (a : SeederAct) : Prop := a ≠ .get false

theorem idle_advance {x x' : Store × Phase} {a : SeederAct} (h : o.advance words x a = some x')
    (answered : GetAnswered x a) (idle : Idle x.1 o x.2) :
    Idle x'.1 o x'.2 ∧ x'.1 = x.1 ∧ ∀ e ∈ (seederEvent x a).toList, e.isPut = false := by
  obtain ⟨s, phase⟩ := x
  obtain ⟨s', phase'⟩ := x'
  have hmoved : phase.Moved words s o a s' phase' := Options.moved_of_advance h
  cases hmoved with
  | skip _ => exact ⟨idle_bucketsToSeed idle.2, rfl, by simp [seederEvent]⟩
  | @queue todo next ok hmatch =>
    refine ⟨?_, rfl, by simp [seederEvent]⟩
    apply idle_bucketsToSeed
    obtain ⟨hnext, hdry | ⟨hall, -⟩⟩ := idle
    · exact .inl hdry
    · have hok : ok = true := by
        by_contra hfailed
        exact answered (by simp [hfailed])
      rw [hall next hnext] at hmatch
      cases hmatch hok
  | unlisted _ _ => exact ⟨trivial, rfl, by simp [seederEvent]⟩
  | listed _ _ =>
    refine ⟨?_, rfl, by simp [seederEvent]⟩
    have hdry : o.flags.dryRun = true := idle
    rw [Options.repair, if_pos hdry]
    exact trivial
  | _ => exact idle.elim

/-- After a run without an error, another with the same options and without `-force`
sends no PUT. -/
theorem no_put_again (readable : o.Readable) (hforce : ¬ o.flags.force) {s' : Store}
    {first again : List SeederAct} {x : Store × Phase} {C : Store × Phase → SeederAct → Prop}
    (run : Run (o.advance words) C (s, o.begin) first (s', .returned none))
    (rerun : Run (o.advance words) GetAnswered (s', o.begin) again x) :
    x.1 = s' ∧ ∀ e ∈ log (o.advance words) seederEvent again (s', o.begin), e.isPut = false := by
  have hinv := rerun.invariant_log seederEvent
    (I := fun y noted => Idle y.1 o y.2 ∧ y.1 = s' ∧ ∀ e ∈ noted, e.isPut = false)
    ⟨idle_begin hforce (allSeeded_of_run readable run), rfl, by simp⟩ ?_
  · exact hinv.2
  · intro y noted a y' answered moved hy
    obtain ⟨idle, hstore, hnoted⟩ := hy
    obtain ⟨idle', hsame, hnew⟩ := idle_advance moved answered idle
    refine ⟨idle', hsame.trans hstore, fun e he => ?_⟩
    exact (List.mem_append.mp he).elim (hnoted e) (hnew e)

/-- After any runs from empty buckets the checks pass over the buckets whose last sentinel
under the prefix carries the run's own keyspace and object size, if the run can read that
much, and over no other. -/
theorem skips_recorded {acts : List SeederAct} {w : Bench}
    (history : Run (Bench.step words) (fun _ _ => True) Bench.empty acts w)
    (hforce : ¬ o.flags.force) (hdry : ¬ (o.flags.dryRun ∧ ¬ o.flags.repair)) :
    ∃ todo : List ℕ, replay (o.advance words) (List.replicate o.bucketCount.toNat (.get true))
        (w.store, o.begin) = some (w.store, o.planned todo) ∧
      ∀ b : ℕ, b ∈ todo ↔ b < o.bucketCount ∧
        ¬ (CarriesShape o (log (Bench.step words) landedSentinel acts Bench.empty) b ∧
          o.Readable) := by
  have hpos := o.bucketCount_pos
  refine ⟨needed w.store o 0 o.bucketCount.toNat, ?_, fun b => ?_⟩
  · rw [Options.begin, if_neg hdry, if_neg hforce]
    exact replay_checks words _ _ [] 0 (by omega)
  · rw [← sentinelMatches_iff (recorded_of_history history) b, needed, List.mem_filter,
      List.mem_range'_1]
    simp only [Bool.not_eq_eq_eq_not, Bool.not_true, Bool.not_eq_true]
    exact and_congr_left' (by omega)

/-- Sentinels tell shapes apart. Where the URLs say the prefixes as they are: after any
runs from empty buckets, a run that is not forced passes over the buckets whose last
sentinel under the prefix carries its own keyspace and object size, if it can read that
much, and over no other. Run again after a run without an error, it sends nothing. -/
theorem seeded_once {acts : List SeederAct} {w : Bench}
    (history : Run (Bench.wire words) (fun _ a => StartsVerbatim a) Bench.empty acts w)
    (hverbatim : Verbatim o.keyPrefix) (hforce : ¬ o.flags.force) :
    (∀ (n m : Naming) (size size' : ℤ), n.sentinelBody size = m.sentinelBody size' →
      n.keyspace = m.keyspace ∧ size = size' ∧ n.keyPrefix = m.keyPrefix) ∧
    (¬ (o.flags.dryRun ∧ ¬ o.flags.repair) → ∃ todo : List ℕ,
      replay (o.wire words) (List.replicate o.bucketCount.toNat (.get true))
        (w.store, o.begin) = some (w.store, o.planned todo) ∧
      ∀ b : ℕ, b ∈ todo ↔ b < o.bucketCount ∧
        ¬ (CarriesShape o (log (Bench.wire words) landedSentinel acts Bench.empty) b ∧
          o.Readable)) ∧
    (o.Readable → ∀ (s s' : Store) (first again : List SeederAct) (x : Store × Phase),
      Run (o.wire words) (fun _ _ => True) (s, o.begin) first (s', .returned none) →
      Run (o.wire words) GetAnswered (s', o.begin) again x →
      x.1 = s' ∧ ∀ e ∈ log (o.wire words) seederEvent again (s', o.begin),
        e.isPut = false) := by
  obtain ⟨run, hlog⟩ := Bench.run_of_wire (C := fun _ _ => True)
    (history.mono fun _ _ starts => ⟨trivial, starts⟩) landedSentinel
  rw [Options.wire_verbatim hverbatim, hlog]
  exact ⟨fun n m size size' => Naming.shape_of_sentinelBody, skips_recorded run hforce,
    fun readable s s' first again x run rerun => no_put_again readable hforce run rerun⟩

end

/-! ## Long prefixes and `-force` -/

def prefixOptions (keyPrefix : Bytes) : Options :=
  { tinyOptions 9 nine_pos with keyPrefix := keyPrefix }

/-- A whole run that writes one object and its sentinel. -/
def oneRun (o : Options) : List SeederAct :=
  [.start o, .get true, .send, .receive 0, .put 0 .ok, .drained, .stamp .ok, .exit]

theorem exists_one_run {keyPrefix : Bytes} (h : Verbatim keyPrefix) :
    ∃ w, Run (Bench.wire fun _ => 0) (fun _ a => StartsVerbatim a) Bench.empty
      (oneRun (prefixOptions keyPrefix)) w ∧
      log (Bench.wire fun _ => 0) landedSentinel (oneRun (prefixOptions keyPrefix)) Bench.empty =
        [(prefixOptions keyPrefix).stamp 0] := by
  have hreplay : (replay (Bench.step fun _ => 0) (oneRun (prefixOptions keyPrefix))
      Bench.empty).isSome = true := rfl
  obtain ⟨w, hw⟩ := Option.isSome_iff_exists.mp hreplay
  have run : Run (Bench.step fun _ => 0) (fun _ a => True ∧ StartsVerbatim a) Bench.empty
      (oneRun (prefixOptions keyPrefix)) w := by
    refine run_of_replay (fun a ha _ => ⟨trivial, ?_⟩) hw
    rintro o rfl
    obtain rfl : o = prefixOptions keyPrefix := by simpa [oneRun] using ha
    exact h
  obtain ⟨hwire, hlog⟩ := Bench.wire_of_run run landedSentinel
  exact ⟨w, hwire.mono fun _ _ allowed => allowed.2, hlog.symm⟩

/-- It leaves the shape of its options behind. -/
theorem carriesShape_stamp (o : Options) : CarriesShape o [o.stamp 0] 0 :=
  ⟨o.stamp 0, by simp [lastStamp, Options.stamp], rfl, rfl⟩

/-- After it the bucket is passed over. -/
theorem seeded_once_one : ∃ (w : Bench) (todo : List ℕ),
    Run (Bench.wire fun _ => 0) (fun _ a => StartsVerbatim a) Bench.empty
      (oneRun (prefixOptions (ascii "obj/"))) w ∧
    replay ((prefixOptions (ascii "obj/")).wire fun _ => 0) [.get true]
      (w.store, (prefixOptions (ascii "obj/")).begin) =
        some (w.store, (prefixOptions (ascii "obj/")).planned todo) ∧ 0 ∉ todo := by
  have hverbatim : Verbatim (ascii "obj/") := by decide
  obtain ⟨w, history, hlog⟩ := exists_one_run hverbatim
  obtain ⟨-, hskip, -⟩ :=
    seeded_once (o := prefixOptions (ascii "obj/")) history hverbatim (by decide)
  obtain ⟨todo, hchecks, htodo⟩ := hskip (by decide)
  refine ⟨w, todo, history, hchecks, fun hmem => ?_⟩
  apply ((htodo 0).mp hmem).2
  rw [hlog]
  refine ⟨carriesShape_stamp _, ?_⟩
  rw [Options.Readable]
  decide

def forcedOptions : Options :=
  { prefixOptions (ascii "obj/") with flags := { noSwitches with force := true } }

/-- With a prefix of 64 KiB the sentinel is cut off when it is read back, and the
bucket is seeded again; and a forced run writes whatever is there. -/
theorem seeded_twice :
    (¬ ∀ (words : ℕ → UInt64) (acts : List SeederAct) (w : Bench) (o : Options),
      Run (Bench.wire words) (fun _ _ => True) Bench.empty acts w → ¬ o.flags.force →
      ¬ (o.flags.dryRun ∧ ¬ o.flags.repair) → ∃ todo : List ℕ,
        replay (o.wire words) (List.replicate o.bucketCount.toNat (.get true))
          (w.store, o.begin) = some (w.store, o.planned todo) ∧
        ∀ b : ℕ, b ∈ todo ↔ b < o.bucketCount ∧
          ¬ CarriesShape o (log (Bench.wire words) landedSentinel acts Bench.empty) b) ∧
    ¬ ∀ (words : ℕ → UInt64) (o : Options) (s s' : Store) (first again : List SeederAct)
      (x : Store × Phase),
      Run (o.wire words) (fun _ _ => True) (s, o.begin) first (s', .returned none) →
      Run (o.wire words) GetAnswered (s', o.begin) again x →
      ∀ e ∈ log (o.wire words) seederEvent again (s', o.begin), e.isPut = false := by
  constructor
  · intro hclaim
    let o := prefixOptions (List.replicate (2 ^ 16) 'a'.toUInt8)
    have hverbatim : Verbatim o.keyPrefix := by
      intro c hc
      rw [List.eq_of_mem_replicate hc]
      decide
    obtain ⟨w, history, hlog⟩ := exists_one_run hverbatim
    have hlong : ¬ o.Readable := by
      have hkey : o.naming.keyPrefix.length = 2 ^ 16 := List.length_replicate
      have hnewline : (ascii "\n").length = 1 := rfl
      rw [Options.Readable, Naming.sentinelBody]
      simp only [List.length_append, hkey, hnewline]
      omega
    -- the claim passes over the bucket
    obtain ⟨todo, hclaimed, htodo⟩ := hclaim _ _ w o (history.mono fun _ _ _ => trivial) (by decide)
      (by decide)
    have hnil : todo = [] := by
      apply List.eq_nil_iff_forall_not_mem.mpr
      intro b hb
      obtain ⟨hlt, hnot⟩ := (htodo b).mp hb
      have hcount : o.bucketCount = 1 := rfl
      obtain rfl : b = 0 := by omega
      rw [hlog] at hnot
      exact hnot (carriesShape_stamp o)
    -- the run does not
    obtain ⟨run, -⟩ := Bench.run_of_wire (C := fun _ _ => True)
      (history.mono fun _ _ starts => ⟨trivial, starts⟩) landedSentinel
    obtain ⟨left, hchecks, hleft⟩ := skips_recorded (o := o) run (by decide) (by decide)
    have hmem : 0 ∈ left := (hleft 0).mpr ⟨by decide, fun hboth => hlong hboth.2⟩
    rw [Options.wire_verbatim hverbatim, hchecks, hnil] at hclaimed
    have hplanned : o.planned left = .returned none := (Prod.mk.inj (Option.some.inj hclaimed)).2
    rw [Options.planned, if_neg (List.ne_nil_of_mem hmem)] at hplanned
    cases hplanned
  · intro hclaim
    let o := forcedOptions
    let acts : List SeederAct := [.send, .receive 0, .put 0 .ok, .drained, .stamp .ok]
    have hwire : o.wire (fun _ => 0) = o.advance fun _ => 0 := Options.wire_verbatim (by decide)
    have hrun : ∀ s, ∃ s', Run (o.wire fun _ => 0) GetAnswered (s, o.begin) acts
        (s', .returned none) := by
      intro s
      rw [hwire]
      exact ⟨_, run_of_replay (by simp [acts, GetAnswered]) rfl⟩
    obtain ⟨s', run⟩ := hrun Bench.empty.store
    obtain ⟨s'', rerun⟩ := hrun s'
    have hany : (log (o.wire fun _ => 0) seederEvent acts (s', o.begin)).any
        SeederEvent.isPut = true := by
      rw [hwire]
      rfl
    obtain ⟨e, he, hput⟩ := List.any_eq_true.mp hany
    have hnone := hclaim _ o _ s' acts acts _ (run.mono fun _ _ _ => trivial) rerun e he
    rw [hput] at hnone
    cases hnone

end R2Bench
