import R2Bench.SeederProgress
import R2Bench.Skips

/-!
# Which gaps a repair closes

A repair lists a bucket by its escaped prefix, and writes to URLs that say the prefix
as it is. Where a URL is read otherwise, the objects that were missing are sent, and
stay missing.
-/
namespace R2Bench
open Machines

/-! ## Repairs on the wire -/

/-- A whole run of a repair: the buckets to do are found, their listings show what is in
them, and every PUT succeeds, if need be when it is tried again. -/
def RepairRun (words : ℕ → UInt64) (o : Options) (todo : List ℕ) (s s' : Store)
    (result : Option RunError) (events : List SeederEvent) : Prop :=
  ∃ (p : Pattern) (s₁ : Store) (checks writes : List SeederAct), p.AllLand ∧
    Run (o.wire words) (fun _ _ => True) (s, o.begin) checks (s₁, .listing todo) ∧
    Run (o.wire words) (fun x a => p.Follows x a ∧ ListsAll o x a) (s₁, .listing todo) writes
      (s', .returned result) ∧
    events = log (o.wire words) seederEvent (checks ++ writes) (s, o.begin)

/-- The listings are behind. -/
def Phase.Writing : Phase → Prop
  | .checking _ _ => False
  | .listing _ => False
  | _ => True

section
variable {words : ℕ → UInt64} {o : Options} {todo : List ℕ} {s s' t t' : Store}
  {phase phase' : Phase} {a : SeederAct} {events : List SeederEvent} {result : Option RunError}

theorem writeSentinels_writing (c : Counters) (todo : List ℕ) :
    (writeSentinels c todo).Writing := by
  obtain ⟨-, hend⟩ | ⟨_, _, _, -, -, -, hend⟩ := writeSentinels_cases c todo
  · rw [hend]
    exact trivial
  · rw [hend]
    exact trivial

theorem repair_writing (missing : ℕ → List ℕ) : (o.repair todo missing).Writing := by
  rw [Options.repair]
  split_ifs
  · exact trivial
  · exact writeSentinels_writing _ _
  · exact trivial

theorem Phase.Moved.writing (moved : phase.Moved words s o a s' phase')
    (h : ∀ todo next, phase ≠ .checking todo next) : phase'.Writing := by
  cases moved with
  | skip _ | queue _ => exact absurd rfl (h _ _)
  | listed _ _ => exact repair_writing _
  | drained _ _ _ => exact writeSentinels_writing _ _
  | stamp hphase =>
    obtain rfl | rfl | rfl := hphase
    · exact writeSentinels_writing _ _
    · exact trivial
    · exact trivial
  | _ => exact trivial

theorem Phase.Writing.ne_checking (h : phase.Writing) (todo : List ℕ) (next : ℕ) :
    phase ≠ .checking todo next := by
  rintro rfl
  exact h

/-- No listing is asked for any more. -/
theorem Phase.Writing.lists (h : phase.Writing) (moved : phase.Moved words s o a s' phase')
    (x : Store × Phase) : ListsAll o x a := by
  rintro results rfl
  cases moved with
  | unlisted _ _ => exact h.elim
  | listed _ _ => exact h.elim

theorem seederEvent_store (s t : Store) (phase : Phase) (a : SeederAct) :
    seederEvent (s, phase) a = seederEvent (t, phase) a := by
  cases phase <;> cases a <;> rfl

/-- From the listing on the program does the same wherever its requests go. -/
theorem advance_of_wire_run {p : Pattern} {writes : List SeederAct} {x : Store × Phase}
    (run : Run (o.wire words) (fun x a => p.Follows x a ∧ ListsAll o x a) (s, .listing todo)
      writes x) : ∃ t, Run (o.advance words) (fun x a => p.Follows x a ∧ ListsAll o x a)
        (s, .listing todo) writes (t, x.2) ∧
      log (o.wire words) seederEvent writes (s, .listing todo) =
        log (o.advance words) seederEvent writes (s, .listing todo) := by
  have hinit : (∀ todo' next, Phase.listing todo ≠ .checking todo' next) ∧
      ((Phase.listing todo).Writing ∨ s = s) := ⟨nofun, .inr rfl⟩
  obtain ⟨⟨t, _⟩, hrun, ⟨rfl, -, -⟩, hlog⟩ := run.simulate (o.advance words)
    (fun x a => p.Follows x a ∧ ListsAll o x a)
    (fun x y => x.2 = y.2 ∧ (∀ todo next, x.2 ≠ .checking todo next) ∧
      (x.2.Writing ∨ y.1 = x.1)) seederEvent seederEvent ⟨rfl, hinit⟩ (by
      rintro ⟨u, phase⟩ a ⟨u', phase'⟩ ⟨v, _⟩ ⟨follows, lists⟩ moved ⟨rfl, hphase, hstore⟩
      obtain ⟨⟨_, hmoved⟩, -⟩ := Options.moved_of_wire moved
      obtain ⟨v', hv'⟩ := Options.advance_of_wire hphase moved v
      have hwriting := hmoved.writing hphase
      refine ⟨⟨follows, ?_⟩, seederEvent_store u v phase a, (v', phase'), hv', rfl,
        hwriting.ne_checking, .inl hwriting⟩
      obtain hafter | hsame := hstore
      · exact hafter.lists hmoved _
      · obtain rfl : v = u := hsame
        exact lists)
  exact ⟨t, hrun, hlog⟩

theorem untouched_wire {x x' : Store × Phase} {noted : List SeederEvent}
    (h : o.wire words x a = some x') (hx : Untouched s x noted) :
    Untouched s x' (noted ++ (seederEvent x a).toList) := by
  obtain ⟨⟨_, moved⟩, kept, -⟩ := Options.moved_of_wire h
  exact untouched_moved moved kept hx

/-- The part of a repair after the checks, in buckets that take each PUT under its key. -/
theorem RepairRun.listed (h : RepairRun words o todo s s' result events) :
    todo.Nodup ∧ ∃ (p : Pattern) (writes : List SeederAct) (t : Store), p.AllLand ∧
      Run (o.wire words) (fun x a => p.Follows x a ∧ ListsAll o x a) (s, .listing todo) writes
        (s', .returned result) ∧
      Run (o.advance words) (fun x a => p.Follows x a ∧ ListsAll o x a) (s, .listing todo) writes
        (t, .returned result) ∧
      events = log (o.wire words) seederEvent writes (s, .listing todo) ∧
      events = log (o.advance words) seederEvent writes (s, .listing todo) := by
  obtain ⟨p, s₁, checks, writes, lands, checked, repaired, hevents⟩ := h
  have huntouched : Untouched s (s₁, .listing todo)
      (log (o.wire words) seederEvent checks (s, o.begin)) :=
    checked.invariant_log _ untouched_begin fun _ _ _ _ _ moved hx => untouched_wire moved hx
  obtain ⟨hstore, hnothing, hnodup⟩ := huntouched
  have hstore : s₁ = s := hstore
  subst hstore
  rw [log_append checked.replay, hnothing, List.nil_append] at hevents
  obtain ⟨t, hrun, hlog⟩ := advance_of_wire_run repaired
  exact ⟨hnodup, p, writes, t, lands, repaired, hrun, hevents, hevents.trans hlog⟩

/-- Whatever the prefix is, the objects sent are those that the buckets do not have. -/
theorem RepairRun.sends (hdry : ¬ o.flags.dryRun)
    (h : RepairRun words o todo s s' result events) : result = none ∧
      ∀ j, j ∈ objectPuts events ↔ j.bucket ∈ todo ∧ j.key < o.keyspace ∧
        s (o.bucketName j.bucket) (o.naming.objectKey j.key) = none := by
  obtain ⟨hnodup, p, writes, t, lands, -, hrun, -, hevents⟩ := h.listed
  obtain ⟨hresult, hputs, -⟩ := repaired_of_run lands hdry hnodup hrun hevents
  exact ⟨hresult, hputs⟩

/-- Nor is a sentinel ever written whose URL is refused. -/
theorem unstamped_of_refused (hrefused : urlKey o.naming.sentinelKey = none)
    {C : Store × Phase → SeederAct → Prop} {acts : List SeederAct} {x y : Store × Phase}
    (run : Run (o.wire words) C x acts y) :
    stampedBuckets (log (o.wire words) seederEvent acts x) = [] := by
  refine run.invariant_log seederEvent (I := fun _ noted => stampedBuckets noted = []) rfl ?_
  rintro ⟨u, phase⟩ noted a ⟨u', phase'⟩ - moved hnoted
  have hnone : (seederEvent (u, phase) a).bind SeederEvent.stamped? = none := by
    obtain ⟨⟨_, hmoved⟩, -, took⟩ := Options.moved_of_wire moved
    cases hmoved with
    | @receive _ _ _ _ _ hchannel _ _ => rw [seederEvent_receive hchannel]; rfl
    | @put _ _ _ _ _ _ holds => rw [seederEvent_put holds]; rfl
    | @stamp b _ _ _ reply _ _ =>
      -- a request that is not sent brings no success
      have htake := took _ rfl
      simp only [Store.take, hrefused] at htake
      split_ifs at htake with hreply
      rw [hreply]
      rfl
    | _ => rfl
  rw [stampedBuckets, List.filterMap_append, ← stampedBuckets, hnoted, List.nil_append]
  cases hevent : seederEvent (u, phase) a with
  | none => rfl
  | some e => simpa [hevent] using hnone

/-- So then no repair has all its PUTs succeed. -/
theorem RepairRun.accepted (hdry : ¬ o.flags.dryRun)
    (h : RepairRun words o todo s s' result events) {b : ℕ} (hb : b ∈ todo) :
    urlKey o.naming.sentinelKey ≠ none := by
  intro hrefused
  obtain ⟨hnodup, p, writes, t, lands, hwire, hrun, hevents, hevents'⟩ := h.listed
  obtain ⟨-, -, -, hstamped⟩ := repaired_of_run lands hdry hnodup hrun hevents'
  rw [hevents, unstamped_of_refused hrefused hwire] at hstamped
  rw [← hstamped] at hb
  cases hb

/-- A prefix that the URL says as it is: no gap is left. -/
theorem RepairRun.closes (hverbatim : Verbatim o.keyPrefix) (hdry : ¬ o.flags.dryRun)
    (h : RepairRun words o todo s s' result events) : ∀ b ∈ todo, ∀ k : ℕ, k < o.keyspace →
      (s' (o.bucketName b) (o.naming.objectKey k)).isSome = true := by
  obtain ⟨hnodup, p, writes, t, lands, hrun, -, hevents, -⟩ := h.listed
  rw [Options.wire_verbatim hverbatim] at hrun hevents
  exact (repaired_of_run lands hdry hnodup hrun hevents).2.2.1

/-! ## Where the objects end up -/

/-- What a PUT addresses is an object that is noted, or a sentinel. -/
theorem sent_noted {x : Store × Phase} {put : Sent} (h : x.2.sent words o a = some put) :
    (∃ j reply, seederEvent x a = some (.object j reply) ∧ put.key = o.naming.objectKey j.key) ∨
      put.key = o.naming.sentinelKey := by
  obtain ⟨u, phase⟩ := x
  cases phase <;> cases a <;> simp only [Phase.sent, reduceCtorEq] at h
  · obtain ⟨⟨j, tried⟩, hheld, rfl⟩ := Option.map_eq_some_iff.mp h
    exact .inl ⟨j, _, seederEvent_put hheld _, rfl⟩
  · cases h
    exact .inr rfl

/-- What a run has put into the buckets lies where the URL of one of its PUTs leads. -/
theorem placed_of_run {C : Store × Phase → SeederAct → Prop} {acts : List SeederAct}
    {x y : Store × Phase} (run : Run (o.wire words) C x acts y) {name key : Bytes}
    (hsome : (y.1 name key).isSome = true) : (x.1 name key).isSome = true ∨
      (∃ j ∈ objectPuts (log (o.wire words) seederEvent acts x),
        urlKey (o.naming.objectKey j.key) = some key) ∨
      urlKey o.naming.sentinelKey = some key := by
  revert hsome
  refine run.invariant_log seederEvent (I := fun y noted => (y.1 name key).isSome = true →
    (x.1 name key).isSome = true ∨ (∃ j ∈ objectPuts noted,
      urlKey (o.naming.objectKey j.key) = some key) ∨ urlKey o.naming.sentinelKey = some key)
    .inl fun u noted a u' _ moved hu hsome => ?_
  obtain ⟨-, kept, took⟩ := Options.moved_of_wire moved
  have hmore : ∀ j, j ∈ objectPuts noted ∨ j ∈ objectPuts (seederEvent u a).toList →
      j ∈ objectPuts (noted ++ (seederEvent u a).toList) := by
    intro j hj
    rw [objectPuts, List.filterMap_append]
    exact List.mem_append.mpr hj
  have hbefore : (u.1 name key).isSome = true → (x.1 name key).isSome = true ∨
      (∃ j ∈ objectPuts (noted ++ (seederEvent u a).toList),
        urlKey (o.naming.objectKey j.key) = some key) ∨ urlKey o.naming.sentinelKey = some key :=
    fun hold => (hu hold).imp_right (Or.imp_left
      (Exists.imp fun j h => ⟨hmore j (.inl h.1), h.2⟩))
  cases hsent : u.2.sent words o a with
  | none =>
    rw [kept hsent] at hsome
    exact hbefore hsome
  | some put =>
    obtain hold | hplace := Store.of_take (took put hsent) hsome
    · exact hbefore hold
    · obtain ⟨j, reply, hnoted, hkey⟩ | hkey := sent_noted hsent
      · refine .inr (.inl ⟨j, hmore j (.inr ?_), hkey ▸ hplace⟩)
        simp [hnoted, objectPuts, SeederEvent.object?]
      · exact .inr (.inr (hkey ▸ hplace))

/-- Any other prefix: a repair that finds the last key missing leaves it so. -/
theorem RepairRun.leaves (hnot : ¬ Verbatim o.keyPrefix) (hdry : ¬ o.flags.dryRun)
    (h : RepairRun words o todo s s' result events) {k : ℕ} (hlast : k + 1 = o.keyspace)
    {name : Bytes} (hgap : s name (o.naming.objectKey k) = none) :
    s' name (o.naming.objectKey k) = none := by
  obtain ⟨-, hsent⟩ := h.sends hdry
  obtain ⟨_, _, writes, _, _, hrun, _, hevents, _⟩ := h.listed
  by_contra hsome
  obtain hbefore | ⟨j, hj, hplace⟩ | hplace :=
    placed_of_run hrun (Option.isSome_iff_ne_none.mpr hsome)
  · have hbefore : (s name (o.naming.objectKey k)).isSome = true := hbefore
    simp [hgap] at hbefore
  · rw [← hevents, hsent] at hj
    exact Naming.urlKey_objectKey_ne hnot (by omega) hplace
  · exact Naming.urlKey_sentinelKey_ne _ _ hplace

/-! ## A repair of empty buckets -/

/-- Every listing shows that there is nothing. -/
def emptyListings (todo : List ℕ) : List (ℕ × Option (List Page)) :=
  todo.map fun b => (b, some [⟨false, [], []⟩])

theorem emptyListings_lists (todo : List ℕ) :
    ListsAll o (Bench.empty.store, .listing todo) (.list (emptyListings todo)) := by
  rintro _ ⟨⟩ r hr
  obtain ⟨b, -, rfl⟩ := List.mem_map.mp hr
  exact ⟨_, rfl, by simp [Chained], fun key => by simp [Bench.empty]⟩

theorem seen_empty : Bench.empty.store.seen = Bench.empty.store := by
  funext bucket key
  cases hplace : urlKey key with
  | none => simp [Store.seen, hplace, Bench.empty]
  | some place => simp [Store.seen, hplace, Bench.empty]

/-- Before the first PUT nothing shows where the requests of such a run go. -/
theorem wire_empty (hsent : phase.sent words o a = none) :
    o.wire words (Bench.empty.store, phase) a = o.advance words (Bench.empty.store, phase) a := by
  cases hstep : phase.step words Bench.empty.store o a with
  | none => simp only [Options.wire, Options.advance, seen_empty, hstep, Option.bind_none]
  | some next =>
    have hadvance : o.advance words (Bench.empty.store, phase) a = some next := hstep
    have hstored := Options.stored_of_advance hadvance
    rw [hsent] at hstored
    simp only [Options.wire, Options.advance, seen_empty, hstep, hsent, Option.bind_some]
    exact congrArg some (Prod.ext hstored.symm rfl)

/-- The checks leave every bucket to the repair. -/
theorem checks_empty (words : ℕ → UInt64) (hrepair : o.flags.repair) (hdry : ¬ o.flags.dryRun) :
    ∃ (checks : List SeederAct) (todo : List ℕ), 0 ∈ todo ∧
      Run (o.wire words) (fun _ _ => True) (Bench.empty.store, o.begin) checks
        (Bench.empty.store, .listing todo) := by
  have hpos := o.bucketCount_pos
  have hplanned : ∀ todo : List ℕ, 0 ∈ todo → o.planned todo = .listing todo := by
    intro todo hmem
    rw [Options.planned, if_neg (List.ne_nil_of_mem hmem), if_pos hrepair]
  by_cases hforce : o.flags.force
  · refine ⟨[], List.range o.bucketCount.toNat, List.mem_range.mpr (by omega), ?_⟩
    rw [← hplanned _ (List.mem_range.mpr (by omega))]
    have hbegin : o.begin = o.planned (List.range o.bucketCount.toNat) := by
      rw [Options.begin, if_neg (by simp [hdry]), if_pos hforce]
    rw [hbegin]
    exact .start
  · have hbegin : o.begin = o.bucketsToSeed [] 0 := by
      rw [Options.begin, if_neg (by simp [hdry]), if_neg hforce]
    have hchecks := replay_checks (o := o) words Bench.empty.store
      o.bucketCount.toNat [] 0 (by omega)
    have hmem : 0 ∈ [] ++ needed Bench.empty.store o 0 o.bucketCount.toNat := by
      simp only [needed, List.nil_append, List.mem_filter, List.mem_range'_1]
      exact ⟨by omega, by simp [sentinelMatches, Bench.empty]⟩
    rw [hplanned _ hmem, ← hbegin] at hchecks
    have run : Run (o.advance words) (fun _ a => a = .get true) (Bench.empty.store, o.begin)
        (List.replicate o.bucketCount.toNat (.get true)) (Bench.empty.store, _) :=
      run_of_replay (fun a ha _ => List.eq_of_mem_replicate ha) hchecks
    -- the same steps on the wire
    obtain ⟨_, hwire, ⟨rfl, -⟩, -⟩ := run.simulate (o.wire words) (fun _ _ => True)
      (fun x y => y = x ∧ x.1 = Bench.empty.store) (fun _ _ => (none : Option Unit))
      (fun _ _ => none) ⟨rfl, rfl⟩ (by
        rintro ⟨u, phase⟩ _ ⟨u', phase'⟩ _ rfl moved ⟨rfl, hu⟩
        obtain rfl : u = Bench.empty.store := hu
        have hsent : phase.sent words o (.get true) = none := by cases phase <;> rfl
        have hwire := (wire_empty hsent).trans moved
        exact ⟨trivial, rfl, _, hwire, rfl, (Options.moved_of_wire hwire).2.1 hsent⟩)
    exact ⟨_, _, hmem, hwire⟩

/-- Where the sentinel's URL is accepted, so are all, and the PUTs can all succeed. -/
theorem exists_writing_run (words : ℕ → UInt64)
    (accepted : (urlKey o.naming.sentinelKey).isSome = true) (s : Store)
    (within : phase.Within o) (writing : phase.Writing) :
    ∃ (acts : List SeederAct) (s' : Store) (result : Option RunError),
      Run (o.wire words) (fun x a => allLand.Follows x a ∧ ListsAll o x a) (s, phase) acts
        (s', .returned result) := by
  have hrun : ∃ acts x', Run (o.wire words) (fun x a => allLand.Follows x a ∧ ListsAll o x a)
      (s, phase) acts x' ∧ (∃ result, x'.2 = .returned result) ∧ acts.length ≤ phase.left o :=
    exists_run_of_measure (I := fun x : Store × Phase => x.2.Within o ∧ x.2.Writing)
      (fun x => x.2.left o) (by
      rintro ⟨u, phase⟩ ⟨within, writing⟩ hopen
      have hgoes : GoesOn words o allLand (u, phase) := by
        cases phase with
        | checking todo next => exact writing.elim
        | listing todo => exact writing.elim
        | seeding todo work => exact goesOn_seeding allLand todo work
        | stamping b rest tried c => exact goesOn_stamping allLand
        | returned result => exact absurd ⟨result, rfl⟩ hopen
      obtain ⟨a, follows, hsome⟩ := hgoes
      obtain ⟨⟨t, phase'⟩, moved⟩ := Option.isSome_iff_exists.mp hsome
      have hmoved : phase.Moved words u o a t phase' := Options.moved_of_advance moved
      have htake : ∀ put, phase.sent words o a = some put → ∃ s', u.take put = some s' := by
        intro put hput
        obtain ⟨k, hkey⟩ | hkey := Options.sent_key hput
        · obtain ⟨place, hplace⟩ := Naming.exists_urlKey_objectKey accepted k
          exact Store.exists_take (hkey ▸ hplace)
        · obtain ⟨place, hplace⟩ := Option.isSome_iff_exists.mp accepted
          exact Store.exists_take (hkey ▸ hplace)
      obtain ⟨u', hwire⟩ := Options.wire_of_advance writing.ne_checking moved htake
      have hless := advance_left moved within
      exact ⟨a, (u', phase'), ⟨follows, writing.lists hmoved _⟩, hwire,
        ⟨hless.1, hmoved.writing writing.ne_checking⟩, hless.2⟩) ⟨within, writing⟩
  obtain ⟨acts, ⟨s', _⟩, run, ⟨result, rfl⟩, -⟩ := hrun
  exact ⟨acts, s', result, run⟩

/-- A repair of empty buckets whose PUTs all succeed. -/
theorem exists_repairRun (words : ℕ → UInt64) (hrepair : o.flags.repair) (hdry : ¬ o.flags.dryRun)
    (accepted : (urlKey o.naming.sentinelKey).isSome = true) :
    ∃ (todo : List ℕ) (s' : Store) (result : Option RunError) (events : List SeederEvent),
      0 ∈ todo ∧ RepairRun words o todo Bench.empty.store s' result events := by
  obtain ⟨checks, todo, hmem, checked⟩ := checks_empty words hrepair hdry
  let results := emptyListings todo
  have hkeys : results.map Prod.fst = todo := by simp [results, emptyListings, Function.comp_def]
  have hnone : results.find? (fun r => r.2.isNone) = none := by
    rw [List.find?_eq_none]
    intro r hr
    obtain ⟨b, -, rfl⟩ := List.mem_map.mp hr
    simp
  have hlist : o.wire words (Bench.empty.store, .listing todo) (.list results) =
      some (Bench.empty.store, o.repair todo (resultOf o.naming results)) := by
    rw [wire_empty rfl]
    simp only [Options.advance, Phase.step, hkeys, List.Perm.refl, if_true, hnone]
  have listed : Run (o.wire words) (fun x a => allLand.Follows x a ∧ ListsAll o x a)
      (Bench.empty.store, .listing todo) [.list results]
      (Bench.empty.store, o.repair todo (resultOf o.naming results)) :=
    Run.start.next ⟨by simp [Pattern.Follows], emptyListings_lists todo⟩ hlist
  obtain ⟨writes, s', result, written⟩ := exists_writing_run words accepted Bench.empty.store
    (repair_within results) (repair_writing (resultOf o.naming results))
  exact ⟨todo, s', result, _, hmem, allLand, Bench.empty.store, checks, [.list results] ++ writes,
    allLand_lands, checked, listed.append written, rfl⟩

/-- A repair whose listings and PUTs succeed finds the absent keys and sends those objects,
and no other. Afterwards every key is there if and only if the URL says the prefix as it
is; or it refuses the sentinel, and then no repair has all its PUTs succeed. -/
theorem repair_closes_gaps_iff (words : ℕ → UInt64) {o : Options} (hrepair : o.flags.repair)
    (hdry : ¬ o.flags.dryRun) :
    (∀ (n : Naming) (c : Contents) (pages : List Page), Chained pages →
      Shows c n.keyPrefix pages → (missingKeys n pages).Pairwise (· < ·) ∧
        ∀ k : ℕ, k ∈ missingKeys n pages ↔ k < n.keyspace ∧ c (n.objectKey k) = none) ∧
    (∀ todo s s' result events, RepairRun words o todo s s' result events → result = none ∧
      ∀ j, j ∈ objectPuts events ↔ j.bucket ∈ todo ∧ j.key < o.keyspace ∧
        s (o.bucketName j.bucket) (o.naming.objectKey j.key) = none) ∧
    ((∀ todo s s' result events, RepairRun words o todo s s' result events →
      ∀ b ∈ todo, ∀ k : ℕ, k < o.keyspace →
        (s' (o.bucketName b) (o.naming.objectKey k)).isSome = true) ↔
      Verbatim o.keyPrefix ∨ urlKey o.naming.sentinelKey = none) := by
  refine ⟨fun n c pages chained shows =>
    ⟨missingKeys_sorted n pages, mem_missingKeys_iff chained shows⟩,
    fun _ _ _ _ _ h => h.sends hdry, ?_, ?_⟩
  · intro hclosed
    by_contra hneither
    push Not at hneither
    obtain ⟨hnot, haccepted⟩ := hneither
    obtain ⟨todo, s', result, events, hmem, run⟩ := exists_repairRun words hrepair hdry
      (Option.isSome_iff_ne_none.mpr haccepted)
    have hpos := o.keyspace_pos
    have hthere := hclosed todo _ s' result events run 0 hmem (o.keyspace.toNat - 1) (by omega)
    rw [run.leaves hnot hdry (by omega) rfl] at hthere
    cases hthere
  · rintro (hverbatim | hrefused) todo s s' result events run b hb
    · exact run.closes hverbatim hdry b hb
    · exact absurd hrefused (run.accepted hdry hb)

end

/-! ## One gap of two -/

/-- No listing, and no PUT but with success. -/
def SeederAct.smooth : SeederAct → Bool
  | .put _ reply => reply = .ok
  | .stamp reply => reply = .ok
  | .list _ => false
  | _ => true

theorem follows_of_smooth {o : Options} {a : SeederAct} (h : a.smooth = true) (x : Store × Phase) :
    allLand.Follows x a ∧ ListsAll o x a := by
  refine ⟨⟨?_, ?_⟩, ?_⟩
  · rintro worker reply _ _ _ _ rfl - -
    exact of_decide_eq_true h
  · rintro reply _ _ _ _ rfl -
    exact of_decide_eq_true h
  · rintro results rfl
    cases h

/-- A repair of bucket 0 from its check to its sentinel, with an executable check on what
it leaves. -/
theorem exists_repairRun_of_replay {o : Options} {s : Store}
    (listings : List (ℕ × Option (List Page)))
    (checked : o.wire (fun _ => 0) (s, o.begin) (.get true) = some (s, .listing [0]))
    (lists : ListsAll o (s, .listing [0]) (.list listings)) (P : Store → Bool)
    (h : (replay (o.wire fun _ => 0) [.list listings, .send, .receive 0, .put 0 .ok, .drained,
      .stamp .ok] (s, .listing [0])).any (fun x => hasReturned x && P x.1) = true) :
    ∃ s' result events, RepairRun (fun _ => 0) o [0] s s' result events ∧ P s' = true := by
  obtain ⟨⟨s', phase⟩, hreplay, hboth⟩ := (Option.any_eq_true _ _).mp h
  obtain ⟨hend, hP⟩ := Bool.and_eq_true_iff.mp hboth
  obtain ⟨result, hresult⟩ := returned_of_hasReturned hend
  obtain rfl : phase = .returned result := hresult
  obtain ⟨x, hlist, hwrites⟩ := Option.bind_eq_some_iff.mp hreplay
  have listed : Run (o.wire fun _ => 0) (fun x a => allLand.Follows x a ∧ ListsAll o x a)
      (s, .listing [0]) [.list listings] x :=
    Run.start.next ⟨by simp [Pattern.Follows], lists⟩ hlist
  have written := run_of_replay (C := fun x a => allLand.Follows x a ∧ ListsAll o x a)
    (fun a ha u => follows_of_smooth (List.all_eq_true.mp (by rfl :
      [SeederAct.send, .receive 0, .put 0 .ok, .drained, .stamp .ok].all SeederAct.smooth = true)
        a ha) u) hwrites
  exact ⟨s', result, _, ⟨allLand, s, [.get true], _, allLand_lands,
    Run.start.next trivial checked, listed.append written, rfl⟩, hP⟩

/-- The repair sends object 1 and not object 0, and then both are there. -/
theorem repair_closes_gaps_one : ∃ (s' : Store) (events : List SeederEvent),
    RepairRun (fun _ => 0) gapOptions [0] gapStore s' none events ∧
    (∀ j, j ∈ objectPuts events ↔ j.bucket ∈ [0] ∧ j.key < gapOptions.keyspace ∧
      gapStore (gapOptions.bucketName j.bucket) (gapOptions.naming.objectKey j.key) = none) ∧
    ∀ k : ℕ, k < 2 →
      (s' (gapOptions.bucketName 0) (gapOptions.naming.objectKey k)).isSome = true := by
  have hverbatim : Verbatim gapOptions.keyPrefix := by decide
  have checked : gapOptions.wire (fun _ => 0) (gapStore, gapOptions.begin) (.get true) =
      some (gapStore, .listing [0]) := by
    rw [Options.wire_verbatim hverbatim]
    exact gap_checked
  obtain ⟨s', result, events, run, -⟩ := exists_repairRun_of_replay _ checked gapListing_lists
    (fun _ => true) (by decide +kernel)
  obtain ⟨-, hsends, hcloses⟩ :=
    repair_closes_gaps_iff (fun _ => 0) (o := gapOptions) rfl (by decide)
  obtain ⟨rfl, hputs⟩ := hsends _ _ _ _ _ run
  exact ⟨s', events, run, hputs, fun k hk =>
    hcloses.mpr (.inl hverbatim) _ _ _ _ _ run 0 (by simp) k (show (k : ℤ) < 2 by omega)⟩

/-- The seeder is asked for objects `obj#00000000`: it PUTs them to `obj`. -/
def hashOptions : Options :=
  { tinyOptions 9 nine_pos with
    keyPrefix := ascii "obj#"
    flags := { noSwitches with repair := true } }

/-- Every PUT succeeds, and the one key of the bucket is not there. -/
theorem repair_leaves_gap : ¬ ∀ (words : ℕ → UInt64) (o : Options) (todo : List ℕ) (s s' : Store)
    (result : Option RunError) (events : List SeederEvent), o.flags.repair → ¬ o.flags.dryRun →
    RepairRun words o todo s s' result events → ∀ b ∈ todo, ∀ k : ℕ, k < o.keyspace →
      (s' (o.bucketName b) (o.naming.objectKey k)).isSome = true := by
  intro hclaim
  obtain ⟨s', result, events, run, hgap⟩ := exists_repairRun_of_replay (o := hashOptions)
    (s := Bench.empty.store) (emptyListings [0]) (by
      rw [wire_empty rfl]
      rfl) (emptyListings_lists [0])
    (fun s' => (s' (hashOptions.bucketName 0) (hashOptions.naming.objectKey 0)).isNone)
    (by decide +kernel)
  have hthere := hclaim _ hashOptions _ _ s' result events rfl (by decide) run 0 (by simp) 0
    (by decide)
  rw [Option.isNone_iff_eq_none.mp hgap] at hthere
  cases hthere

end R2Bench
