import R2Bench.PercentEncoding
import R2Bench.SeederEvents
import R2Bench.Sentinels

/-!
# Where a URL sends a key

`put` and `get` write a key into a URL as it is. The URL is parsed: its path ends at a
fragment and at a query, and what is left is percent-decoded. So an object can lie
under another key than the one that it was given, and two keys under the same.

The endpoint is an origin, and the names of buckets have no character that is parsed:
R2 admits letters, digits and hyphens.
-/
namespace R2Bench
open Machines

def isControl (c : UInt8) : Bool := c < 0x20 ∨ c = 0x7F

/-- `url.Parse` of a URL that ends in the key: what the path says after the bucket. It
refuses control characters before a fragment, and broken escapes in path and fragment. -/
def urlKey (key : Bytes) : Option Bytes :=
  let url := cut '#'.toUInt8 key
  if url.1.any isControl ∨ percentDecode url.2 = none then none
  else percentDecode (cut '?'.toUInt8 url.1).1

def isVerbatim (c : UInt8) : Bool :=
  isControl c = false ∧ c ≠ '#'.toUInt8 ∧ c ≠ '?'.toUInt8 ∧ c ≠ '%'.toUInt8

/-- The URL says the text as it is. -/
def Verbatim (text : Bytes) : Prop := ∀ c ∈ text, isVerbatim c = true

instance : DecidablePred Verbatim := fun text =>
  decidable_of_iff (text.all isVerbatim = true) List.all_eq_true

/-! ## Keys -/

section
variable {text rest key : Bytes}

theorem verbatim_append : Verbatim (text ++ rest) ↔ Verbatim text ∧ Verbatim rest :=
  List.forall_mem_append

theorem verbatim_pad (width n : ℕ) : Verbatim (pad width n) := by
  intro c hc
  obtain ⟨d, hd, rfl⟩ := exists_digit_of_mem_pad hc
  have hall : ∀ d < 10, isVerbatim (UInt8.ofNat (48 + d)) = true := by decide
  exact hall d hd

theorem Verbatim.not_mem (h : Verbatim text) {c : UInt8} (hc : isVerbatim c = false) :
    c ∉ text := by
  intro hmem
  rw [h c hmem] at hc
  cases hc

theorem Verbatim.any_isControl (h : Verbatim text) : text.any isControl = false := by
  rw [List.any_eq_false]
  intro c hc hcontrol
  have hverbatim := h c hc
  simp [isVerbatim, hcontrol] at hverbatim

theorem urlKey_of_not_mem (h : '#'.toUInt8 ∉ key) : urlKey key =
    if key.any isControl then none else percentDecode (cut '?'.toUInt8 key).1 := by
  have hempty : percentDecode [] ≠ none := by simp [percentDecode]
  simp only [urlKey, cut_of_not_mem h, hempty, or_false]

theorem urlKey_verbatim (h : Verbatim key) : urlKey key = some key := by
  rw [urlKey_of_not_mem (h.not_mem (by decide)), if_neg (by simp [h.any_isControl]),
    cut_of_not_mem (h.not_mem (by decide))]
  exact percentDecode_of_not_mem (h.not_mem (by decide))

/-- Whatever is not said as it is makes the key shorter. -/
theorem length_urlKey_lt {read : Bytes} (h : urlKey key = some read) (hnot : ¬ Verbatim key) :
    read.length < key.length := by
  rw [urlKey] at h
  split_ifs at h with hrefused
  push Not at hrefused
  have hpath := length_percentDecode_le h
  have hquery := length_cut_le '?'.toUInt8 (cut '#'.toUInt8 key).1
  have hfragment := length_cut_le '#'.toUInt8 key
  by_contra hlong
  -- then nothing was cut off and nothing decoded
  have hhash : '#'.toUInt8 ∉ key := fun hmem => by
    have := length_cut_lt hmem
    omega
  simp only [cut_of_not_mem hhash] at h hrefused hpath hquery
  have hmark : '?'.toUInt8 ∉ key := fun hmem => by
    have := length_cut_lt hmem
    omega
  simp only [cut_of_not_mem hmark] at h hpath
  have hpercent := not_mem_of_length_percentDecode h (by omega)
  refine hnot fun c hc => ?_
  have hcontrol : isControl c = false := by
    by_contra hbad
    exact hrefused.1 (List.any_eq_true.mpr ⟨c, hc, by simpa using hbad⟩)
  have hne : ∀ d ∉ key, c ≠ d := fun d hd he => hd (he ▸ hc)
  simp [isVerbatim, hcontrol, hne _ hhash, hne _ hmark, hne _ hpercent]

/-- What follows a fragment or a query is not in the path. -/
theorem urlKey_append_cut (h : '#'.toUInt8 ∈ text ∨ '?'.toUInt8 ∈ text) (hrest : Verbatim rest)
    {read : Bytes} (hread : urlKey (text ++ rest) = some read) : read.length ≤ text.length := by
  by_cases hhash : '#'.toUInt8 ∈ text
  · rw [urlKey, cut_append hhash] at hread
    split_ifs at hread
    exact (length_percentDecode_le hread).trans
      ((length_cut_le _ _).trans (length_cut_le _ _))
  · have hwhole : '#'.toUInt8 ∉ text ++ rest := fun hmem =>
      (List.mem_append.mp hmem).elim hhash (hrest.not_mem (by decide))
    rw [urlKey_of_not_mem hwhole, cut_append (h.resolve_left hhash)] at hread
    split_ifs at hread
    exact (length_percentDecode_le hread).trans (length_cut_le _ _)

theorem urlKey_append_path (hhash : '#'.toUInt8 ∉ text) (hmark : '?'.toUInt8 ∉ text)
    (hrest : Verbatim rest) : urlKey (text ++ rest) =
      if text.any isControl then none else percentDecode (text ++ rest) := by
  have hnone : ∀ d ∉ text, isVerbatim d = false → d ∉ text ++ rest := fun d hd hplain hmem =>
    (List.mem_append.mp hmem).elim hd (hrest.not_mem hplain)
  rw [urlKey_of_not_mem (hnone _ hhash (by decide)), cut_of_not_mem (hnone _ hmark (by decide)),
    List.any_append, hrest.any_isControl, Bool.or_false]

/-- A URL that is accepted with one ending is accepted with any, if the first does not
begin with a digit that an escape could take. -/
theorem exists_urlKey (c : UInt8) (ending : Bytes) (hc : hexValue c = none)
    (hending : Verbatim (c :: ending)) (hrest : Verbatim rest)
    (h : (urlKey (text ++ c :: ending)).isSome = true) :
    ∃ read, urlKey (text ++ rest) = some read := by
  have hdecoded : percentDecode rest = some rest :=
    percentDecode_of_not_mem (hrest.not_mem (by decide))
  by_cases hhash : '#'.toUInt8 ∈ text
  · rw [urlKey, cut_append hhash] at h
    split_ifs at h with hrefused
    · cases h
    push Not at hrefused
    obtain ⟨fragment, hfragment⟩ :=
      exists_percentDecode hc (Option.isSome_iff_ne_none.mpr hrefused.2)
    have haccepted : percentDecode ((cut '#'.toUInt8 text).2 ++ rest) ≠ none := by
      simp [percentDecode_append hfragment, hdecoded]
    refine Option.isSome_iff_exists.mp ?_
    rwa [urlKey, cut_append hhash, if_neg (by simpa using ⟨by simpa using hrefused.1, haccepted⟩)]
  have hwhole : ∀ ending, Verbatim ending → '#'.toUInt8 ∉ text ++ ending :=
    fun ending hplain hmem =>
      (List.mem_append.mp hmem).elim hhash (hplain.not_mem (by decide))
  by_cases hmark : '?'.toUInt8 ∈ text
  · rw [urlKey_of_not_mem (hwhole _ hending), cut_append hmark, List.any_append,
      hending.any_isControl, Bool.or_false] at h
    refine Option.isSome_iff_exists.mp ?_
    rwa [urlKey_of_not_mem (hwhole _ hrest), cut_append hmark, List.any_append,
      hrest.any_isControl, Bool.or_false]
  · rw [urlKey_append_path hhash hmark hending] at h
    rw [urlKey_append_path hhash hmark hrest]
    split_ifs at h ⊢ with hcontrol
    · cases h
    · obtain ⟨read, hread⟩ := exists_percentDecode hc h
      exact ⟨read ++ rest, by rw [percentDecode_append hread, hdecoded]; rfl⟩

end

namespace Naming
variable {n : Naming}

theorem verbatim_objectKey (h : Verbatim n.keyPrefix) (k : ℕ) : Verbatim (n.objectKey k) :=
  verbatim_append.mpr ⟨h, verbatim_pad 8 k⟩

theorem verbatim_sentinelKey (h : Verbatim n.keyPrefix) : Verbatim n.sentinelKey :=
  verbatim_append.mpr ⟨h, by decide⟩

/-- Otherwise no object lies under its own key or that of a later one. -/
theorem urlKey_objectKey_ne (h : ¬ Verbatim n.keyPrefix) {k later : ℕ} (hle : k ≤ later) :
    urlKey (n.objectKey k) ≠ some (n.objectKey later) := by
  intro hread
  have hshort := length_urlKey_lt hread fun hkey => h (verbatim_append.mp hkey).1
  have hpad := length_pad_mono 8 hle
  simp only [objectKey, List.length_append] at hshort
  omega

/-- And no sentinel lies under the key of an object. -/
theorem urlKey_sentinelKey_ne (n : Naming) (k : ℕ) :
    urlKey n.sentinelKey ≠ some (n.objectKey k) := by
  intro hread
  have hending : Verbatim (ascii "_seed_complete") := by decide
  by_cases hcut : '#'.toUInt8 ∈ n.keyPrefix ∨ '?'.toUInt8 ∈ n.keyPrefix
  · have hshort := urlKey_append_cut hcut hending hread
    have hpad : 0 < (pad 8 k).length := List.length_pos_of_ne_nil (pad_ne_nil (by norm_num))
    simp only [objectKey, List.length_append] at hshort
    omega
  · push Not at hcut
    rw [sentinelKey, urlKey_append_path hcut.1 hcut.2 hending] at hread
    split_ifs at hread
    obtain ⟨read, hprefix⟩ := exists_percentDecode (c := '_'.toUInt8) (by decide)
      (Option.isSome_of_mem hread)
    -- the ending stays, and no object's key has it
    rw [percentDecode_append hprefix, percentDecode_of_not_mem (hending.not_mem (by decide))]
      at hread
    exact objectKey_ne_sentinelKey n ⟨[], 0, read, 0⟩ k (Option.some.inj hread).symm

theorem exists_urlKey_objectKey (h : (urlKey n.sentinelKey).isSome = true) (k : ℕ) :
    ∃ key, urlKey (n.objectKey k) = some key :=
  exists_urlKey '_'.toUInt8 (ascii "seed_complete") (by decide) (by decide)
    (verbatim_pad 8 k) h

end Naming

/-! ## Requests -/

/-- A PUT that has been answered. -/
structure Sent where
  reply : PutReply
  bucket : Bytes
  key : Bytes
  body : Bytes

namespace Store
variable (s : Store)

/-- What a GET of each key would bring: without a key it is the bucket that is asked for. -/
def seen : Store := fun bucket key =>
  (urlKey key).bind fun place => if place = [] then none else s bucket place

/-- A PUT takes effect where its URL sends it. A URL that is refused sends none. -/
def take (put : Sent) : Option Store :=
  match urlKey put.key with
  | none => if put.reply = .failed false then some s else none
  | some place =>
    if place = [] then some s else some (s.tryPut put.reply put.bucket place put.body)

variable {s} {put : Sent}

theorem seen_verbatim {bucket key : Bytes} (h : Verbatim key) (hne : key ≠ []) :
    s.seen bucket key = s bucket key := by
  rw [seen, urlKey_verbatim h, Option.bind_some, if_neg hne]

theorem take_verbatim (h : Verbatim put.key) (hne : put.key ≠ []) :
    s.take put = some (s.tryPut put.reply put.bucket put.key put.body) := by
  rw [take, urlKey_verbatim h]
  exact if_neg hne

/-- An accepted URL lets every reply happen. -/
theorem exists_take {place : Bytes} (h : urlKey put.key = some place) :
    ∃ s', s.take put = some s' := by
  simp only [take, h]
  split_ifs
  · exact ⟨s, rfl⟩
  · exact ⟨_, rfl⟩

/-- Nothing else is stored. -/
theorem of_take {s' : Store} (h : s.take put = some s') {name key : Bytes}
    (hsome : (s' name key).isSome = true) :
    (s name key).isSome = true ∨ urlKey put.key = some key := by
  simp only [take] at h
  split at h
  · split_ifs at h
    cases h
    exact .inl hsome
  · case h_2 place hplace =>
    split_ifs at h
    · cases h
      exact .inl hsome
    · cases h
      rw [tryPut] at hsome
      split_ifs at hsome
      · rw [put_apply] at hsome
        split_ifs at hsome with hhere
        · exact .inr (by rw [hplace, hhere.2])
        · exact .inl hsome
      · exact .inl hsome

end Store

/-- The PUT that a step of the run has the answer to. -/
def Phase.sent (words : ℕ → UInt64) (o : Options) : Phase → SeederAct → Option Sent
  | .seeding _ work, .put worker reply => (work.workers worker).map fun held =>
    ⟨reply, o.bucketName held.1.bucket, o.naming.objectKey held.1.key, payload words o.size held.1⟩
  | .stamping b _ _ _, .stamp reply =>
    some ⟨reply, o.bucketName b, o.naming.sentinelKey, o.naming.sentinelBody o.objectSize⟩
  | _, _ => none

namespace Options
variable (words : ℕ → UInt64) (o : Options)

/-- One step of the run, with its requests where their URLs send them. -/
def wire (x : Store × Phase) (a : SeederAct) : Option (Store × Phase) :=
  (x.2.step words x.1.seen o a).bind fun next =>
    match x.2.sent words o a with
    | none => some (x.1, next.2)
    | some put => (x.1.take put).map fun s => (s, next.2)

variable {words o} {x x' : Store × Phase} {s s' t : Store} {phase phase' : Phase} {a : SeederAct}

/-- What the program does does not depend on where its requests go, but for the checks. -/
theorem moved_of_wire (h : o.wire words x a = some x') :
    (∃ t, x.2.Moved words x.1.seen o a t x'.2) ∧ (x.2.sent words o a = none → x'.1 = x.1) ∧
      ∀ put, x.2.sent words o a = some put → x.1.take put = some x'.1 := by
  obtain ⟨next, hstep, hnext⟩ := Option.bind_eq_some_iff.mp h
  have hmoved := Phase.moved words hstep
  split at hnext
  · case h_1 hnone =>
    cases hnext
    exact ⟨⟨_, hmoved⟩, fun _ => rfl, fun put hput => by simp [hnone] at hput⟩
  · case h_2 put hput =>
    obtain ⟨s, htake, rfl⟩ := Option.map_eq_some_iff.mp hnext
    refine ⟨⟨_, hmoved⟩, fun hnone => by simp [hput] at hnone, fun put' hput' => ?_⟩
    obtain rfl := Option.some.inj (hput.symm.trans hput')
    exact htake

/-- Only the checks look into the buckets. -/
theorem step_of_not_checking (words : ℕ → UInt64) (o : Options) (a : SeederAct)
    (h : ∀ todo next, phase ≠ .checking todo next) (s t : Store) :
    (phase.step words s o a).map Prod.snd = (phase.step words t o a).map Prod.snd := by
  cases phase with
  | checking todo next => exact absurd rfl (h todo next)
  | listing todo =>
    cases a with
    | list results =>
      simp only [Phase.step]
      split_ifs
      · split <;> rfl
      · rfl
    | _ => rfl
  | seeding todo work =>
    cases a with
    | send | receive worker =>
      simp only [Phase.step]
      split
      · rfl
      · split_ifs <;> rfl
    | put worker reply =>
      simp only [Phase.step]
      split <;> rfl
    | drained =>
      simp only [Phase.step]
      split_ifs <;> rfl
    | _ => rfl
  | stamping b rest tried c =>
    cases a with
    | stamp reply =>
      cases reply with
      | ok => rfl
      | failed landed =>
        simp only [Phase.step]
        split_ifs <;> rfl
    | _ => rfl
  | returned result => rfl

theorem advance_of_wire (hphase : ∀ todo next, phase ≠ .checking todo next)
    (h : o.wire words (s, phase) a = some (s', phase')) (t : Store) :
    ∃ t', o.advance words (t, phase) a = some (t', phase') := by
  obtain ⟨next, hstep, hnext⟩ := Option.bind_eq_some_iff.mp h
  have hsnd : next.2 = phase' := by
    split at hnext
    · cases hnext
      rfl
    · obtain ⟨_, -, hpair⟩ := Option.map_eq_some_iff.mp hnext
      exact congrArg Prod.snd hpair
  have hsame := step_of_not_checking words o a hphase s.seen t
  rw [hstep, Option.map_some, hsnd, eq_comm, Option.map_eq_some_iff] at hsame
  obtain ⟨⟨t', _⟩, hother, rfl⟩ := hsame
  exact ⟨t', hother⟩

theorem wire_of_advance (hphase : ∀ todo next, phase ≠ .checking todo next) {t' : Store}
    (h : o.advance words (t, phase) a = some (t', phase'))
    (accepted : ∀ put, phase.sent words o a = some put → ∃ s', s.take put = some s') :
    ∃ s', o.wire words (s, phase) a = some (s', phase') := by
  have hstep : phase.step words t o a = some (t', phase') := h
  have hsame := step_of_not_checking words o a hphase s.seen t
  rw [hstep, Option.map_some, Option.map_eq_some_iff] at hsame
  obtain ⟨⟨u, _⟩, hseen, rfl⟩ := hsame
  simp only [wire, hseen, Option.bind_some]
  cases hsent : phase.sent words o a with
  | none => exact ⟨s, rfl⟩
  | some put =>
    obtain ⟨s', hs'⟩ := accepted put hsent
    exact ⟨s', by simp [hs']⟩

/-- Every PUT is of an object or of the sentinel. -/
theorem sent_key {put : Sent} (h : phase.sent words o a = some put) :
    (∃ k, put.key = o.naming.objectKey k) ∨ put.key = o.naming.sentinelKey := by
  cases phase <;> cases a <;> simp only [Phase.sent, reduceCtorEq] at h
  · obtain ⟨held, -, rfl⟩ := Option.map_eq_some_iff.mp h
    exact .inl ⟨held.1.key, rfl⟩
  · cases h
    exact .inr rfl

/-- What a step leaves in the buckets that take each PUT under its own key. -/
theorem stored_of_advance (h : o.advance words (s, phase) a = some (s', phase')) :
    s' = (phase.sent words o a).elim s
      fun put => s.tryPut put.reply put.bucket put.key put.body := by
  have hmoved : phase.Moved words s o a s' phase' := moved_of_advance h
  cases hmoved with
  | put holds => simp [Phase.sent, holds]
  | _ => rfl

/-- A prefix that the URL says as it is: every request goes where its key says. -/
theorem wire_verbatim (h : Verbatim o.keyPrefix) : o.wire words = o.advance words := by
  have hsentinel : Verbatim o.naming.sentinelKey := Naming.verbatim_sentinelKey h
  have hkeys : ∀ put : Sent, (∃ k, put.key = o.naming.objectKey k) ∨
      put.key = o.naming.sentinelKey → Verbatim put.key ∧ put.key ≠ [] := by
    rintro put (⟨k, hkey⟩ | hkey)
    · rw [hkey]
      exact ⟨Naming.verbatim_objectKey h k,
        fun hnil => pad_ne_nil (by norm_num) (List.append_eq_nil_iff.mp hnil).2⟩
    · rw [hkey]
      exact ⟨hsentinel, fun hnil => absurd (List.append_eq_nil_iff.mp hnil).2 (by decide)⟩
  funext ⟨s, phase⟩ a
  have hseen : (phase.step words s.seen o a).map Prod.snd =
      (phase.step words s o a).map Prod.snd := by
    by_cases hphase : ∃ todo next, phase = .checking todo next
    · obtain ⟨todo, next, rfl⟩ := hphase
      have hmatch : sentinelMatches s.seen o next = sentinelMatches s o next := by
        simp only [sentinelMatches,
          Store.seen_verbatim hsentinel (hkeys ⟨.ok, [], _, []⟩ (.inr rfl)).2]
      cases a with
      | get ok =>
        simp only [Phase.step, hmatch]
        split_ifs <;> rfl
      | _ => rfl
    · push Not at hphase
      exact step_of_not_checking words o a hphase s.seen s
  cases hstep : phase.step words s o a with
  | none =>
    rw [hstep, Option.map_none, Option.map_eq_none_iff] at hseen
    simp only [wire, hseen, advance, hstep, Option.bind_none]
  | some next =>
    rw [hstep, Option.map_some, Option.map_eq_some_iff] at hseen
    obtain ⟨next', hother, hsnd⟩ := hseen
    have hadvance : o.advance words (s, phase) a = some next := hstep
    have hstored := stored_of_advance hadvance
    simp only [wire, hother, advance, hstep, Option.bind_some]
    cases hsent : phase.sent words o a with
    | none =>
      rw [hsent] at hstored
      exact congrArg some (Prod.ext hstored.symm hsnd)
    | some put =>
      rw [hsent] at hstored
      obtain ⟨hverbatim, hne⟩ := hkeys put (sent_key hsent)
      simp only [Store.take_verbatim hverbatim hne, Option.map_some]
      exact congrArg some (Prod.ext hstored.symm hsnd)

end Options

/-! ## Runs one after another -/

/-- `Bench.step` with the requests where their URLs send them. -/
def Bench.wire (words : ℕ → UInt64) (w : Bench) (a : SeederAct) : Option Bench :=
  match w.run, a with
  | none, .start o => some { w with run := some (o, o.begin) }
  | none, _ => none
  | some _, .crash => some { w with run := none }
  | some (_, .returned _), .exit => some { w with run := none }
  | some (o, phase), a =>
    (o.wire words (w.store, phase) a).map fun next => ⟨next.1, some (o, next.2)⟩

/-- Only runs with a prefix that the URL says as it is are started. -/
def StartsVerbatim (a : SeederAct) : Prop := ∀ o, a = .start o → Verbatim o.keyPrefix

/-- The run in progress has such a prefix. -/
def Bench.RunsVerbatim (w : Bench) : Prop :=
  ∀ o phase, w.run = some (o, phase) → Verbatim o.keyPrefix

namespace Bench
variable {words : ℕ → UInt64} {w w' : Bench} {a : SeederAct}

theorem wire_verbatim (h : w.RunsVerbatim) (a : SeederAct) : w.wire words a = w.step words a := by
  obtain ⟨store, run⟩ := w
  cases run with
  | none => cases a <;> rfl
  | some current =>
    obtain ⟨o, phase⟩ := current
    have hsame : o.wire words (store, phase) a = phase.step words store o a :=
      congrFun (congrFun (Options.wire_verbatim (h o phase rfl)) (store, phase)) a
    cases a <;> cases phase <;> first | rfl | simp only [wire, step, hsame]

theorem verbatim_step (h : w.RunsVerbatim) (starts : StartsVerbatim a)
    (moved : w.step words a = some w') : w'.RunsVerbatim := by
  intro o phase hrun
  obtain ⟨o', rfl, -, rfl⟩ | rfl | ⟨o', before, store, after, hbefore, -, rfl⟩ :=
    step_cases words moved
  · cases hrun
    exact starts _ rfl
  · cases hrun
  · cases hrun
    exact h _ _ hbefore

/-- A history of such runs is one of buckets that take each PUT under its own key. -/
theorem run_of_wire {β : Type} {C : Bench → SeederAct → Prop} {acts : List SeederAct}
    (history : Run (wire words) (fun v a => C v a ∧ StartsVerbatim a) empty acts w)
    (observe : Bench → SeederAct → Option β) : Run (step words) C empty acts w ∧
      log (wire words) observe acts empty = log (step words) observe acts empty := by
  obtain ⟨run, hlog⟩ := history.congr (I := RunsVerbatim) (step words) nofun
    (fun _ _ _ allowed moved h => verbatim_step h allowed.2 moved)
    (fun _ _ h => wire_verbatim h _) observe
  exact ⟨run.mono fun _ _ allowed => allowed.1, hlog⟩

/-- And the other way round. -/
theorem wire_of_run {β : Type} {C : Bench → SeederAct → Prop} {acts : List SeederAct}
    (history : Run (step words) (fun v a => C v a ∧ StartsVerbatim a) empty acts w)
    (observe : Bench → SeederAct → Option β) :
    Run (wire words) (fun v a => C v a ∧ StartsVerbatim a) empty acts w ∧
      log (step words) observe acts empty = log (wire words) observe acts empty :=
  history.congr (I := RunsVerbatim) (wire words) nofun
    (fun _ _ _ allowed moved h => verbatim_step h allowed.2 ((wire_verbatim h _).symm.trans moved))
    (fun _ _ h => (wire_verbatim h _).symm) observe

end Bench

end R2Bench
