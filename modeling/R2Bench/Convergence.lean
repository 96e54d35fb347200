import R2Bench.Skips

/-!
# Every way leads to the same buckets

What an object holds depends on its bucket, its key and the object size alone. So the
buckets that a run leaves without an error are the same, whatever runs of the same
objects came before it and wherever they failed or died.
-/
namespace R2Bench
open Machines

/-! ## One buffer for a worker -/

/-- The buffer of a worker with the leading bytes for its next job. -/
def varied (buf : Bytes) (j : Job) : Bytes :=
  if 8 ≤ buf.length then bigEndian32 j.bucket ++ bigEndian32 j.key ++ buf.drop 8 else buf

theorem varied_varied (buf : Bytes) (i j : Job) : varied (varied buf i) j = varied buf j := by
  by_cases hlong : 8 ≤ buf.length
  · have hlength : (varied buf i).length = buf.length := by
      simp only [varied, if_pos hlong, bigEndian32, List.length_append, List.length_map,
        List.length_cons, List.length_nil, List.length_drop]
      omega
    have hrest : (varied buf i).drop 8 = buf.drop 8 := by
      rw [varied, if_pos hlong]
      rfl
    rw [varied, hlength, if_pos hlong, hrest, varied, if_pos hlong]
  · have hsame : varied buf i = buf := if_neg hlong
    rw [hsame]

/-- Nothing of the jobs before is left in what is sent. -/
theorem varied_reused (words : ℕ → UInt64) (size : ℕ) (jobs : List Job) (j : Job) :
    varied (jobs.foldl varied (fillDeterministic words size)) j = payload words size j := by
  have hforget : ∀ buf, varied (jobs.foldl varied buf) j = varied buf j := by
    induction jobs with
    | nil => exact fun _ => rfl
    | cons i jobs ih => exact fun buf => (ih (varied buf i)).trans (varied_varied buf i j)
  exact hforget _

/-- The runs may differ in the rest: keyspace, buckets, flags and concurrency. -/
structure SameObjects (o o' : Options) : Prop where
  bucketPrefix : o'.bucketPrefix = o.bucketPrefix
  keyPrefix : o'.keyPrefix = o.keyPrefix
  objectSize : o'.objectSize = o.objectSize

/-- Only runs of the same objects are started. -/
def OnlySame (o : Options) (a : SeederAct) : Prop := ∀ o', a = .start o' → SameObjects o o'

namespace SameObjects
variable {o o' : Options}

theorem bucketName (h : SameObjects o o') (b : ℕ) : o'.bucketName b = o.bucketName b := by
  simp [Options.bucketName, Naming.bucketName, Options.naming, h.bucketPrefix]

theorem objectKey (h : SameObjects o o') (k : ℕ) :
    o'.naming.objectKey k = o.naming.objectKey k := by
  simp [Naming.objectKey, Options.naming, h.keyPrefix]

theorem size (h : SameObjects o o') : o'.size = o.size := by rw [Options.size, h.objectSize]; rfl

end SameObjects

/-- Names tell objects apart. -/
theorem Options.object_inj {o : Options} {b b' k k' : ℕ}
    (hbucket : o.bucketName b = o.bucketName b')
    (hkey : o.naming.objectKey k = o.naming.objectKey k') : b = b' ∧ k = k' :=
  ⟨(pad_inj (by norm_num)).mp (List.append_cancel_left hbucket),
    (pad_inj (by norm_num)).mp (List.append_cancel_left hkey)⟩

/-- Every object is what a run would write, and every sentinel tells its size. -/
structure AsSeeded (words : ℕ → UInt64) (o : Options) (w : Bench) : Prop where
  sound : w.Sound
  truthful : w.store.Truthful
  same : ∀ o' phase, w.run = some (o', phase) → SameObjects o o'
  objects : ∀ b k body, w.store (o.bucketName b) (o.naming.objectKey k) = some body →
    body = payload words o.size ⟨b, k⟩
  recorded : ∃ stamps, Recorded w stamps ∧ ∀ x ∈ stamps, x.objectSize = o.objectSize

section
variable {words : ℕ → UInt64} {o : Options} {w w' : Bench} {a : SeederAct}

/-- What a sentinel promises is of the one size that there is. -/
theorem AsSeeded.promised (h : AsSeeded words o w) {name : Bytes} {m : Naming} {promised : ℤ}
    (hpromise : (w.store name).Promises m promised) : promised = o.objectSize := by
  obtain ⟨stamps, recorded, hsizes⟩ := h.recorded
  have hstored : w.store name m.sentinelKey = _ := recorded name m.keyPrefix
  rw [Contents.Promises, hstored] at hpromise
  obtain ⟨x, hlast, hbody⟩ := Option.map_eq_some_iff.mp hpromise
  have hmem : x ∈ stamps := (List.mem_filter.mp (List.mem_of_getLast? hlast)).1
  obtain ⟨-, hsize, -⟩ := Naming.shape_of_sentinelBody hbody
  rw [← hsize, hsizes x hmem]

/-- So sizes are never mixed. -/
theorem AsSeeded.oneSize (h : AsSeeded words o w) (a : SeederAct) : w.Meets OneSize a := by
  intro o' phase hrun
  have hsame := h.same o' phase hrun
  refine ⟨fun _ _ _ _ j _ _ _ _ _ m promised hpromise _ _ _ => ?_,
    fun _ _ _ _ b _ k _ body hbody => ?_⟩
  · rw [h.promised hpromise, hsame.objectSize]
  · rw [hsame.bucketName, hsame.objectKey] at hbody
    rw [h.objects b k body hbody, length_payload, o.size_eq, hsame.objectSize]

theorem landed_size (same : ∀ o' phase, w.run = some (o', phase) → SameObjects o o')
    {x : Stamp} (h : landedSentinel w a = some x) : x.objectSize = o.objectSize := by
  cases a with
  | stamp reply =>
    simp only [landedSentinel] at h
    split at h
    · case h_1 o' b rest tried c hrun =>
      split_ifs at h
      cases h
      exact (same o' _ hrun).objectSize
    · cases h
  | _ => cases h

theorem AsSeeded.step (h : AsSeeded words o w) (moved : w.step words a = some w')
    (honest : w.Meets HonestListing a) (only : OnlySame o a) : AsSeeded words o w' := by
  obtain ⟨sound, truthful⟩ := Bench.step_sound moved honest (h.oneSize a) h.sound h.truthful
  obtain ⟨stamps, recorded, hsizes⟩ := h.recorded
  have hrecorded : ∃ stamps, Recorded w' stamps ∧ ∀ x ∈ stamps, x.objectSize = o.objectSize := by
    refine ⟨_, recorded_step moved recorded, fun x hx => ?_⟩
    obtain hx | hx := List.mem_append.mp hx
    · exact hsizes x hx
    · exact landed_size h.same (Option.mem_toList.mp hx)
  refine ⟨sound, truthful, ?_, ?_, hrecorded⟩
  · intro o' phase hrun
    obtain ⟨o', rfl, -, rfl⟩ | rfl | ⟨o', phase', store, phase'', hbefore, -, rfl⟩ :=
      Bench.step_cases words moved
    · cases hrun
      exact only _ rfl
    · cases hrun
    · cases hrun
      exact h.same _ _ hbefore
  · intro b k body hbody
    obtain ⟨o', -, -, rfl⟩ | rfl | ⟨o', phase', store, phase'', hbefore, hmoved, rfl⟩ :=
      Bench.step_cases words moved
    · exact h.objects b k body hbody
    · exact h.objects b k body hbody
    have hsame := h.same _ _ hbefore
    cases hmoved with
    | @put _ _ _ _ j reply _ =>
      simp only [Store.tryPut] at hbody
      split_ifs at hbody
      · rw [Store.put_apply] at hbody
        split_ifs at hbody with hhere
        · cases hbody
          rw [hsame.bucketName, hsame.objectKey] at hhere
          obtain ⟨rfl, rfl⟩ := Options.object_inj hhere.1 hhere.2
          rw [hsame.size]
        · exact h.objects b k body hbody
      · exact h.objects b k body hbody
    | stamp _ =>
      simp only [Store.tryPut] at hbody
      split_ifs at hbody
      · have hne := o.naming.objectKey_ne_sentinelKey o'.naming k
        rw [Store.put_apply, if_neg fun hhere => hne hhere.2] at hbody
        exact h.objects b k body hbody
      · exact h.objects b k body hbody
    | _ => exact h.objects b k body hbody

/-- The buckets that one more run of these objects finds. -/
theorem AsSeeded.begin (h : AsSeeded words o w) :
    AsSeeded words o ⟨w.store, some (o, o.begin)⟩ where
  sound := by
    rintro _ _ ⟨⟩
    exact begin_sound
  truthful := h.truthful
  same := by
    rintro _ _ ⟨⟩
    exact ⟨rfl, rfl, rfl⟩
  objects := h.objects
  recorded := h.recorded

end

/-! ## After a run that died -/

end R2Bench
