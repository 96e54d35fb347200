import R2Bench.FanOut
import R2Bench.Listings
import R2Bench.Skips

/-!
# The listings of a repair

A goroutine for each bucket follows the pages of its listing while it holds one of at
most 16 permits, and sends what is missing into a channel. Once all have returned the
results are read in the order in which they were sent. The whole of it is one step of
the seeder, with listings that show what the buckets hold.
-/
namespace R2Bench
open Machines FanOut

/-- What is planned so far, and how many objects that is. -/
abbrev GapPlan := (ℕ → List ℕ) × ℕ

/-- The loop over the results: the first error ends it. -/
def readResults : List (ℕ × Option (List ℕ)) → GapPlan → Except RunError GapPlan
  | [], planned => .ok planned
  | (b, none) :: _, _ => .error (.listing b)
  | (b, some missing) :: results, (plan, total) =>
    if 0 < missing.length then
      readResults results (Function.update plan b missing, total + missing.length)
    else readResults results (plan, total)

namespace Options
variable (o : Options)

def listingWork (s : Store) : Work ℕ ListRun ListAct (Option (List ℕ)) where
  begin b := .start (s (o.bucketName b))
  step _ := ListRun.step o.naming
  outcome _ v := v.result

/-- R2 answers each request that is sent, and nobody else writes to the buckets. -/
def Listed (t : Continuation) (_ : ℕ) (v : ListRun) (a : ListAct) : Prop :=
  ListRun.Lawful t o.naming v a ∧ ∀ c, a ≠ .write c

/-- What `run` does after `lwg.Wait()`. -/
def afterListings (todo : List ℕ) (results : List (ℕ × Option (List ℕ))) : Phase :=
  match readResults results (fun _ => [], 0) with
  | .error e => .returned (some e)
  | .ok (plan, total) =>
    if total = 0 then if o.flags.dryRun then .returned none else writeSentinels .zero todo
    else if o.flags.dryRun then .returned none
    else .seed todo (todo.flatMap fun b => (plan b).map fun k => Job.mk b k)

end Options

/-- What a goroutine sends when its listing came to these pages. -/
def found (n : Naming) (listing : ℕ × Option (List Page)) : ℕ × Option (List ℕ) :=
  (listing.1, listing.2.map (missingKeys n))

/-! ## Reading the results -/

section
variable {n : Naming} {listings : List (ℕ × Option (List Page))} {planned : GapPlan}

/-- A failed listing is an error, and the first in the order of the results is the one. -/
theorem readResults_failed {r : ℕ × Option (List Page)}
    (h : listings.find? (fun r => r.2.isNone) = some r) :
    readResults (listings.map (found n)) planned = .error (.listing r.1) := by
  induction listings generalizing planned with
  | nil => cases h
  | cons listing listings ih =>
    obtain ⟨b, pages⟩ := listing
    cases pages with
    | none =>
      obtain rfl : (b, none) = r := by simpa using h
      rfl
    | some pages =>
      have hrest : listings.find? (fun r => r.2.isNone) = some r := by simpa using h
      simp only [List.map_cons, found, Option.map_some, readResults]
      split_ifs
      · exact ih hrest
      · exact ih hrest

/-- Without a failure the plan has what each listing leaves. -/
theorem readResults_listed (planned : GapPlan) (hall : ∀ r ∈ listings, r.2 ≠ none)
    (hnodup : (listings.map Prod.fst).Nodup)
    (hfresh : ∀ b ∈ listings.map Prod.fst, planned.1 b = []) :
    ∃ plan, readResults (listings.map (found n)) planned = .ok plan ∧
      (∀ b ∈ listings.map Prod.fst, plan.1 b = resultOf n listings b) ∧
      (∀ b, b ∉ listings.map Prod.fst → plan.1 b = planned.1 b) ∧
      plan.2 = planned.2 + (listings.map fun r => (resultOf n listings r.1).length).sum := by
  induction listings generalizing planned with
  | nil => exact ⟨planned, rfl, by simp, by simp, by simp⟩
  | cons listing listings ih =>
    obtain ⟨b, _ | pages⟩ := listing
    · exact absurd rfl (hall _ (List.mem_cons_self ..))
    obtain ⟨plan, total⟩ := planned
    obtain ⟨hb, hnodup⟩ := List.nodup_cons.mp hnodup
    have hall' : ∀ r ∈ listings, r.2 ≠ none := fun r hr => hall r (List.mem_cons_of_mem _ hr)
    -- the first listing puts its own in the plan, be it nothing
    have hfirst : readResults (((b, some pages) :: listings).map (found n)) (plan, total) =
        readResults (listings.map (found n))
          (Function.update plan b (missingKeys n pages), total + (missingKeys n pages).length) := by
      simp only [List.map_cons, found, Option.map_some, readResults]
      split_ifs with hsome
      · rfl
      · have hnone : missingKeys n pages = [] := by simpa using hsome
        have hsame : Function.update plan b [] = plan := by
          rw [← hfresh b (by simp)]
          exact Function.update_eq_self b plan
        rw [hnone, hsame]
        rfl
    have hself : resultOf n ((b, some pages) :: listings) b = missingKeys n pages := by
      simp [resultOf]
    have hother : ∀ b' ∈ listings.map Prod.fst,
        resultOf n ((b, some pages) :: listings) b' = resultOf n listings b' := by
      intro b' hb'
      have hne : b' ≠ b := fun heq => hb (heq ▸ hb')
      rw [resultOf, List.lookup_cons, beq_false_of_ne hne, resultOf]
    obtain ⟨plan', hread, hin, hout, htotal⟩ := ih
      (Function.update plan b (missingKeys n pages), total + (missingKeys n pages).length)
      hall' hnodup fun b' hb' => by
        have hne : b' ≠ b := fun heq => hb (heq ▸ hb')
        exact (Function.update_of_ne hne _ _).trans (hfresh b' (List.mem_cons_of_mem _ hb'))
    refine ⟨plan', hfirst.trans hread, fun b' hb' => ?_, fun b' hb' => ?_, ?_⟩
    · obtain rfl | hb' := List.mem_cons.mp hb'
      · exact (hout _ hb).trans ((Function.update_self ..).trans hself.symm)
      · rw [hin b' hb', hother b' hb']
    · obtain ⟨hne, hb'⟩ := not_or.mp (List.mem_cons.not.mp hb')
      exact (hout b' hb').trans (Function.update_of_ne hne _ _)
    · have hsums : (listings.map fun r =>
          (resultOf n ((b, some pages) :: listings) r.1).length).sum =
          (listings.map fun r => (resultOf n listings r.1).length).sum := by
        congr 1
        exact List.map_congr_left fun r hr => by rw [hother _ (List.mem_map_of_mem hr)]
      rw [htotal, List.map_cons, List.sum_cons, hself, hsums]
      omega

variable {o : Options} {todo : List ℕ}

/-- The objects that a plan counts are those of its jobs. -/
theorem length_jobs (answered : (listings.map Prod.fst).Perm todo) (missing : ℕ → List ℕ) :
    (todo.flatMap fun b => (missing b).map fun k => Job.mk b k).length =
      (listings.map fun r => (missing r.1).length).sum := by
  have hkeys : (listings.map fun r => (missing r.1).length) =
      (listings.map Prod.fst).map fun b => (missing b).length := by simp [Function.comp_def]
  rw [hkeys, (answered.map _).sum_eq]
  simp [List.length_flatMap]

/-- What `run` makes of the results is what the step of the listings says. -/
theorem list_step (answered : (listings.map Prod.fst).Perm todo) (hnodup : todo.Nodup)
    (words : ℕ → UInt64) (s : Store) :
    (Phase.listing todo).step words s o (.list listings) =
      some (s, o.afterListings todo (listings.map (found o.naming))) := by
  rw [Phase.step, if_pos answered, Options.afterListings]
  cases hfind : listings.find? (fun r => r.2.isNone) with
  | some r => rw [readResults_failed hfind]
  | none =>
    have hall : ∀ r ∈ listings, r.2 ≠ none := fun r hr => by
      simpa using List.find?_eq_none.mp hfind r hr
    obtain ⟨⟨plan, total⟩, hread, hplan, -, htotal⟩ :=
      readResults_listed (n := o.naming) (fun _ => [], 0) hall
        (answered.nodup_iff.mpr hnodup) (by simp)
    have hjobs : (todo.flatMap fun b => (plan b).map fun k => Job.mk b k) =
        todo.flatMap fun b => (resultOf o.naming listings b).map fun k => Job.mk b k :=
      List.flatMap_congr fun b hb => by
        have hplan : plan b = resultOf o.naming listings b := hplan b (answered.mem_iff.mpr hb)
        rw [hplan]
    have hcount : total = 0 ↔
        (todo.flatMap fun b => (resultOf o.naming listings b).map fun k => Job.mk b k) = [] := by
      rw [← List.length_eq_zero_iff, length_jobs answered]
      have htotal : total = 0 + _ := htotal
      rw [htotal, zero_add]
    rw [hread]
    simp only [Options.repair, hjobs, hcount]
    split_ifs <;> rfl

end

/-! ## One bucket -/

section
variable {o : Options} {s : Store} {t : Continuation} {b : ℕ} {u u' : ListRun} {a : ListAct}

theorem Options.Listed.contents (listed : o.Listed t b u a)
    (moved : ListRun.step o.naming u a = some u') : u'.contents = u.contents := by
  cases a with
  | write c => exact absurd rfl (listed.2 c)
  | page page =>
    simp only [ListRun.step] at moved
    split_ifs at moved <;> cases moved <;> rfl
  | fail =>
    simp only [ListRun.step] at moved
    split_ifs at moved
    cases moved
    rfl

/-- The bucket is what it was, at every step of its listing. -/
theorem same_contents {acts : List ListAct}
    (run : Run (ListRun.step o.naming) (o.Listed t b) (.start (s (o.bucketName b))) acts u) :
    u.contents = s (o.bucketName b) ∧
      ∀ c ∈ ListRun.visited o.naming acts (.start (s (o.bucketName b))),
        c = s (o.bucketName b) := by
  refine run.invariant_log _ (I := fun u noted => u.contents = s (o.bucketName b) ∧
    ∀ c ∈ noted, c = s (o.bucketName b)) ⟨rfl, by simp⟩ ?_
  intro u noted a u' listed moved hu
  refine ⟨(listed.contents moved).trans hu.1, fun c hc => ?_⟩
  obtain hc | hc := List.mem_append.mp hc
  · exact hu.2 c hc
  · obtain rfl : c = u.contents := by simpa using hc
    exact hu.1

/-- What is sent for a bucket comes from pages that show it. -/
theorem found_of_works {r : Option (List ℕ)}
    (works : Fan.Works (o.listingWork s) (o.Listed t) b u) (ended : u.result = some r) :
    ∃ listing, found o.naming (b, listing) = (b, r) ∧ ∀ pages, listing = some pages →
      Chained pages ∧ Shows (s (o.bucketName b)) o.keyPrefix pages := by
  obtain ⟨acts, run⟩ := works
  have lawful := run.mono fun _ _ h => h.1
  cases r with
  | none => exact ⟨none, rfl, by simp⟩
  | some missing =>
    have hgathered := ListRun.gathered lawful
    have hshows := ListRun.shows_of_run lawful ended (same_contents run).2
    refine ⟨some (ListRun.pages o.naming acts (.start (s (o.bucketName b)))), ?_, ?_⟩
    · rw [hgathered.result missing ended]
      rfl
    · rintro pages ⟨⟩
      exact ⟨hgathered.chained, hshows⟩

/-- The steps that a listing has left. -/
def left (t : Continuation) (n : Naming) (U : ℕ → Finset Bytes) (b : ℕ) (u : ListRun) : ℕ :=
  if u.result.isSome then 0 else (ListRun.view t n u).room place (U b)

theorem left_start (t : Continuation) (n : Naming) (U : ℕ → Finset Bytes) (c : Contents) :
    left t n U b (.start c) = (U b).card + 1 := by
  rw [left, ListRun.view_start]
  simp [ListRun.start, Paging.Scan.room, Paging.Scan.start, Paging.Scan.later]

theorem left_le (t : Continuation) (n : Naming) (U : ℕ → Finset Bytes) (b : ℕ) (u : ListRun) :
    left t n U b u ≤ (ListRun.view t n u).room place (U b) := by
  rw [left]
  split_ifs <;> omega

theorem left_going (hnone : u.result = none) (U : ℕ → Finset Bytes) :
    left t o.naming U b u = (ListRun.view t o.naming u).room place (U b) ∧
      0 < left t o.naming U b u := by
  simp [left, hnone, ListRun.view, Paging.Scan.room]

/-- Each page moves on in the keys of the bucket. -/
theorem ends_listing {U : ℕ → Finset Bytes} (finite : ∀ b key, o.keyPrefix <+: key →
    (s (o.bucketName b) key).isSome = true → key ∈ U b) :
    Fan.Ends (o.listingWork s) (o.Listed t) (left t o.naming U) where
  falls b u a u' works listed moved := by
    have moved : ListRun.step o.naming u a = some u' := moved
    cases a with
    | write c => exact absurd rfl (listed.2 c)
    | fail =>
      simp only [ListRun.step] at moved
      split_ifs at moved with hdone
      cases moved
      have hgoing := left_going (o := o) (t := t) (b := b) (u := u) (by simpa using hdone) U
      simpa [left] using hgoing.2
    | page page =>
      have hnone : u.result = none := by
        simp only [ListRun.step] at moved
        split_ifs at moved with hdone <;> simpa using hdone
      obtain ⟨acts, run⟩ := works
      have hcontents := (same_contents run).1
      obtain ⟨hshows, hstep⟩ := ListRun.view_moves listed.1 moved _ rfl
      have hroom := Paging.Scan.room_answer (U := U b) hshows (fun key hkey => by
        have hkey : o.keyPrefix <+: key ∧ (u.contents key).isSome = true := hkey
        exact finite b key hkey.1 (hcontents ▸ hkey.2)) hstep
      have hle := left_le t o.naming U b u'
      rw [(left_going hnone U).1]
      omega
  goes b u works ended := by
    have ended : u.result = none := ended
    refine ⟨.fail, { u with result := some none }, ⟨trivial, by simp⟩, ?_⟩
    simp [Options.listingWork, ListRun.step, ended]

end

/-! ## All of them -/

section
variable {words : ℕ → UInt64} {o : Options} {s s₁ : Store} {todo : List ℕ}
  {checks : List SeederAct} {t : Continuation} {U : ℕ → Finset Bytes} {acts : List (Act ListAct)}
  {v : Fan ℕ ListRun (Option (List ℕ))}

/-- Behind what is sent there are listings. -/
theorem exists_listings {results : List (ℕ × Option (List ℕ))}
    (h : ∀ b r, (b, r) ∈ results → ∃ listing, found o.naming (b, listing) = (b, r) ∧
      ∀ pages, listing = some pages →
        Chained pages ∧ Shows (s (o.bucketName b)) o.keyPrefix pages) :
    ∃ listings : List (ℕ × Option (List Page)),
      results = listings.map (found o.naming) ∧ ∀ b pages, (b, some pages) ∈ listings →
      Chained pages ∧ Shows (s (o.bucketName b)) o.keyPrefix pages := by
  induction results with
  | nil => exact ⟨[], rfl, by simp⟩
  | cons result results ih =>
    obtain ⟨b, r⟩ := result
    obtain ⟨listing, hfound, hshows⟩ := h b r (by simp)
    obtain ⟨listings, rfl, hrest⟩ := ih fun b' r' hr => h b' r' (List.mem_cons_of_mem _ hr)
    refine ⟨(b, listing) :: listings, by rw [List.map_cons, hfound], fun b' pages hmem => ?_⟩
    obtain heq | hmem := List.mem_cons.mp hmem
    · obtain ⟨rfl, hlisting⟩ := Prod.mk.inj heq
      exact hshows pages hlisting.symm
    · exact hrest b' pages hmem

/-- The listings of a repair: no more than 16 are under way at once, they come to an end
however the goroutines take turns, and then they amount to one step of the seeder, whose
listings show what the buckets hold. -/
theorem listings_in_parallel
    (checked : Run (o.advance words) (fun _ _ => True) (s, o.begin) checks (s₁, .listing todo))
    (finite : ∀ b key, o.keyPrefix <+: key → (s₁ (o.bucketName b) key).isSome = true → key ∈ U b)
    (run : Run (Fan.step (o.listingWork s₁) (min todo.length 16)) (Fan.Allowed (o.Listed t))
      (.start todo) acts v) :
    v.holders ≤ 16 ∧ acts.length ≤ (todo.map fun b => (U b).card + 4).sum ∧
    (∃ more v', Run (Fan.step (o.listingWork s₁) (min todo.length 16)) (Fan.Allowed (o.Listed t))
      v more v' ∧ v'.Joined) ∧
    (v.Joined → ∃ listings : List (ℕ × Option (List Page)),
      v.results = listings.map (found o.naming) ∧
      o.advance words (s₁, .listing todo) (.list listings) =
        some (s₁, o.afterListings todo v.results) ∧
      HonestListing s₁ o (.listing todo) (.list listings) ∧
      ((∀ r ∈ v.results, r.2 ≠ none) → ListsAll o (s₁, .listing todo) (.list listings))) := by
  have hsound := Fan.sound run
  have hends := ends_listing (t := t) finite
  refine ⟨hsound.permits.trans (min_le_right _ _), ?_, ?_, fun joined => ?_⟩
  · have hlength := Fan.length_le_total hends run
    rw [Fan.total_start] at hlength
    refine hlength.trans_eq (congrArg List.sum (List.map_congr_left fun b _ => ?_))
    show left t o.naming U b (.start _) + 3 = _
    rw [left_start]
  · rcases todo with - | ⟨b, rest⟩
    · have hnone : v.tasks = [] := by simpa using hsound.keys
      exact ⟨[], v, .start, by simp [Fan.Joined, hnone]⟩
    · exact Fan.exists_run_joined hends hsound (by simp)
  · have huntouched : Untouched s (s₁, .listing todo)
        (log (o.advance words) seederEvent checks (s, o.begin)) :=
      checked.invariant_log _ untouched_begin fun _ _ _ _ _ moved hx => untouched_advance moved hx
    obtain ⟨-, -, hnodup⟩ := huntouched
    obtain ⟨listings, hresults, hshown⟩ := exists_listings (o := o) (s := s₁) fun b r hr => by
      obtain ⟨u, works, ended⟩ := hsound.ended b r hr
      exact found_of_works works ended
    have hkeys : v.results.map Prod.fst = listings.map Prod.fst := by
      rw [hresults, List.map_map]
      rfl
    have hstep := list_step (hkeys ▸ hsound.joined joined) hnodup words s₁ (o := o)
    refine ⟨listings, hresults, hresults ▸ hstep, ?_, fun hall => ?_⟩
    · rintro results ⟨⟩ b pages hmem key
      obtain ⟨hchained, hshows⟩ := hshown b pages hmem
      rw [mem_listedKeys hchained, hshows]
    · rintro results ⟨⟩ ⟨b, listing⟩ hmem
      cases listing with
      | none =>
        have hfailed := List.mem_map_of_mem (f := found o.naming) hmem
        exact absurd rfl (hall _ (hresults ▸ hfailed))
      | some pages => exact ⟨pages, rfl, hshown b pages hmem⟩

end

/-! ## Two buckets with gaps -/

def twoBuckets : Options := { gapOptions with bucketCount := 2, bucketCount_pos := int_two_pos }

/-- The page that shows what `gapStore` has in bucket 0; bucket 1 is empty. -/
def gapPage : Page := ⟨false, [], [twoBuckets.naming.objectKey 0]⟩

def emptyPage : Page := ⟨false, [], []⟩

theorem gapStore_isSome {b : ℕ} {key : Bytes}
    (h : (gapStore (twoBuckets.bucketName b) key).isSome = true) :
    twoBuckets.bucketName b = ascii "b-00" ∧ key = twoBuckets.naming.objectKey 0 := by
  rw [gapStore, Store.put_apply] at h
  split_ifs at h with hkey
  · exact hkey
  · simp [Bench.empty] at h

theorem gapPage_answers : ListRun.keyTokens.Answers (gapStore (twoBuckets.bucketName 0))
    twoBuckets.keyPrefix [] gapPage where
  sound key hkey := by
    obtain rfl := List.mem_singleton.mp hkey
    exact ⟨List.prefix_append _ _, by decide⟩
  complete key _ hkey _ _ := by simpa [gapPage] using (gapStore_isSome hkey).2
  continued h := by cases h

theorem emptyPage_answers : ListRun.keyTokens.Answers (gapStore (twoBuckets.bucketName 1))
    twoBuckets.keyPrefix [] emptyPage where
  sound key hkey := by cases hkey
  complete key _ hkey _ _ := absurd (gapStore_isSome hkey).1 (by decide)
  continued h := by cases h

/-- The goroutine of bucket 1 starts second and is the first to send. -/
def overtaking : List (Act ListAct) :=
  [.acquire 0, .acquire 1, .work 1 (.page emptyPage), .work 0 (.page gapPage), .send 1, .send 0,
    .release 0, .release 1]

/-- Both goroutines list at once: bucket 1 lacks both keys, bucket 0 lacks key 1. -/
theorem listings_in_parallel_overtaking :
    ∃ (v v' : Fan ℕ ListRun (Option (List ℕ))) (listings : List (ℕ × Option (List Page))),
      Run (Fan.step (twoBuckets.listingWork gapStore) 2)
        (Fan.Allowed (twoBuckets.Listed ListRun.keyTokens)) (.start [0, 1])
        (overtaking.take 2) v ∧ v.holders = 2 ∧
      Run (Fan.step (twoBuckets.listingWork gapStore) 2)
        (Fan.Allowed (twoBuckets.Listed ListRun.keyTokens)) (.start [0, 1]) overtaking v' ∧
      v'.results = [(1, some [0, 1]), (0, some [1])] ∧
      twoBuckets.advance (fun _ => 0) (gapStore, .listing [0, 1]) (.list listings) =
        some (gapStore, twoBuckets.afterListings [0, 1] v'.results) := by
  let c := gapStore (twoBuckets.bucketName 0)
  let d := gapStore (twoBuckets.bucketName 1)
  let listed : ListRun := ⟨c, [], [twoBuckets.naming.objectKey 0], some (some [1])⟩
  let unseen : ListRun := ⟨d, [], [], some (some [0, 1])⟩
  let step := Fan.step (twoBuckets.listingWork gapStore) (min [0, 1].length 16)
  let C := Fan.Allowed (ρ := Option (List ℕ)) (twoBuckets.Listed ListRun.keyTokens)
  have taken : Run step C (.start [0, 1]) (overtaking.take 2)
      ⟨[(0, .running (.start c)), (1, .running (.start d))], []⟩ :=
    (Run.start.next trivial rfl).next trivial rfl
  have second : Run step C (.start [0, 1]) (overtaking.take 3)
      ⟨[(0, .running (.start c)), (1, .running unseen)], []⟩ := by
    refine taken.next (fun k u hthere => ?_) rfl
    obtain ⟨rfl, rfl⟩ : 1 = k ∧ ListRun.start d = u := by simpa using hthere
    exact ⟨emptyPage_answers, by simp⟩
  have first : Run step C (.start [0, 1]) (overtaking.take 4)
      ⟨[(0, .running listed), (1, .running unseen)], []⟩ := by
    refine second.next (fun k u hthere => ?_) rfl
    obtain ⟨rfl, rfl⟩ : 0 = k ∧ ListRun.start c = u := by simpa using hthere
    exact ⟨gapPage_answers, by simp⟩
  have overtaken : Run step C (.start [0, 1]) (overtaking.take 5)
      ⟨[(0, .running listed), (1, .sent)], [(1, some [0, 1])]⟩ := first.next trivial rfl
  have sent : Run step C (.start [0, 1]) (overtaking.take 6)
      ⟨[(0, .sent), (1, .sent)], [(1, some [0, 1]), (0, some [1])]⟩ :=
    overtaken.next trivial rfl
  have left : Run step C (.start [0, 1]) (overtaking.take 7)
      ⟨[(0, .left), (1, .sent)], [(1, some [0, 1]), (0, some [1])]⟩ := sent.next trivial rfl
  have released : Run step C (.start [0, 1]) overtaking
      ⟨[(0, .left), (1, .left)], [(1, some [0, 1]), (0, some [1])]⟩ := left.next trivial rfl
  have hneeded : needed gapStore twoBuckets 0 2 = [0, 1] := by decide +kernel
  have checked : Run (twoBuckets.advance fun _ => 0) (fun _ _ => True)
      (gapStore, twoBuckets.begin) [.get true, .get true] (gapStore, .listing [0, 1]) := by
    have hchecks := replay_checks (o := twoBuckets) (fun _ => 0) gapStore 2 [] 0 rfl
    rw [hneeded] at hchecks
    exact run_of_replay (fun _ _ _ => trivial) hchecks
  have hfinite : ∀ b key, twoBuckets.keyPrefix <+: key →
      (gapStore (twoBuckets.bucketName b) key).isSome = true →
      key ∈ ({twoBuckets.naming.objectKey 0} : Finset Bytes) :=
    fun b key _ hkey => Finset.mem_singleton.mpr (gapStore_isSome hkey).2
  obtain ⟨-, -, -, hjoined⟩ := listings_in_parallel checked hfinite released
  obtain ⟨listings, -, hstep, -⟩ := hjoined (by simp [Fan.Joined])
  exact ⟨_, _, listings, taken, rfl, released, rfl, hstep⟩

end R2Bench
