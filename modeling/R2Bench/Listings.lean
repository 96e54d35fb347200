import R2Bench.Paging
import R2Bench.Repairs

/-!
# Listings page by page

`missingKeys` asks for page after page while others may write to the bucket. What a
page is comes from R2: keys in ascending order from where the continuation token
points to, and a token that points behind its last key when there is more.
-/
namespace R2Bench
open Machines

/-- R2 orders keys by their bytes. -/
def place (key : Bytes) : List ℕ := key.map UInt8.toNat

/-- Where the tokens of R2 point to; a request without one starts at the beginning. -/
structure Continuation where
  position : Bytes → Option (List ℕ)
  position_nil : position [] = none

/-- The place that a request with this token continues after. -/
def Continuation.cursor (t : Continuation) (token : Bytes) : WithBot (List ℕ) :=
  (t.position token).elim ⊥ (↑)

/-- The page is one that R2 may answer with. -/
structure Continuation.Answers (t : Continuation) (c : Contents) (keyPrefix token : Bytes)
    (page : Page) : Prop where
  sound : ∀ key ∈ page.contents, keyPrefix <+: key ∧ (c key).isSome = true
  complete : ∀ key, keyPrefix <+: key → (c key).isSome = true → t.cursor token < place key →
    (page.isTruncated = true →
      ∀ last ∈ t.position page.nextContinuationToken, place key ≤ last) → key ∈ page.contents
  continued : page.isTruncated = true → page.nextContinuationToken ≠ [] ∧
    ∃ key ∈ page.contents, t.position page.nextContinuationToken = some (place key) ∧
      t.cursor token < place key

/-- The loop of `missingKeys` against a bucket; `present` is the map that it fills, and a
result of `some none` is its error. -/
structure ListRun where
  contents : Contents
  token : Bytes
  present : List Bytes
  result : Option (Option (List ℕ))

inductive ListAct
  /-- Another writer. -/
  | write (contents : Contents)
  | page (page : Page)
  | fail

namespace ListRun

def start (contents : Contents) : ListRun := ⟨contents, [], [], none⟩

/-- The second loop of `missingKeys`. -/
def absent (n : Naming) (present : List Bytes) : List ℕ :=
  (List.range n.keyspace.toNat).filter fun k => !present.contains (n.objectKey k)

def step (n : Naming) (v : ListRun) : ListAct → Option ListRun
  | .write contents => some { v with contents }
  | .page page =>
    if v.result.isSome then none
    else
      let present := v.present ++ page.contents
      if !page.isTruncated ∨ page.nextContinuationToken = [] then
        some { v with present, result := some (some (absent n present)) }
      else some { v with present, token := page.nextContinuationToken }
  | .fail => if v.result.isSome then none else some { v with result := some none }

/-- R2 answers the request that was sent. -/
def Lawful (t : Continuation) (n : Naming) (v : ListRun) : ListAct → Prop
  | .page page => t.Answers v.contents n.keyPrefix v.token page
  | _ => True

/-- The pages of a run, and the contents of the bucket at each step. -/
def pages (n : Naming) (acts : List ListAct) (v : ListRun) : List Page :=
  log (step n) (fun _ a => match a with
    | .page page => some page
    | _ => none) acts v

def visited (n : Naming) (acts : List ListAct) (v : ListRun) : List Contents :=
  log (step n) (fun u _ => some u.contents) acts v

/-! ## As a scan -/

def view (t : Continuation) (n : Naming) (v : ListRun) : Paging.Scan Bytes (List ℕ) :=
  { held := fun key => n.keyPrefix <+: key ∧ (v.contents key).isSome = true
    cursor := t.cursor v.token
    seen := v.present
    ended := match v.result with
      | some (some _) => true
      | _ => false }

/-- The page in the terms of a scan. -/
def answer (t : Continuation) (page : Page) : Paging.Answer Bytes (List ℕ) :=
  { items := page.contents
    next := if !page.isTruncated ∨ page.nextContinuationToken = [] then none
      else t.position page.nextContinuationToken }

def scanAct (t : Continuation) (n : Naming) : ListAct → Option (Paging.Act Bytes (List ℕ))
  | .write contents =>
    some (.change fun key => n.keyPrefix <+: key ∧ (contents key).isSome = true)
  | .page page =>
    some (.answer (answer t page))
  | .fail => none

section
variable {t : Continuation} {n : Naming} {v v' : ListRun} {a : ListAct} {acts : List ListAct}
  {c : Contents}

theorem answer_last {page : Page}
    (h : (!page.isTruncated) = true ∨ page.nextContinuationToken = []) :
    (answer t page).next = none := if_pos h

theorem answer_next {page : Page}
    (h : ¬ ((!page.isTruncated) = true ∨ page.nextContinuationToken = [])) :
    (answer t page).next = t.position page.nextContinuationToken := if_neg h

theorem shows_answer {page : Page} (h : t.Answers v.contents n.keyPrefix v.token page) :
    Paging.Scan.Shows place (view t n v).held (view t n v).cursor (answer t page) := by
  refine ⟨h.sound, fun key hkey hafter hupto => ?_, fun last hlast => ?_⟩
  · refine h.complete key hkey.1 hkey.2 hafter fun htruncated last hlast => hupto last ?_
    obtain ⟨hnext, -⟩ := h.continued htruncated
    rwa [answer_next (by simp [htruncated, hnext])]
  · by_cases hend : (!page.isTruncated) = true ∨ page.nextContinuationToken = []
    · rw [answer_last hend] at hlast
      cases hlast
    · rw [answer_next hend] at hlast
      have htruncated : page.isTruncated = true := by simpa using (not_or.mp hend).1
      obtain ⟨-, key, hkey, hnext, hless⟩ := h.continued htruncated
      rw [hnext] at hlast
      obtain rfl := Option.some.inj hlast
      exact ⟨key, hkey, rfl, hless⟩

/-- A step of the loop is a step of the scan. -/
theorem view_moves (allowed : Lawful t n v a) (h : step n v a = some v') :
    ∀ b, scanAct t n a = some b → Paging.Scan.Lawful place (view t n v) b ∧
      (view t n v).step b = some (view t n v') := by
  intro b hb
  cases a with
  | write contents =>
    cases hb
    cases h
    exact ⟨trivial, rfl⟩
  | fail => cases hb
  | page page =>
    cases hb
    have hanswers : t.Answers v.contents n.keyPrefix v.token page := allowed
    refine ⟨shows_answer hanswers, ?_⟩
    simp only [step] at h
    split_ifs at h with hdone hlast
    · cases h
      have hnone : v.result = none := by simpa using hdone
      simp only [Paging.Scan.step, view, hnone, answer_last hlast]
      rfl
    · cases h
      have hnone : v.result = none := by simpa using hdone
      have htruncated : page.isTruncated = true := by simpa using (not_or.mp hlast).1
      obtain ⟨-, key, -, hnext, -⟩ := hanswers.continued htruncated
      simp only [Paging.Scan.step, view, hnone, answer_next hlast, hnext, Continuation.cursor]
      rfl

theorem view_rests (h : step n v a = some v') (hact : scanAct t n a = none) :
    view t n v' = view t n v := by
  cases a with
  | fail =>
    simp only [step] at h
    split_ifs at h with hdone
    cases h
    have hnone : v.result = none := by simpa using hdone
    simp [view, hnone]
  | _ => cases hact

/-! ## Runs -/

def scanActs (t : Continuation) (n : Naming) (acts : List ListAct) (v : ListRun) :
    List (Paging.Act Bytes (List ℕ)) := log (step n) (fun _ a => scanAct t n a) acts v

theorem view_start (t : Continuation) (n : Naming) (c : Contents) :
    view t n (start c) = .start fun key => n.keyPrefix <+: key ∧ (c key).isSome = true := by
  simp only [view, start, Continuation.cursor, t.position_nil]
  rfl

theorem scan_run (run : Run (step n) (Lawful t n) (start c) acts v) :
    Run Paging.Scan.step (Paging.Scan.Lawful place)
      (.start fun key => n.keyPrefix <+: key ∧ (c key).isSome = true)
      (scanActs t n acts (start c)) (view t n v) := by
  rw [← view_start t n c]
  exact run.project (view t n) (fun _ _ _ => view_moves) fun _ _ _ => view_rests

/-- What the scan sees of the bucket is what the bucket holds at some step. -/
theorem mem_scan_visited (run : Run (step n) (Lawful t n) (start c) acts v)
    {held : Bytes → Prop} (h : held ∈ Paging.Scan.visited (scanActs t n acts (start c))
      (.start fun key => n.keyPrefix <+: key ∧ (c key).isSome = true)) :
    ∃ c' ∈ visited n acts (start c), held = fun key =>
      n.keyPrefix <+: key ∧ (c' key).isSome = true := by
  rw [← view_start t n c, Paging.Scan.visited, scanActs,
    run.log_project (view t n) (fun _ _ _ allowed h b hb => (view_moves allowed h b hb).2)
      fun _ _ _ => view_rests] at h
  refine exists_mem_log (R := fun (c' : Contents) held => held = fun key =>
    n.keyPrefix <+: key ∧ (c' key).isSome = true) (fun u a held hheld => ?_) h
  obtain ⟨b, -, hsome⟩ := Option.bind_eq_some_iff.mp hheld
  exact ⟨u.contents, rfl, (Option.some.inj hsome).symm⟩

/-- A key of the prefix that is there at every step is listed. -/
theorem present_of_visited (run : Run (step n) (Lawful t n) (start c) acts v) {missing : List ℕ}
    (done : v.result = some (some missing)) {key : Bytes} (hkey : n.keyPrefix <+: key)
    (h : ∀ c' ∈ visited n acts (start c), (c' key).isSome = true) : key ∈ v.present := by
  refine Paging.Scan.seen_of_held (scan_run run) (fun held hheld => ?_)
    (.inr (by simp [view, done]))
  obtain ⟨c', hc', rfl⟩ := mem_scan_visited run hheld
  exact ⟨hkey, h c' hc'⟩

/-- A key that is listed was there at some step. -/
theorem visited_of_present (run : Run (step n) (Lawful t n) (start c) acts v) {key : Bytes}
    (h : key ∈ v.present) :
    n.keyPrefix <+: key ∧ ∃ c' ∈ visited n acts (start c), (c' key).isSome = true := by
  obtain ⟨held, hheld, hkey⟩ := Paging.Scan.held_of_seen (scan_run run) h
  obtain ⟨c', hc', rfl⟩ := mem_scan_visited run hheld
  exact ⟨hkey.1, c', hc', hkey.2⟩

/-- What the loop has gathered and what it returns, in terms of the pages it was sent. -/
structure Gathered (n : Naming) (v : ListRun) (pages : List Page) : Prop where
  present : v.present = pages.flatMap Page.contents
  chained : Chained pages
  going : v.result = none →
    ∀ page ∈ pages, page.isTruncated = true ∧ page.nextContinuationToken ≠ []
  result : ∀ missing, v.result = some (some missing) → missing = missingKeys n pages

theorem listedKeys_of_chained {pages : List Page} (h : Chained pages) :
    listedKeys pages = pages.flatMap Page.contents := by
  induction pages with
  | nil => rfl
  | cons page pages ih =>
    cases pages with
    | nil => simp [listedKeys]
    | cons next pages =>
      have hpage := h page (by simp)
      have hrest : Chained (next :: pages) := fun x hx => h x (by simp [hx])
      rw [listedKeys, ih hrest]
      simp [hpage]

theorem Gathered.page {u : ListRun} {noted : List Page} {page : Page} {token : Bytes}
    {result : Option (Option (List ℕ))} (h : Gathered n u noted) (hnone : u.result = none)
    (going : result = none → page.isTruncated = true ∧ page.nextContinuationToken ≠ [])
    (ended : ∀ missing, result = some (some missing) →
      missing = absent n (u.present ++ page.contents)) :
    Gathered n { u with token, present := u.present ++ page.contents, result }
      (noted ++ [page]) := by
  have hchained : Chained (noted ++ [page]) := by
    simpa [Chained] using h.going hnone
  refine ⟨by simp [h.present], hchained, fun hgoing p hp => ?_, fun missing hmissing => ?_⟩
  · obtain hp | hp := List.mem_append.mp hp
    · exact h.going hnone p hp
    · obtain rfl := List.mem_singleton.mp hp
      exact going hgoing
  · have hpresent : noted.flatMap Page.contents ++ page.contents =
        (noted ++ [page]).flatMap Page.contents := by simp
    rw [ended missing hmissing, missingKeys, listedKeys_of_chained hchained, absent, h.present,
      hpresent]
    exact List.filter_congr fun k _ => by rw [List.contains_eq_mem, decide_not]

theorem gathered (run : Run (step n) (Lawful t n) (start c) acts v) :
    Gathered n v (pages n acts (start c)) := by
  refine run.invariant_log _ (I := Gathered n) ⟨rfl, by simp [Chained], by simp, by simp [start]⟩ ?_
  intro u noted a u' _ moved hu
  cases a with
  | write contents =>
    cases moved
    simpa using ⟨hu.present, hu.chained, hu.going, hu.result⟩
  | fail =>
    simp only [step] at moved
    split_ifs at moved
    cases moved
    simpa using ⟨hu.present, hu.chained, by simp, by simp⟩
  | page page =>
    simp only [step] at moved
    split_ifs at moved with hdone hlast
    all_goals
      cases moved
      have hnone : u.result = none := by simpa using hdone
    · refine hu.page hnone (by simp) fun missing hmissing => ?_
      simpa using hmissing.symm
    · refine hu.page hnone (fun _ => ?_) (by simp [hnone])
      simpa using hlast

/-- A page is an answer to the scan. -/
theorem pages_length (run : Run (step n) (Lawful t n) (start c) acts v) :
    (pages n acts (start c)).length =
      (scanActs t n acts (start c)).countP Paging.Scan.Act.isAnswer := by
  unfold pages scanActs
  induction run with
  | start => rfl
  | @next acts u u' a run _ moved ih =>
    rw [run.log_next, run.log_next, List.length_append, List.countP_append, ih]
    cases a <;> rfl

/-- In a bucket that nobody writes to the pages show what it holds. -/
theorem shows_of_run (run : Run (step n) (Lawful t n) (start c) acts v) {missing : List ℕ}
    (done : v.result = some (some missing)) (same : ∀ c' ∈ visited n acts (start c), c' = c) :
    Shows c n.keyPrefix (pages n acts (start c)) := by
  intro key
  have hpresent : (∃ page ∈ pages n acts (start c), key ∈ page.contents) ↔ key ∈ v.present := by
    rw [(gathered run).present, List.mem_flatMap]
  rw [hpresent]
  constructor
  · intro hkey
    obtain ⟨hbegins, c', hc', hsome⟩ := visited_of_present run hkey
    exact ⟨hbegins, same c' hc' ▸ hsome⟩
  · intro h
    exact present_of_visited run done h.1 fun c' hc' => (same c' hc').symm ▸ h.2

/-- A listing that ends leaves out what was there all along and leaves what never was,
whatever others write between its pages: it is the list of missing keys of the pages it
was sent, and it takes no more of them than there are keys to show, and one. -/
theorem listing_between (run : Run (step n) (Lawful t n) (start c) acts v) :
    (∀ missing, v.result = some (some missing) →
      missing = missingKeys n (pages n acts (start c)) ∧ Chained (pages n acts (start c)) ∧
      ∀ k : ℕ, k < n.keyspace →
        ((∀ c' ∈ visited n acts (start c), (c' (n.objectKey k)).isSome = true) → k ∉ missing) ∧
        ((∀ c' ∈ visited n acts (start c), c' (n.objectKey k) = none) → k ∈ missing)) ∧
    ∀ U : Finset Bytes, (∀ c' ∈ visited n acts (start c), ∀ key, n.keyPrefix <+: key →
      (c' key).isSome = true → key ∈ U) → (pages n acts (start c)).length ≤ U.card + 1 := by
  have hgathered := gathered run
  refine ⟨fun missing done => ?_, fun U among => ?_⟩
  · have hmissing := hgathered.result missing done
    have hmem : ∀ k : ℕ, k ∈ missing ↔ k < n.keyspace ∧ n.objectKey k ∉ v.present := by
      intro k
      rw [hmissing, mem_missingKeys, listedKeys_of_chained hgathered.chained, hgathered.present]
    refine ⟨hmissing, hgathered.chained, fun k hk => ⟨fun hall hmem' => ?_, fun hnone => ?_⟩⟩
    · exact ((hmem k).mp hmem').2 (present_of_visited run done (List.prefix_append _ _) hall)
    · refine (hmem k).mpr ⟨hk, fun hpresent => ?_⟩
      obtain ⟨-, c', hc', hsome⟩ := visited_of_present run hpresent
      simp [hnone c' hc'] at hsome
  · rw [pages_length run]
    refine Paging.Scan.answers_le (scan_run run) fun held hheld key hkey => ?_
    obtain ⟨c', hc', rfl⟩ := mem_scan_visited run hheld
    exact among c' hc' key hkey.1 hkey.2

end

/-! ## Two pages -/

/-- A token is the key to go on after. -/
def keyTokens : Continuation :=
  ⟨fun token => if token = [] then none else some (place token), rfl⟩

def threeKeys : Naming := { gapOptions.naming with keyspace := 3 }

/-- Contents of these keys. -/
def holding (keys : List ℕ) : Contents := fun key =>
  if (keys.map threeKeys.objectKey).contains key then some [] else none

/-- Key 0 is listed, key 2 is written, and the second page shows it. -/
def twoPages : List ListAct :=
  [.page ⟨true, threeKeys.objectKey 0, [threeKeys.objectKey 0]⟩, .write (holding [0, 2]),
    .page ⟨false, [], [threeKeys.objectKey 2]⟩]

theorem isSome_holding {keys : List ℕ} {key : Bytes} :
    (holding keys key).isSome = true ↔ key ∈ keys.map threeKeys.objectKey := by
  unfold holding
  split_ifs with h
  · simpa using h
  · simpa using h

theorem firstPage_answers : keyTokens.Answers (holding [0]) threeKeys.keyPrefix []
    ⟨true, threeKeys.objectKey 0, [threeKeys.objectKey 0]⟩ where
  sound key hkey := by
    obtain rfl := List.mem_singleton.mp hkey
    exact ⟨List.prefix_append _ _, isSome_holding.mpr (by simp)⟩
  complete key _ hkey _ _ := by simpa using isSome_holding.mp hkey
  continued _ := ⟨by decide, _, List.mem_singleton_self _, by decide, WithBot.bot_lt_coe _⟩

theorem secondPage_answers : keyTokens.Answers (holding [0, 2]) threeKeys.keyPrefix
    (threeKeys.objectKey 0) ⟨false, [], [threeKeys.objectKey 2]⟩ where
  sound key hkey := by
    obtain rfl := List.mem_singleton.mp hkey
    exact ⟨List.prefix_append _ _, isSome_holding.mpr (by simp)⟩
  complete key _ hkey hafter _ := by
    have hcursor : keyTokens.cursor (threeKeys.objectKey 0) = place (threeKeys.objectKey 0) := by
      decide
    rw [hcursor, WithBot.coe_lt_coe] at hafter
    obtain rfl | rfl : key = threeKeys.objectKey 0 ∨ key = threeKeys.objectKey 2 := by
      simpa using isSome_holding.mp hkey
    · exact absurd hafter (lt_irrefl _)
    · exact List.mem_singleton_self _
  continued h := by cases h

theorem twoPages_run : ∃ v, Run (step threeKeys) (Lawful keyTokens threeKeys) (start (holding [0]))
    twoPages v ∧ v.result = some (some [1]) := by
  let first : ListRun := ⟨holding [0], threeKeys.objectKey 0, [threeKeys.objectKey 0], none⟩
  have hfirst : Run (step threeKeys) (Lawful keyTokens threeKeys) (start (holding [0]))
      [.page ⟨true, threeKeys.objectKey 0, [threeKeys.objectKey 0]⟩] first :=
    Run.start.next firstPage_answers (by rfl)
  have hwrite : Run (step threeKeys) (Lawful keyTokens threeKeys) (start (holding [0]))
      [.page ⟨true, threeKeys.objectKey 0, [threeKeys.objectKey 0]⟩, .write (holding [0, 2])]
      { first with contents := holding [0, 2] } := hfirst.next trivial (by rfl)
  refine ⟨{ first with
      contents := holding [0, 2]
      present := [threeKeys.objectKey 0, threeKeys.objectKey 2]
      result := some (some [1]) }, hwrite.next secondPage_answers (by rfl), rfl⟩

theorem listing_between_twoPages : ∃ v,
    Run (step threeKeys) (Lawful keyTokens threeKeys) (start (holding [0])) twoPages v ∧
    [1] = missingKeys threeKeys (pages threeKeys twoPages (start (holding [0]))) := by
  obtain ⟨v, run, done⟩ := twoPages_run
  exact ⟨v, run, ((listing_between run).1 [1] done).1⟩

end ListRun
end R2Bench
