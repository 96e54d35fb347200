import Mathlib.Data.Finset.Card
import R2Bench.Machines

/-!
# Scans by pages

Items that lie in a linear order are read page by page, each page starting where the
one before it ended, while somebody else may add and remove items in between. What
is there all along is seen, and what is seen was there at some time.
-/
namespace Paging
open Machines
variable {κ ι : Type*} [LinearOrder ι]

/-- One page: its items, and the place up to which it covers them all; none where it
covers everything that is left. -/
structure Answer (κ ι : Type*) where
  items : List κ
  next : Option ι

structure Scan (κ ι : Type*) where
  held : κ → Prop
  cursor : WithBot ι
  seen : List κ
  ended : Bool

inductive Act (κ ι : Type*)
  | change (held : κ → Prop)
  | answer (a : Answer κ ι)

namespace Scan

def start (held : κ → Prop) : Scan κ ι := ⟨held, ⊥, [], false⟩

def step (v : Scan κ ι) : Act κ ι → Option (Scan κ ι)
  | .change held => some { v with held }
  | .answer a =>
    if v.ended then none
    else some { v with cursor := a.next.elim v.cursor (↑), seen := v.seen ++ a.items,
                       ended := a.next.isNone }

/-- A page shows what is held from the cursor on up to its own end, and the end is
the place of its last item. -/
structure Shows (place : κ → ι) (held : κ → Prop) (cursor : WithBot ι) (a : Answer κ ι) :
    Prop where
  sound : ∀ k ∈ a.items, held k
  complete : ∀ k, held k → cursor < place k → (∀ last ∈ a.next, place k ≤ last) → k ∈ a.items
  advances : ∀ last ∈ a.next, ∃ k ∈ a.items, place k = last ∧ cursor < last

def Lawful (place : κ → ι) (v : Scan κ ι) : Act κ ι → Prop
  | .change _ => True
  | .answer a => Shows place v.held v.cursor a

/-- The contents at each step of a run. -/
def visited (acts : List (Act κ ι)) (v : Scan κ ι) : List (κ → Prop) :=
  log step (fun u _ => some u.held) acts v

omit [LinearOrder ι] in
theorem answered {v v' : Scan κ ι} {a : Answer κ ι} (h : v.step (.answer a) = some v') :
    v.ended = false ∧ v' = { v with cursor := a.next.elim v.cursor (↑), seen := v.seen ++ a.items,
                                    ended := a.next.isNone } := by
  unfold step at h
  split_ifs at h with hended
  exact ⟨by simpa using hended, (Option.some.inj h).symm⟩

section
variable {place : κ → ι} {v : Scan κ ι} {held : κ → Prop} {acts : List (Act κ ι)}

/-- A page shows what is held between the old cursor and the new one. -/
theorem Shows.covers {u : Scan κ ι} {a : Answer κ ι} {k : κ}
    (h : Shows place u.held u.cursor a) (hk : u.held k) (ahead : ¬ (place k : WithBot ι) ≤ u.cursor)
    (past : (place k : WithBot ι) ≤ a.next.elim u.cursor (↑) ∨ a.next.isNone = true) :
    k ∈ a.items := by
  refine h.complete k hk (not_le.mp ahead) fun last hlast => ?_
  have hnext : a.next = some last := hlast
  simpa [hnext] using past

/-- What is held at every step has been seen once the scan is past its place. -/
theorem seen_of_held (run : Run step (Lawful place) (start held) acts v) {k : κ}
    (h : ∀ c ∈ visited acts (start held), c k)
    (past : (place k : WithBot ι) ≤ v.cursor ∨ v.ended = true) : k ∈ v.seen := by
  have hinv := run.invariant_log (fun u _ => some u.held)
    (I := fun u noted => (∀ c ∈ noted, c k) →
      (place k : WithBot ι) ≤ u.cursor ∨ u.ended = true → k ∈ u.seen)
    (fun _ hpast => by simp [start] at hpast) ?_
  · exact hinv h past
  intro u noted a u' lawful moved ih hnoted hpast
  have hbefore : ∀ c ∈ noted, c k := fun c hc => hnoted c (List.mem_append_left _ hc)
  cases a with
  | change held' =>
    cases moved
    exact ih hbefore hpast
  | answer a =>
    have hheld : u.held k := hnoted u.held (by simp)
    obtain ⟨-, rfl⟩ := answered moved
    by_cases hcursor : (place k : WithBot ι) ≤ u.cursor
    · exact List.mem_append_left _ (ih hbefore (.inl hcursor))
    · exact List.mem_append_right _ (Shows.covers lawful hheld hcursor hpast)

/-- What has been seen was held at some step. -/
theorem held_of_seen (run : Run step (Lawful place) (start held) acts v) {k : κ}
    (h : k ∈ v.seen) : ∃ c ∈ visited acts (start held), c k := by
  have hinv := run.invariant_log (fun u _ => some u.held)
    (I := fun u noted => k ∈ u.seen → ∃ c ∈ noted, c k) (fun hk => by simp [start] at hk) ?_
  · exact hinv h
  intro u noted a u' lawful moved ih hk
  cases a with
  | change held' =>
    cases moved
    obtain ⟨c, hc, hck⟩ := ih hk
    exact ⟨c, List.mem_append_left _ hc, hck⟩
  | answer a =>
    obtain ⟨-, rfl⟩ := answered moved
    obtain hold | hnew := List.mem_append.mp hk
    · obtain ⟨c, hc, hck⟩ := ih hold
      exact ⟨c, List.mem_append_left _ hc, hck⟩
    · exact ⟨u.held, by simp, lawful.sound k hnew⟩

/-- The items with a place after the cursor. -/
def later (place : κ → ι) (U : Finset κ) (cursor : WithBot ι) : Finset κ :=
  U.filter fun k => cursor < place k

theorem card_later_lt {U : Finset κ} {cursor : WithBot ι} {k : κ} (hk : k ∈ U)
    (h : cursor < place k) : (later place U (place k)).card < (later place U cursor).card := by
  apply Finset.card_lt_card
  have hsubset : later place U (place k) ⊆ later place U cursor := by
    intro x hx
    rw [later, Finset.mem_filter] at hx ⊢
    exact ⟨hx.1, h.trans hx.2⟩
  rw [Finset.ssubset_iff_of_subset hsubset]
  exact ⟨k, by simp [later, hk, h], by simp [later]⟩

/-- How many pages the items leave room for; none once the scan has ended. -/
def room (place : κ → ι) (U : Finset κ) (v : Scan κ ι) : ℕ :=
  if v.ended then 0 else (later place U v.cursor).card + 1

def Act.isAnswer : Act κ ι → Bool
  | .answer _ => true
  | .change _ => false

/-- A page of items that are among `U` moves the cursor past one of them, or ends the scan. -/
theorem room_answer {U : Finset κ} {u u' : Scan κ ι} {a : Answer κ ι}
    (lawful : Shows place u.held u.cursor a) (among : ∀ k, u.held k → k ∈ U)
    (moved : u.step (.answer a) = some u') : room place U u' + 1 ≤ room place U u := by
  obtain ⟨hended, rfl⟩ := answered moved
  cases hnext : a.next with
  | none => simp [room, hended]
  | some last =>
    obtain ⟨k, hk, rfl, hlast⟩ := lawful.advances last hnext
    have hfewer := card_later_lt (among k (lawful.sound k hk)) hlast
    simp only [room, hended, Option.elim_some, Option.isNone_some, if_false, Bool.false_eq_true]
    omega

/-- A scan of finitely many items ends: each page but the last shows one of its own. -/
theorem answers_le {U : Finset κ} (run : Run step (Lawful place) (start held) acts v)
    (among : ∀ c ∈ visited acts (start held), ∀ k, c k → k ∈ U) :
    acts.countP Act.isAnswer ≤ U.card + 1 := by
  have hpaid := (run.restrict among).countP_log_le (room place U) (fun _ a => some a) Act.isAnswer
    (I := fun _ => True) trivial fun u a u' allowed _ moved => by
      refine ⟨trivial, ?_⟩
      cases a with
      | change held' =>
        cases moved
        simp [Act.isAnswer, room]
      | answer a => simpa [Act.isAnswer] using room_answer allowed.1 allowed.2 moved
  rw [run.log_self] at hpaid
  have hstart : room place U (start held) ≤ U.card + 1 := by simp [room, start, later]
  omega

end

end Scan
end Paging
