import R2Bench.Machines

/-!
# Fanning work out

One goroutine for each key does its own work between taking and giving back one of
`cap` permits, and sends what came of it into a channel that has room for everybody.
The work is a machine of its own; keys may work at the same time in any order.
-/
namespace FanOut
open Machines

/-- What is done for a key. -/
structure Work (κ τ β ρ : Type*) where
  begin : κ → τ
  step : κ → τ → β → Option τ
  outcome : κ → τ → Option ρ

inductive Task (τ : Type*)
  | waiting
  | running (s : τ)
  /-- The result is sent, and the permit is still held. -/
  | sent
  | left
  deriving DecidableEq

inductive Act (β : Type*)
  | acquire (i : ℕ)
  | work (i : ℕ) (b : β)
  | send (i : ℕ)
  | release (i : ℕ)

structure Fan (κ τ ρ : Type*) where
  tasks : List (κ × Task τ)
  results : List (κ × ρ)

namespace Task
variable {τ : Type*}

/-- The permits that the task holds. -/
def held : Task τ → ℕ
  | running _ | sent => 1
  | waiting | left => 0

theorem held_cases (t : Task τ) : t.held = 0 ∨ t.held = 1 := by
  cases t <;> simp [held]

def answered : Task τ → Bool
  | sent | left => true
  | waiting | running _ => false

end Task

namespace Fan
variable {κ τ β ρ : Type*}

def start (keys : List κ) : Fan κ τ ρ := ⟨keys.map fun k => (k, .waiting), []⟩

def holders (v : Fan κ τ ρ) : ℕ := (v.tasks.map fun t => t.2.held).sum

/-- Every goroutine has returned. -/
def Joined (v : Fan κ τ ρ) : Prop := ∀ t ∈ v.tasks, t.2 = .left

def put (v : Fan κ τ ρ) (i : ℕ) (k : κ) (t : Task τ) : Fan κ τ ρ :=
  { v with tasks := v.tasks.set i (k, t) }

variable (W : Work κ τ β ρ) (cap : ℕ)

def step (v : Fan κ τ ρ) : Act β → Option (Fan κ τ ρ)
  | .acquire i =>
    match v.tasks[i]? with
    | some (k, .waiting) =>
      if v.holders < cap then some (v.put i k (.running (W.begin k))) else none
    | _ => none
  | .work i b =>
    match v.tasks[i]? with
    | some (k, .running s) => (W.step k s b).map fun s' => v.put i k (.running s')
    | _ => none
  | .send i =>
    match v.tasks[i]? with
    | some (k, .running s) =>
      (W.outcome k s).map fun r => { v.put i k .sent with results := v.results ++ [(k, r)] }
    | _ => none
  | .release i =>
    match v.tasks[i]? with
    | some (k, .sent) => some (v.put i k .left)
    | _ => none

/-- Everything a step can do. -/
inductive Moved (v : Fan κ τ ρ) : Act β → Fan κ τ ρ → Prop
  | acquire {i : ℕ} {k : κ} (there : v.tasks[i]? = some (k, .waiting)) (room : v.holders < cap) :
      Moved v (.acquire i) (v.put i k (.running (W.begin k)))
  | work {i : ℕ} {k : κ} {s s' : τ} {b : β} (there : v.tasks[i]? = some (k, .running s))
      (moved : W.step k s b = some s') : Moved v (.work i b) (v.put i k (.running s'))
  | send {i : ℕ} {k : κ} {s : τ} {r : ρ} (there : v.tasks[i]? = some (k, .running s))
      (ended : W.outcome k s = some r) :
      Moved v (.send i) { v.put i k .sent with results := v.results ++ [(k, r)] }
  | release {i : ℕ} {k : κ} (there : v.tasks[i]? = some (k, .sent)) :
      Moved v (.release i) (v.put i k .left)

theorem moved_iff {v v' : Fan κ τ ρ} {a : Act β} :
    v.step W cap a = some v' ↔ Moved W cap v a v' := by
  constructor
  · intro h
    cases a with
    | acquire i =>
      simp only [step] at h
      split at h
      · case h_1 k there =>
        split_ifs at h with room
        cases h
        exact .acquire there room
      · cases h
    | work i b =>
      simp only [step] at h
      split at h
      · case h_1 k s there =>
        obtain ⟨s', hs, rfl⟩ := Option.map_eq_some_iff.mp h
        exact .work there hs
      · cases h
    | send i =>
      simp only [step] at h
      split at h
      · case h_1 k s there =>
        obtain ⟨r, hr, rfl⟩ := Option.map_eq_some_iff.mp h
        exact .send there hr
      · cases h
    | release i =>
      simp only [step] at h
      split at h
      · case h_1 k there =>
        cases h
        exact .release there
      · cases h
  · intro h
    cases h with
    | acquire there room => simp [step, there, room]
    | work there moved => simp [step, there, moved]
    | send there ended => simp [step, there, ended]
    | release there => simp [step, there]

/-! ## Tasks in their places -/

section Put
variable {v : Fan κ τ ρ} {i : ℕ} {k : κ} {t t' : Task τ}

theorem keys_put (h : v.tasks[i]? = some (k, t)) :
    (v.put i k t').tasks.map Prod.fst = v.tasks.map Prod.fst := by
  obtain ⟨hi, hget⟩ := List.getElem?_eq_some_iff.mp h
  have hi' : i < (v.tasks.map Prod.fst).length := by simpa using hi
  have hkey : k = (v.tasks.map Prod.fst)[i] := by simp [hget]
  rw [put, List.map_set, hkey, List.set_getElem_self]

theorem holders_put (t' : Task τ) (h : v.tasks[i]? = some (k, t)) :
    (v.put i k t').holders + t.held = v.holders + t'.held :=
  sum_map_set (fun t : κ × Task τ => t.2.held) (k, t') h

theorem of_mem_put {x : κ × Task τ} (h : x ∈ (v.put i k t').tasks) : x = (k, t') ∨ x ∈ v.tasks :=
  (List.mem_or_eq_of_mem_set h).symm

/-- The keys of the tasks that have sent their result. -/
def answeredKeys (tasks : List (κ × Task τ)) : List κ :=
  (tasks.filter fun t => t.2.answered).map Prod.fst

theorem answeredKeys_set {tasks : List (κ × Task τ)} (h : tasks[i]? = some (k, t))
    (same : t'.answered = t.answered) :
    answeredKeys (tasks.set i (k, t')) = answeredKeys tasks := by
  induction tasks generalizing i with
  | nil => simp at h
  | cons x tasks ih =>
    cases i with
    | zero =>
      obtain rfl : x = (k, t) := by simpa using h
      cases ht : t.answered <;> simp [answeredKeys, same, ht]
    | succ i =>
      have hrest := ih (by simpa using h)
      unfold answeredKeys at hrest ⊢
      cases hx : x.2.answered <;> simp [hx, hrest]

theorem answeredKeys_answer (t' : Task τ) {tasks : List (κ × Task τ)} (h : tasks[i]? = some (k, t))
    (before : t.answered = false) (after : t'.answered = true) :
    (answeredKeys (tasks.set i (k, t'))).Perm (k :: answeredKeys tasks) := by
  induction tasks generalizing i with
  | nil => simp at h
  | cons x tasks ih =>
    cases i with
    | zero =>
      obtain rfl : x = (k, t) := by simpa using h
      simp [answeredKeys, before, after]
    | succ i =>
      have hrest := ih (by simpa using h)
      unfold answeredKeys at hrest ⊢
      cases hx : x.2.answered
      · simpa [List.filter_cons, hx] using hrest
      · simpa [List.filter_cons, hx] using (hrest.cons x.1).trans (.swap _ _ _)

end Put

/-! ## Along a run -/

section Run
variable (D : κ → τ → β → Prop)

/-- A key has come to this state by its own work. -/
def Works (k : κ) (s : τ) : Prop := ∃ acts, Run (W.step k) (D k) (W.begin k) acts s

/-- A task only does what its key may do. -/
def Allowed (v : Fan κ τ ρ) : Act β → Prop
  | .work i b => ∀ k s, v.tasks[i]? = some (k, .running s) → D k s b
  | _ => True

structure Sound (keys : List κ) (v : Fan κ τ ρ) : Prop where
  keys : v.tasks.map Prod.fst = keys
  permits : v.holders ≤ cap
  working : ∀ k s, (k, .running s) ∈ v.tasks → Works W D k s
  ended : ∀ k r, (k, r) ∈ v.results → ∃ s, Works W D k s ∧ W.outcome k s = some r
  sent : (v.results.map Prod.fst).Perm (answeredKeys v.tasks)

variable {W cap D} {keys : List κ} {v v' : Fan κ τ ρ} {a : Act β} {acts : List (Act β)}

theorem sound_start (keys : List κ) : (start keys : Fan κ τ ρ).Sound W cap D keys where
  keys := by simp [start, Function.comp_def]
  permits := by simp [start, holders, Function.comp_def, Task.held]
  working := by simp [start]
  ended := by simp [start]
  sent := by simp [start, answeredKeys, Task.answered]

theorem Sound.sent_put (h : v.Sound W cap D keys) {i : ℕ} {k : κ} {t t' : Task τ}
    (there : v.tasks[i]? = some (k, t)) (same : t'.answered = t.answered) :
    (v.results.map Prod.fst).Perm (answeredKeys (v.put i k t').tasks) := by
  rw [put, answeredKeys_set there same]
  exact h.sent

theorem Sound.moved (h : v.Sound W cap D keys) (allowed : Allowed D v a)
    (moved : Moved W cap v a v') : v'.Sound W cap D keys := by
  cases moved with
  | @acquire i k there room =>
    have hheld := holders_put (.running (W.begin k)) there
    refine ⟨(keys_put there).trans h.keys, ?_, fun k' s' hmem => ?_, h.ended, ?_⟩
    · simp only [Task.held] at hheld
      omega
    · obtain hnew | hold := of_mem_put hmem
      · cases hnew
        exact ⟨[], .start⟩
      · exact h.working k' s' hold
    · exact h.sent_put there rfl
  | @work i k s s' b there step =>
    have hheld := holders_put (.running s') there
    refine ⟨(keys_put there).trans h.keys, ?_, fun k' s'' hmem => ?_, h.ended, ?_⟩
    · simp only [Task.held] at hheld
      have := h.permits
      omega
    · obtain hnew | hold := of_mem_put hmem
      · cases hnew
        obtain ⟨acts, hrun⟩ := h.working k s (List.mem_of_getElem? there)
        exact ⟨acts ++ [b], hrun.next (allowed k s there) step⟩
      · exact h.working k' s'' hold
    · exact h.sent_put there rfl
  | @send i k s r there ended =>
    have hheld := holders_put .sent there
    refine ⟨(keys_put there).trans h.keys, ?_, fun k' s' hmem => ?_, fun k' r' hmem => ?_, ?_⟩
    · simp only [Task.held] at hheld
      have := h.permits
      change (v.put i k .sent).holders ≤ cap
      omega
    · obtain hnew | hold := of_mem_put hmem
      · cases hnew
      · exact h.working k' s' hold
    · obtain hold | hnew := List.mem_append.mp hmem
      · exact h.ended k' r' hold
      · cases List.mem_singleton.mp hnew
        exact ⟨s, h.working k s (List.mem_of_getElem? there), ended⟩
    · have hanswer := answeredKeys_answer .sent there rfl rfl
      have happend : ((v.results ++ [(k, r)]).map Prod.fst).Perm (k :: v.results.map Prod.fst) := by
        simp
      exact happend.trans ((h.sent.cons k).trans hanswer.symm)
  | @release i k there =>
    have hheld := holders_put .left there
    refine ⟨(keys_put there).trans h.keys, ?_, fun k' s' hmem => ?_, h.ended, ?_⟩
    · simp only [Task.held] at hheld
      have := h.permits
      omega
    · obtain hnew | hold := of_mem_put hmem
      · cases hnew
      · exact h.working k' s' hold
    · exact h.sent_put there rfl

theorem sound (run : Run (step W cap) (Allowed D) (start keys) acts v) :
    v.Sound W cap D keys :=
  run.invariant (sound_start keys) fun _ _ _ allowed h hu =>
    hu.moved allowed ((moved_iff W cap).mp h)

/-- Once everybody has returned every key has one result. -/
theorem Sound.joined (h : v.Sound W cap D keys) (joined : v.Joined) :
    (v.results.map Prod.fst).Perm keys := by
  have hall : v.tasks.filter (fun t => t.2.answered) = v.tasks := by
    apply List.filter_eq_self.mpr
    intro t ht
    rw [joined t ht]
    rfl
  have hsent := h.sent
  rwa [answeredKeys, hall, h.keys] at hsent

/-! ## To the end -/

/-- Work that goes on until it has an outcome, in no more steps than `μ` says. -/
structure Ends (W : Work κ τ β ρ) (D : κ → τ → β → Prop) (μ : κ → τ → ℕ) : Prop where
  falls : ∀ k s b s', Works W D k s → D k s b → W.step k s b = some s' → μ k s' < μ k s
  goes : ∀ k s, Works W D k s → W.outcome k s = none → ∃ b s', D k s b ∧ W.step k s b = some s'

/-- The steps that are left to a task. -/
def rank (W : Work κ τ β ρ) (μ : κ → τ → ℕ) : κ × Task τ → ℕ
  | (k, .waiting) => μ k (W.begin k) + 3
  | (k, .running s) => μ k s + 2
  | (_, .sent) => 1
  | (_, .left) => 0

def total (W : Work κ τ β ρ) (μ : κ → τ → ℕ) (v : Fan κ τ ρ) : ℕ := (v.tasks.map (rank W μ)).sum

variable {μ : κ → τ → ℕ}

theorem total_start (W : Work κ τ β ρ) (μ : κ → τ → ℕ) (keys : List κ) :
    (start keys : Fan κ τ ρ).total W μ = (keys.map fun k => μ k (W.begin k) + 3).sum := by
  simp [total, start, rank, Function.comp_def]

theorem total_put {i : ℕ} {k : κ} {t t' : Task τ} (there : v.tasks[i]? = some (k, t))
    (less : rank W μ (k, t') < rank W μ (k, t)) :
    (v.put i k t').total W μ < v.total W μ := by
  have hsum := sum_map_set (rank W μ) (k, t') there
  unfold total put
  dsimp only
  omega

/-- Every step uses one up. -/
theorem total_moved (ends : Ends W D μ) (h : v.Sound W cap D keys) (allowed : Allowed D v a)
    (moved : Moved W cap v a v') : v'.total W μ < v.total W μ := by
  cases moved with
  | acquire there _ => exact total_put there (by simp [rank])
  | @work i k s s' b there step =>
    have hworks := h.working k s (List.mem_of_getElem? there)
    have hless := ends.falls k s b s' hworks (allowed k s there) step
    exact total_put there (by simpa [rank] using hless)
  | send there _ =>
    show (v.put _ _ .sent).total W μ < v.total W μ
    exact total_put there (by simp [rank])
  | release there => exact total_put there (by simp [rank])

/-- A run has an end. -/
theorem length_le_total (ends : Ends W D μ)
    (run : Run (step W cap) (Allowed D) (start keys) acts v) :
    acts.length ≤ (start keys : Fan κ τ ρ).total W μ := by
  have hpaid := run.countP_log_le (total W μ) (fun _ a => some a) (fun _ => true)
    (I := Sound W cap D keys) (sound_start keys) fun u a u' allowed hu moved => by
      have hmoved := (moved_iff W cap).mp moved
      have hless := total_moved ends hu allowed hmoved
      exact ⟨hu.moved allowed hmoved, by simpa using hless⟩
  rw [run.log_self, List.countP_true] at hpaid
  omega

/-- When no task holds a permit every permit is free, so one that waits can go on. -/
theorem exists_holder (hcap : 0 < cap) (hopen : ¬ v.Joined)
    (hheld : ¬ (v.holders < cap ∧ ∃ k, (k, .waiting) ∈ v.tasks)) : ∃ t ∈ v.tasks, t.2.held = 1 := by
  by_contra hnone
  push Not at hnone
  have hfree : v.holders = 0 := by
    refine List.sum_eq_zero fun x hx => ?_
    obtain ⟨t, ht, rfl⟩ := List.mem_map.mp hx
    exact t.2.held_cases.resolve_right (hnone t ht)
  refine hopen fun t ht => ?_
  obtain ⟨k, t⟩ := t
  cases t with
  | waiting => exact absurd ⟨hfree ▸ hcap, k, ht⟩ hheld
  | left => rfl
  | running | sent => exact absurd rfl (hnone _ ht)

theorem exists_next (ends : Ends W D μ) (h : v.Sound W cap D keys) (hcap : 0 < cap)
    (hopen : ¬ v.Joined) : ∃ a v', Allowed D v a ∧ Moved W cap v a v' := by
  by_cases hheld : v.holders < cap ∧ ∃ k, (k, .waiting) ∈ v.tasks
  · obtain ⟨room, k, hmem⟩ := hheld
    obtain ⟨i, there⟩ := List.mem_iff_getElem?.mp hmem
    exact ⟨.acquire i, _, trivial, .acquire there room⟩
  obtain ⟨⟨k, t⟩, hmem, hone⟩ := exists_holder hcap hopen hheld
  obtain ⟨i, there⟩ := List.mem_iff_getElem?.mp hmem
  cases t with
  | waiting | left => cases hone
  | sent => exact ⟨.release i, _, trivial, .release there⟩
  | running s =>
    cases hout : W.outcome k s with
    | some r => exact ⟨.send i, _, trivial, .send there hout⟩
    | none =>
      obtain ⟨b, s', hb, hstep⟩ := ends.goes k s (h.working k s hmem) hout
      refine ⟨.work i b, _, fun k' s'' hthere => ?_, .work there hstep⟩
      obtain ⟨rfl, hs⟩ := Prod.mk.inj (Option.some.inj (there.symm.trans hthere))
      obtain rfl := Task.running.inj hs
      exact hb

/-- Permits do not block for good: from every state there is a way to the end. -/
theorem exists_run_joined (ends : Ends W D μ) (h : v.Sound W cap D keys) (hcap : 0 < cap) :
    ∃ acts v', Run (step W cap) (Allowed D) v acts v' ∧ v'.Joined := by
  obtain ⟨acts, v', run, joined, -⟩ :=
    exists_run_of_measure (I := Sound W cap D keys) (total W μ) (fun u hu hopen => by
      obtain ⟨a, u', allowed, moved⟩ := exists_next ends hu hcap hopen
      have hless := total_moved ends hu allowed moved
      exact ⟨a, u', allowed, (moved_iff W cap).mpr moved, hu.moved allowed moved, hless⟩) h
  exact ⟨acts, v', run, joined⟩

end Run

end Fan
end FanOut
