import Mathlib.Tactic

/-!
# Runs of a machine

A machine is a partial step function: `none` where an action is not enabled. A
run remembers the actions taken, and its steps may be required to meet a
condition on the state before them.
-/
namespace Machines
variable {σ α : Type*}

/-- A run of `step` from `w` by a list of actions, each allowed by `C`. -/
inductive Run (step : σ → α → Option σ) (C : σ → α → Prop) (w : σ) : List α → σ → Prop
  | start : Run step C w [] w
  | next {acts : List α} {v v' : σ} {a : α} (run : Run step C w acts v) (allowed : C v a)
      (moved : step v a = some v') : Run step C w (acts ++ [a]) v'

variable {step : σ → α → Option σ} {C D : σ → α → Prop} {w v v' : σ} {acts acts' : List α}

/-- A property kept by every allowed step holds along the run. -/
theorem Run.invariant {I : σ → Prop} (run : Run step C w acts v) (init : I w)
    (kept : ∀ u a u', C u a → step u a = some u' → I u → I u') : I v := by
  induction run with
  | start => exact init
  | next run allowed moved ih => exact kept _ _ _ allowed moved ih

theorem Run.mono (run : Run step C w acts v) (h : ∀ u a, C u a → D u a) :
    Run step D w acts v := by
  induction run with
  | start => exact .start
  | next run allowed moved ih => exact ih.next (h _ _ allowed) moved

theorem Run.append (run : Run step C w acts v) (rest : Run step C v acts' v') :
    Run step C w (acts ++ acts') v' := by
  induction rest with
  | start => simpa using run
  | next rest allowed moved ih =>
    rw [← List.append_assoc]
    exact ih.next allowed moved

/-- The first step of a run, and the rest. -/
theorem Run.cases_first (run : Run step C w acts v) : (acts = [] ∧ v = w) ∨
    ∃ a rest u, acts = a :: rest ∧ C w a ∧ step w a = some u ∧ Run step C u rest v := by
  induction run with
  | start => exact .inl ⟨rfl, rfl⟩
  | @next acts v v' a run allowed moved ih =>
    right
    obtain ⟨rfl, rfl⟩ | ⟨b, rest, u, rfl, hallowed, hmoved, hrest⟩ := ih
    · exact ⟨a, [], v', rfl, allowed, moved, .start⟩
    · exact ⟨b, rest ++ [a], u, rfl, hallowed, hmoved, hrest.next allowed moved⟩

/-- Perform a list of actions, failing where one is not enabled. -/
def replay (step : σ → α → Option σ) : List α → σ → Option σ
  | [], w => some w
  | a :: acts, w => (step w a).bind (replay step acts)

theorem replay_append (acts acts' : List α) (w : σ) :
    replay step (acts ++ acts') w = (replay step acts w).bind (replay step acts') := by
  induction acts generalizing w with
  | nil => rfl
  | cons a acts ih =>
    simp only [List.cons_append, replay, Option.bind_assoc]
    congr 1
    funext u
    exact ih u

theorem Run.replay (run : Run step C w acts v) : replay step acts w = some v := by
  induction run with
  | start => rfl
  | next run allowed moved ih =>
    rw [replay_append, ih]
    simp [Machines.replay, moved]

/-- Actions that are allowed in every state run as they are. -/
theorem run_of_replay (allowed : ∀ a ∈ acts, ∀ u, C u a) (h : replay step acts w = some v) :
    Run step C w acts v := by
  induction acts generalizing w with
  | nil =>
    have hsame : w = v := by simpa [replay] using h
    subst hsame
    exact .start
  | cons a acts ih =>
    obtain ⟨u, hu, hrest⟩ := Option.bind_eq_some_iff.mp h
    have hfirst : Run step C w [a] u := Run.start.next (allowed a List.mem_cons_self w) hu
    exact hfirst.append (ih (fun b hb => allowed b (.tail _ hb)) hrest)

/-- An executable check on the last state. -/
theorem exists_run_of_replay (step : σ → α → Option σ) (w : σ) (acts : List α) (P : σ → Bool)
    (h : (replay step acts w).any P = true) :
    ∃ v, Run step (fun _ _ => True) w acts v ∧ P v = true := by
  obtain ⟨v, hv, hP⟩ := (Option.any_eq_true _ _).mp h
  exact ⟨v, run_of_replay (fun _ _ _ => trivial) hv, hP⟩

/-- Perform a list of actions, failing where one is not enabled or not permitted. -/
def replayIf (step : σ → α → Option σ) (guard : σ → α → Bool) : List α → σ → Option σ
  | [], w => some w
  | a :: acts, w => if guard w a then (step w a).bind (replayIf step guard acts) else none

theorem run_of_replayIf {guard : σ → α → Bool} (hguard : ∀ u a, guard u a = true → C u a)
    (h : replayIf step guard acts w = some v) : Run step C w acts v := by
  induction acts generalizing w with
  | nil =>
    have hsame : w = v := by simpa [replayIf] using h
    subst hsame
    exact .start
  | cons a acts ih =>
    rw [replayIf] at h
    split_ifs at h with hg
    obtain ⟨u, hu, hrest⟩ := Option.bind_eq_some_iff.mp h
    have hfirst : Run step C w [a] u := Run.start.next (hguard w a hg) hu
    exact hfirst.append (ih hrest)

/-- An executable check on the last state. -/
theorem exists_run_of_replayIf (guard : σ → α → Bool) (hguard : ∀ u a, guard u a = true → C u a)
    (acts : List α) (P : σ → Bool) (h : (replayIf step guard acts w).any P = true) :
    ∃ v, Run step C w acts v ∧ P v = true := by
  obtain ⟨v, hv, hP⟩ := (Option.any_eq_true _ _).mp h
  exact ⟨v, run_of_replayIf hguard hv, hP⟩

/-! ## Logs -/

/-- What an observer notes of the actions, each in the state where it is taken. -/
def log {β : Type*} (step : σ → α → Option σ) (observe : σ → α → Option β) : List α → σ → List β
  | [], _ => []
  | a :: acts, w => (observe w a).toList ++ (step w a).elim [] (log step observe acts)

section Log
variable {β : Type*} {observe : σ → α → Option β}

theorem log_append (h : replay step acts w = some v) (acts' : List α) :
    log step observe (acts ++ acts') w = log step observe acts w ++ log step observe acts' v := by
  induction acts generalizing w with
  | nil =>
    have hsame : w = v := by simpa [replay] using h
    subst hsame
    rfl
  | cons a acts ih =>
    obtain ⟨u, hu, hrest⟩ := Option.bind_eq_some_iff.mp h
    simp only [List.cons_append, log, hu, Option.elim_some, ih hrest, List.append_assoc]

theorem Run.log_next (run : Run step C w acts v) (a : α) :
    log step observe (acts ++ [a]) w = log step observe acts w ++ (observe v a).toList := by
  rw [log_append run.replay]
  cases hstep : step v a <;> simp [log, hstep]

variable (observe) in
/-- A property of state and log kept by every allowed step holds along the run. -/
theorem Run.invariant_log {I : σ → List β → Prop} (run : Run step C w acts v) (init : I w [])
    (kept : ∀ u noted a u', C u a → step u a = some u' → I u noted →
      I u' (noted ++ (observe u a).toList)) : I v (log step observe acts w) := by
  induction run with
  | start => exact init
  | next run allowed moved ih =>
    rw [run.log_next]
    exact kept _ _ _ _ allowed moved ih

/-- What is noted by one observer, in terms of another who notes it at the same step. -/
theorem exists_mem_log {γ : Type*} {observe' : σ → α → Option γ} {R : β → γ → Prop} {y : γ}
    (h : ∀ u a z, observe' u a = some z → ∃ x, observe u a = some x ∧ R x z)
    (hy : y ∈ log step observe' acts w) : ∃ x ∈ log step observe acts w, R x y := by
  induction acts generalizing w with
  | nil => simp [log] at hy
  | cons a acts ih =>
    simp only [log, List.mem_append, Option.mem_toList] at hy ⊢
    obtain hnow | hlater := hy
    · obtain ⟨x, hx, hr⟩ := h w a y hnow
      exact ⟨x, .inl hx, hr⟩
    · cases hstep : step w a with
      | none => simp [hstep] at hlater
      | some u =>
        rw [hstep] at hlater
        obtain ⟨x, hx, hr⟩ := ih hlater
        exact ⟨x, .inr hx, hr⟩

/-- A condition that every state on the way meets may be made one of the run. -/
theorem Run.restrict {view : σ → β} {P : β → Prop} (run : Run step C w acts v)
    (h : ∀ x ∈ log step (fun u _ => some (view u)) acts w, P x) :
    Run step (fun u a => C u a ∧ P (view u)) w acts v := by
  induction run with
  | start => exact .start
  | next run allowed moved ih =>
    rw [run.log_next] at h
    exact (ih fun x hx => h x (List.mem_append_left _ hx)).next
      ⟨allowed, h _ (List.mem_append_right _ (by simp))⟩ moved

/-- A log of the actions themselves. -/
theorem Run.log_self (run : Run step C w acts v) : log step (fun _ a => some a) acts w = acts := by
  induction run with
  | start => rfl
  | next run _ _ ih => rw [run.log_next, ih, Option.toList_some]

/-- Two notes taken at the same steps are taken equally often. -/
theorem Run.count_log_eq {γ : Type*} [DecidableEq β] [DecidableEq γ] {observe' : σ → α → Option γ}
    {x : β} {y : γ} (run : Run step C w acts v)
    (same : ∀ u a u', step u a = some u' → (observe u a = some x ↔ observe' u a = some y)) :
    (log step observe acts w).count x = (log step observe' acts w).count y := by
  induction run with
  | start => rfl
  | @next acts u u' a run _ moved ih =>
    have hone : (observe u a).toList.count x = (observe' u a).toList.count y := by
      have hsame := same u a u' moved
      cases hx : observe u a <;> cases hy : observe' u a <;> simp_all [List.count_singleton]
    rw [run.log_next, run.log_next, List.count_append, List.count_append, ih, hone]

end Log

/-! ## Simulations -/

/-- A machine that goes along with every step of another, and whose observer notes the same. -/
theorem Run.simulate {τ β : Type*} {w' : τ} (run : Run step C w acts v) (step' : τ → α → Option τ)
    (D : τ → α → Prop) (R : σ → τ → Prop) (observe : σ → α → Option β)
    (observe' : τ → α → Option β) (init : R w w')
    (goes : ∀ u a u' t, C u a → step u a = some u' → R u t → D t a ∧ observe u a = observe' t a ∧
      ∃ t', step' t a = some t' ∧ R u' t') :
    ∃ t, Run step' D w' acts t ∧ R v t ∧
      log step observe acts w = log step' observe' acts w' := by
  induction run with
  | start => exact ⟨w', .start, init, rfl⟩
  | @next acts u u' a run allowed moved ih =>
    obtain ⟨t, hrun, hrel, hlog⟩ := ih
    obtain ⟨hallowed, hsame, t', hmoved, hrel'⟩ := goes u a u' t allowed moved hrel
    exact ⟨t', hrun.next hallowed hmoved, hrel', by
      rw [run.log_next, hrun.log_next, hlog, hsame]⟩

/-- A machine that takes the same steps in every state on the way. -/
theorem Run.congr {β : Type*} {I : σ → Prop} (run : Run step C w acts v)
    (step' : σ → α → Option σ) (init : I w)
    (kept : ∀ u a u', C u a → step' u a = some u' → I u → I u')
    (same : ∀ u a, I u → step u a = step' u a) (observe : σ → α → Option β) :
    Run step' C w acts v ∧ log step observe acts w = log step' observe acts w := by
  obtain ⟨t, hrun, ⟨rfl, -⟩, hlog⟩ :=
    run.simulate step' C (fun u t => t = u ∧ I u) observe observe ⟨rfl, init⟩ (by
      rintro u a u' _ allowed moved ⟨rfl, hu⟩
      have hmoved := (same _ a hu).symm.trans moved
      exact ⟨allowed, rfl, u', hmoved, rfl, kept _ a u' allowed hmoved hu⟩)
  exact ⟨hrun, hlog⟩

/-! ## Parts of a machine -/

section Part
variable {τ β : Type*} {part : τ → β → Option τ} {act : σ → α → Option β}

/-- Where every step is an allowed step of the part or leaves the part alone, a run of the
whole is a run of the part. -/
theorem Run.project {D : τ → β → Prop} (view : σ → τ) (run : Run step C w acts v)
    (moves : ∀ u a u', C u a → step u a = some u' → ∀ b, act u a = some b →
      D (view u) b ∧ part (view u) b = some (view u'))
    (rests : ∀ u a u', step u a = some u' → act u a = none → view u' = view u) :
    Run part D (view w) (log step act acts w) (view v) := by
  induction run with
  | start => exact .start
  | @next acts u u' a run allowed moved ih =>
    rw [run.log_next]
    cases hact : act u a with
    | none =>
      rw [rests u a u' moved hact]
      simpa using ih
    | some b =>
      obtain ⟨hallowed, hmoved⟩ := moves u a u' allowed moved b hact
      exact ih.next hallowed hmoved

/-- What is noted of the part in its own run. -/
theorem Run.log_project {γ : Type*} {observe : τ → β → Option γ} (view : σ → τ)
    (run : Run step C w acts v)
    (moves : ∀ u a u', C u a → step u a = some u' → ∀ b, act u a = some b →
      part (view u) b = some (view u'))
    (rests : ∀ u a u', step u a = some u' → act u a = none → view u' = view u) :
    log part observe (log step act acts w) (view w) =
      log step (fun u a => (act u a).bind (observe (view u))) acts w := by
  induction run with
  | start => rfl
  | @next acts u u' a run _ moved ih =>
    have hpart : Run part (fun _ _ => True) (view w) (log step act acts w) (view u) :=
      run.project view (fun u a u' allowed h b hb => ⟨trivial, moves u a u' allowed h b hb⟩) rests
    rw [run.log_next, run.log_next]
    cases hact : act u a with
    | none => simpa using ih
    | some b =>
      rw [Option.toList_some, hpart.log_next b, ih]
      rfl

end Part

/-! ## Measures -/

section Measure
variable {β : Type*} {I : σ → Prop} (μ : σ → ℕ)

/-- What costs a unit each can be noted no more often than the measure allows. -/
theorem Run.countP_log_le (observe : σ → α → Option β) (p : β → Bool)
    (run : Run step C w acts v) (init : I w)
    (paid : ∀ u a u', C u a → I u → step u a = some u' →
      I u' ∧ μ u' + (observe u a).toList.countP p ≤ μ u) :
    μ v + (log step observe acts w).countP p ≤ μ w := by
  have hpaid := run.invariant_log observe
    (I := fun u noted => I u ∧ μ u + noted.countP p ≤ μ w) ⟨init, by simp⟩
    fun u noted a u' allowed moved hu => by
      have hone := paid u a u' allowed hu.1 moved
      rw [List.countP_append]
      exact ⟨hone.1, by omega⟩
  exact hpaid.2

/-- Where a step towards the goal is always there, the goal is reached in as many steps as
the measure says. -/
theorem exists_run_of_measure {goal : σ → Prop}
    (next : ∀ u, I u → ¬ goal u → ∃ a u', C u a ∧ step u a = some u' ∧ I u' ∧ μ u' < μ u)
    (init : I w) : ∃ acts v, Run step C w acts v ∧ goal v ∧ acts.length ≤ μ w := by
  induction hm : μ w using Nat.strong_induction_on generalizing w with
  | _ m ih =>
    subst hm
    by_cases hgoal : goal w
    · exact ⟨[], w, .start, hgoal, Nat.zero_le _⟩
    · obtain ⟨a, u, hallowed, hmoved, hu, hless⟩ := next w init hgoal
      obtain ⟨acts, v, run, hv, hlength⟩ := ih (μ u) hless hu rfl
      have hfirst : Run step C w [a] u := Run.start.next hallowed hmoved
      exact ⟨[a] ++ acts, v, hfirst.append run, hv, by simp; omega⟩

end Measure

/-! ## Components -/

/-- A measure of a list of components after one of them has changed. -/
theorem sum_map_set {κ : Type*} (f : κ → ℕ) {l : List κ} {i : ℕ} {x : κ} (y : κ)
    (h : l[i]? = some x) : ((l.set i y).map f).sum + f x = (l.map f).sum + f y := by
  induction l generalizing i with
  | nil => simp at h
  | cons z l ih =>
    cases i with
    | zero =>
      have hsame : z = x := by simpa using h
      subst hsame
      simp only [List.set_cons_zero, List.map_cons, List.sum_cons]
      omega
    | succ i =>
      have hrest := ih (by simpa using h)
      simp only [List.set_cons_succ, List.map_cons, List.sum_cons]
      omega

end Machines
