import Mathlib.Logic.Relation
import Mathlib.Tactic

/-!
# Interleaved handlers over a shared store

A handler awaits one atomic operation after another and continues with each
result. A pool runs any number of handlers against one store: requests arrive,
any unfinished handler may execute its next operation or be abandoned, and the
environment may move the store on its own. Nothing here fixes the operations,
the store, the requests or the replies.
-/
namespace Interleaving

/-- A program over atomic operations: finished, or awaiting one operation. -/
inductive Prog (Op : Type) (Res : Op → Type) (α : Type) : Type
  | done (a : α)
  | call (op : Op) (k : Res op → Prog Op Res α)

namespace Prog
variable {Op : Type} {Res : Op → Type} {σ α β : Type}

def bind : Prog Op Res α → (α → Prog Op Res β) → Prog Op Res β
  | done a, f => f a
  | call op k, f => call op fun r => (k r).bind f

instance : Monad (Prog Op Res) where
  pure := done
  bind := bind

/-- Await one operation and return its result. -/
def perform (op : Op) : Prog Op Res (Res op) := call op done

@[simp] theorem pure_eq (a : α) : (pure a : Prog Op Res α) = done a := rfl

@[simp] theorem done_bind (a : α) (f : α → Prog Op Res β) : (done a >>= f) = f a := rfl

@[simp] theorem call_bind (op : Op) (k : Res op → Prog Op Res α) (f : α → Prog Op Res β) :
    (call op k >>= f) = call op fun r => k r >>= f := rfl

@[simp] theorem perform_bind (op : Op) (f : Res op → Prog Op Res β) :
    (perform op >>= f) = call op f := rfl

/-- The operation the program is waiting for, if it has not finished. -/
def next? : Prog Op Res α → Option Op
  | done _ => none
  | call op _ => some op

@[simp] theorem next?_done (a : α) : (done a : Prog Op Res α).next? = none := rfl

@[simp] theorem next?_call (op : Op) (k : Res op → Prog Op Res α) :
    (call op k).next? = some op := rfl

/-- Every operation the program can come to await satisfies `Φ` together with
its continuation, whatever results the earlier operations return. -/
def Everywhere (Φ : (op : Op) → (Res op → Prog Op Res α) → Prop) : Prog Op Res α → Prop
  | done _ => True
  | call op k => Φ op k ∧ ∀ r, Everywhere Φ (k r)

@[simp] theorem everywhere_done (Φ : (op : Op) → (Res op → Prog Op Res α) → Prop) (a : α) :
    Everywhere Φ (done a) := trivial

@[simp] theorem everywhere_call (Φ : (op : Op) → (Res op → Prog Op Res α) → Prop)
    (op : Op) (k : Res op → Prog Op Res α) :
    Everywhere Φ (call op k) ↔ Φ op k ∧ ∀ r, Everywhere Φ (k r) := Iff.rfl

theorem Everywhere.mono {Φ Ψ : (op : Op) → (Res op → Prog Op Res α) → Prop}
    (h : ∀ op k, Φ op k → Ψ op k) : ∀ {p : Prog Op Res α}, Everywhere Φ p → Everywhere Ψ p
  | done _, _ => trivial
  | call op k, hp => ⟨h op k hp.1, fun r => (hp.2 r).mono h⟩

theorem everywhere_of_forall {Φ : (op : Op) → (Res op → Prog Op Res α) → Prop}
    (h : ∀ op k, Φ op k) : ∀ p : Prog Op Res α, Everywhere Φ p
  | done _ => trivial
  | call op k => ⟨h op k, fun r => everywhere_of_forall h (k r)⟩

/-- The program only ever awaits operations in `S`. -/
def Uses (S : Op → Prop) (p : Prog Op Res α) : Prop := Everywhere (fun op _ => S op) p

@[simp] theorem uses_done (S : Op → Prop) (a : α) : Uses S (done a : Prog Op Res α) := trivial

@[simp] theorem uses_call (S : Op → Prop) (op : Op) (k : Res op → Prog Op Res α) :
    Uses S (call op k) ↔ S op ∧ ∀ r, Uses S (k r) := Iff.rfl

theorem Uses.bind {S : Op → Prop} {f : α → Prog Op Res β} (hf : ∀ a, Uses S (f a)) :
    ∀ {p : Prog Op Res α}, Uses S p → Uses S (p >>= f)
  | done a, _ => hf a
  | call _ _, hp => ⟨hp.1, fun r => Uses.bind hf (hp.2 r)⟩

theorem Uses.of_next? {S : Op → Prop} {p : Prog Op Res α} {op : Op} (hp : Uses S p)
    (h : p.next? = some op) : S op := by
  cases p with
  | done a => cases h
  | call op' k =>
    have hsame : op' = op := by simpa using h
    subst hsame
    exact hp.1

/-- The operation after each operation stays in `S` as well. -/
theorem Uses.next {S : Op → Prop} : ∀ {p : Prog Op Res α}, Uses S p →
    Everywhere (fun _ k => ∀ r op, (k r).next? = some op → S op) p
  | done _, _ => trivial
  | call _ _, hp => ⟨fun r _ h => Uses.of_next? (hp.2 r) h, fun r => Uses.next (hp.2 r)⟩

/-- Run the program alone: nothing happens between its operations. -/
def run (exec : (op : Op) → σ → Res op × σ) : Prog Op Res α → σ → α × σ
  | done a, s => (a, s)
  | call op k, s => (k (exec op s).1).run exec (exec op s).2

@[simp] theorem run_done (exec : (op : Op) → σ → Res op × σ) (a : α) (s : σ) :
    (done a : Prog Op Res α).run exec s = (a, s) := rfl

@[simp] theorem run_call (exec : (op : Op) → σ → Res op × σ) (op : Op)
    (k : Res op → Prog Op Res α) (s : σ) :
    (call op k).run exec s = (k (exec op s).1).run exec (exec op s).2 := rfl

theorem run_bind (exec : (op : Op) → σ → Res op × σ) (p : Prog Op Res α)
    (f : α → Prog Op Res β) (s : σ) :
    (p >>= f).run exec s = (f (p.run exec s).1).run exec (p.run exec s).2 := by
  induction p generalizing s with
  | done a => rfl
  | call op k ih => exact ih _ _

end Prog

/-- How operations act on the store, what a request of type `τ` does, and how
the environment (`ε`) moves the store. -/
structure System (Op : Type) (Res : Op → Type) (σ τ α ε : Type) where
  exec : (op : Op) → σ → Res op × σ
  handler : τ → Prog Op Res α
  drift : ε → σ → σ

/-- One request in service. `rest` is `none` once the handler was abandoned. -/
structure Thread (Op : Type) (Res : Op → Type) (τ α : Type) where
  request : τ
  rest : Option (Prog Op Res α)

/-- The store and every request received so far, in order of arrival. -/
structure Pool (Op : Type) (Res : Op → Type) (σ τ α : Type) where
  store : σ
  threads : List (Thread Op Res τ α)

inductive Action (τ ε : Type)
  | arrive (t : τ)
  | exec (i : ℕ)
  | abandon (i : ℕ)
  | drift (e : ε)
  deriving DecidableEq

variable {Op : Type} {Res : Op → Type} {σ τ α ε : Type}

/-- The operation the request is waiting for; none when finished or abandoned. -/
def Thread.next? (u : Thread Op Res τ α) : Option Op := u.rest.bind Prog.next?

@[simp] theorem Thread.next?_some (t : τ) (p : Prog Op Res α) :
    (⟨t, some p⟩ : Thread Op Res τ α).next? = p.next? := rfl

theorem Thread.next?_eq_some {u : Thread Op Res τ α} {op : Op} (h : u.next? = some op) :
    ∃ k, u.rest = some (.call op k) := by
  obtain ⟨t, rest⟩ := u
  cases rest with
  | none => cases h
  | some p =>
    cases p with
    | done a => cases h
    | call op' k =>
      have hop : op' = op := by simpa using h
      subst hop
      exact ⟨k, rfl⟩

/-- The operation that thread `i` of the pool is waiting for. -/
def Pool.next? (w : Pool Op Res σ τ α) (i : ℕ) : Option Op := w.threads[i]?.bind Thread.next?

namespace System
variable (S : System Op Res σ τ α ε)

/-- One atomic step. Only unfinished handlers execute or are abandoned. -/
def step (w : Pool Op Res σ τ α) : Action τ ε → Option (Pool Op Res σ τ α)
  | .arrive t => some ⟨w.store, w.threads ++ [⟨t, some (S.handler t)⟩]⟩
  | .exec i =>
    match w.threads[i]? with
    | some ⟨t, some (.call op k)⟩ =>
      some ⟨(S.exec op w.store).2, w.threads.set i ⟨t, some (k (S.exec op w.store).1)⟩⟩
    | _ => none
  | .abandon i =>
    match w.threads[i]? with
    | some ⟨t, some (.call _ _)⟩ => some ⟨w.store, w.threads.set i ⟨t, none⟩⟩
    | _ => none
  | .drift e => some ⟨S.drift e w.store, w.threads⟩

/-- Everything one step can do. -/
theorem step_cases {w w' : Pool Op Res σ τ α} {a : Action τ ε} (h : S.step w a = some w') :
    (∃ t, a = .arrive t ∧ w' = ⟨w.store, w.threads ++ [⟨t, some (S.handler t)⟩]⟩) ∨
    (∃ i t op k, a = .exec i ∧ w.threads[i]? = some ⟨t, some (.call op k)⟩ ∧
      w' = ⟨(S.exec op w.store).2, w.threads.set i ⟨t, some (k (S.exec op w.store).1)⟩⟩) ∨
    (∃ i t op k, a = .abandon i ∧ w.threads[i]? = some ⟨t, some (.call op k)⟩ ∧
      w' = ⟨w.store, w.threads.set i ⟨t, none⟩⟩) ∨
    (∃ e, a = .drift e ∧ w' = ⟨S.drift e w.store, w.threads⟩) := by
  cases a with
  | arrive t => exact .inl ⟨t, rfl, by simpa [step] using h.symm⟩
  | exec i =>
    simp only [step] at h
    split at h
    case h_1 t op k hi => exact .inr (.inl ⟨i, t, op, k, rfl, hi, by simpa using h.symm⟩)
    case h_2 => cases h
  | abandon i =>
    simp only [step] at h
    split at h
    case h_1 t op k hi =>
      exact .inr (.inr (.inl ⟨i, t, op, k, rfl, hi, by simpa using h.symm⟩))
    case h_2 => cases h
  | drift e => exact .inr (.inr (.inr ⟨e, rfl, by simpa [step] using h.symm⟩))

/-- What one step does to the store. -/
theorem step_store {w w' : Pool Op Res σ τ α} {a : Action τ ε} (h : S.step w a = some w') :
    ((∀ i, a ≠ .exec i) ∧ w'.store = w.store) ∨
    (∃ i op, a = .exec i ∧ w.next? i = some op ∧ w'.store = (S.exec op w.store).2) ∨
    (∃ e, a = .drift e ∧ w'.store = S.drift e w.store) := by
  obtain ⟨t, rfl, rfl⟩ | ⟨i, t, op, k, rfl, hi, rfl⟩ | ⟨i, t, op, k, rfl, hi, rfl⟩ |
    ⟨e, rfl, rfl⟩ := S.step_cases h
  · exact .inl ⟨by simp, rfl⟩
  · exact .inr (.inl ⟨i, op, rfl, by simp [Pool.next?, hi, Thread.next?], rfl⟩)
  · exact .inl ⟨by simp, rfl⟩
  · exact .inr (.inr ⟨e, rfl, rfl⟩)

/-- A thread that executes performs the operation it is waiting for. -/
theorem exec_store {w w' : Pool Op Res σ τ α} {i : ℕ} {op : Op}
    (h : S.step w (.exec i) = some w') (hnext : w.next? i = some op) :
    w'.store = (S.exec op w.store).2 := by
  rcases S.step_store h with ⟨hne, -⟩ | ⟨k, op', hk, hop, hstore⟩ | ⟨e, he, -⟩
  · exact absurd rfl (hne i)
  · cases hk
    have hsame : op' = op := Option.some.inj (hop.symm.trans hnext)
    subst hsame
    exact hstore
  · cases he

/-- A run whose every step meets `C`, a condition on the pool before the step. -/
def Run (C : Pool Op Res σ τ α → Action τ ε → Prop) :
    Pool Op Res σ τ α → Pool Op Res σ τ α → Prop :=
  Relation.ReflTransGen fun w w' => ∃ a, C w a ∧ S.step w a = some w'

/-- A run with no condition on its steps. -/
abbrev FreeRun : Pool Op Res σ τ α → Pool Op Res σ τ α → Prop := S.Run fun _ _ => True

theorem Run.mono {C D : Pool Op Res σ τ α → Action τ ε → Prop} (hCD : ∀ v a, C v a → D v a)
    {w w' : Pool Op Res σ τ α} (h : S.Run C w w') : S.Run D w w' :=
  Relation.ReflTransGen.mono (fun v _ hs => hs.imp fun a hs => ⟨hCD v a hs.1, hs.2⟩) _ _ h

theorem Run.free {C : Pool Op Res σ τ α → Action τ ε → Prop} {w w' : Pool Op Res σ τ α}
    (h : S.Run C w w') : S.FreeRun w w' := Run.mono S (fun _ _ _ => trivial) h

theorem Run.single {C : Pool Op Res σ τ α → Action τ ε → Prop} {w w' : Pool Op Res σ τ α}
    {a : Action τ ε} (hC : C w a) (h : S.step w a = some w') : S.Run C w w' :=
  Relation.ReflTransGen.single ⟨a, hC, h⟩

/-- A pool property kept by every step that meets `C` holds along the run. -/
theorem Run.invariant {C : Pool Op Res σ τ α → Action τ ε → Prop}
    {I : Pool Op Res σ τ α → Prop} {w w' : Pool Op Res σ τ α} (h : S.Run C w w') (h0 : I w)
    (hstep : ∀ v a v', S.Run C w v → C v a → S.step v a = some v' → I v → I v') : I w' := by
  induction h with
  | refl => exact h0
  | tail hv hs ih =>
    obtain ⟨a, hc, hs⟩ := hs
    exact hstep _ a _ hv hc hs ih

/-- Perform a list of actions, failing when one is not enabled or not allowed
by the guard. -/
def replay (guard : Pool Op Res σ τ α → Action τ ε → Bool) :
    List (Action τ ε) → Pool Op Res σ τ α → Option (Pool Op Res σ τ α)
  | [], w => some w
  | a :: as, w => if guard w a then (S.step w a).bind (replay guard as) else none

section Replay
variable {C : Pool Op Res σ τ α → Action τ ε → Prop} {w : Pool Op Res σ τ α}

theorem run_of_replay {guard : Pool Op Res σ τ α → Action τ ε → Bool}
    (hC : ∀ v a, guard v a = true → C v a) {acts : List (Action τ ε)} {w' : Pool Op Res σ τ α}
    (h : S.replay guard acts w = some w') : S.Run C w w' := by
  induction acts generalizing w with
  | nil =>
    have hsame : w = w' := by simpa [replay] using h
    subst hsame
    exact Relation.ReflTransGen.refl
  | cons a as ih =>
    rw [replay] at h
    split_ifs at h with hg
    obtain ⟨v, hv, hrest⟩ := Option.bind_eq_some_iff.mp h
    exact Relation.ReflTransGen.head ⟨a, hC w a hg, hv⟩ (ih hrest)

/-- An executable check on the last state. -/
theorem exists_run_of_replay (guard : Pool Op Res σ τ α → Action τ ε → Bool)
    (hC : ∀ v a, guard v a = true → C v a) (acts : List (Action τ ε))
    (P : Pool Op Res σ τ α → Bool) (h : (S.replay guard acts w).any P = true) :
    ∃ w', S.Run C w w' ∧ P w' = true := by
  obtain ⟨w', hw', hP⟩ := (Option.any_eq_true _ _).mp h
  exact ⟨w', S.run_of_replay hC hw', hP⟩

/-- An executable check on a state on the way and on the last state. -/
theorem exists_runs_of_replay (acts : List (Action τ ε)) (P : Pool Op Res σ τ α → Bool)
    (guard : Pool Op Res σ τ α → Action τ ε → Bool) (hC : ∀ v a, guard v a = true → C v a)
    (acts' : List (Action τ ε)) (Q : Pool Op Res σ τ α → Bool)
    (h : (S.replay (fun _ _ => true) acts w).any
      (fun v => P v && (S.replay guard acts' v).any Q) = true) :
    ∃ v w', S.FreeRun w v ∧ P v = true ∧ S.Run C v w' ∧ Q w' = true := by
  obtain ⟨v, hv, hPQ⟩ := (Option.any_eq_true _ _).mp h
  obtain ⟨hP, hQ⟩ := (Bool.and_eq_true _ _).mp hPQ
  obtain ⟨w', hw', hQ⟩ := (Option.any_eq_true _ _).mp hQ
  exact ⟨v, w', S.run_of_replay (fun _ _ _ => trivial) hv, hP, S.run_of_replay hC hw', hQ⟩

end Replay

/-! ## Threads along a run -/

/-- How one step leaves the thread at a fixed position: as it was, moved on by
its own operation, or abandoned. -/
theorem step_thread {w w' : Pool Op Res σ τ α} {a : Action τ ε} (h : S.step w a = some w')
    {i : ℕ} {u : Thread Op Res τ α} (hu : w.threads[i]? = some u) :
    (w'.threads[i]? = some u ∧ a ≠ .exec i) ∨
    (∃ op k, a = .exec i ∧ u.rest = some (.call op k) ∧ w'.store = (S.exec op w.store).2 ∧
      w'.threads[i]? = some ⟨u.request, some (k (S.exec op w.store).1)⟩) ∨
    (w'.threads[i]? = some ⟨u.request, none⟩) := by
  have hlt : i < w.threads.length := (List.getElem?_eq_some_iff.mp hu).1
  obtain ⟨t, rfl, rfl⟩ | ⟨j, t, op, k, rfl, hj, rfl⟩ | ⟨j, t, op, k, rfl, hj, rfl⟩ |
    ⟨e, rfl, rfl⟩ := S.step_cases h
  · exact .inl ⟨by rw [List.getElem?_append_left hlt, hu], by simp⟩
  · by_cases hij : j = i
    · subst hij
      obtain rfl : u = _ := Option.some.inj (hu.symm.trans hj)
      exact .inr (.inl ⟨op, k, rfl, rfl, rfl, by simp [hlt]⟩)
    · exact .inl ⟨by rw [List.getElem?_set_ne hij, hu], by simpa using hij⟩
  · by_cases hij : j = i
    · subst hij
      obtain rfl : u = _ := Option.some.inj (hu.symm.trans hj)
      exact .inr (.inr (by simp [hlt]))
    · exact .inl ⟨by rw [List.getElem?_set_ne hij, hu], by simp⟩
  · exact .inl ⟨hu, by simp⟩

/-- A thread that has finished stays as it is. -/
theorem step_finished {w w' : Pool Op Res σ τ α} {a : Action τ ε} (h : S.step w a = some w')
    {i : ℕ} {t : τ} {x : α} (hu : w.threads[i]? = some ⟨t, some (.done x)⟩) :
    w'.threads[i]? = some ⟨t, some (.done x)⟩ := by
  have hlt : i < w.threads.length := (List.getElem?_eq_some_iff.mp hu).1
  have hne : ∀ j t' op k, w.threads[j]? = some ⟨t', some (.call op k)⟩ → j ≠ i := by
    intro j t' op k hj heq
    subst heq
    rw [hu] at hj
    cases hj
  obtain ⟨t', rfl, rfl⟩ | ⟨j, t', op, k, rfl, hj, rfl⟩ | ⟨j, t', op, k, rfl, hj, rfl⟩ |
    ⟨e, rfl, rfl⟩ := S.step_cases h
  · show (w.threads ++ _)[i]? = _
    rw [List.getElem?_append_left hlt, hu]
  · show (w.threads.set j _)[i]? = _
    rw [List.getElem?_set_ne (hne j t' op k hj), hu]
  · show (w.threads.set j _)[i]? = _
    rw [List.getElem?_set_ne (hne j t' op k hj), hu]
  · exact hu

/-- Where a thread after one step comes from: it was there as it is, has just
arrived, was moved on by its own operation, or is abandoned. -/
theorem step_thread_from {w w' : Pool Op Res σ τ α} {a : Action τ ε}
    (h : S.step w a = some w') {i : ℕ} {u' : Thread Op Res τ α}
    (hu' : w'.threads[i]? = some u') :
    (w.threads[i]? = some u' ∧ a ≠ .exec i) ∨
    (∃ t, a = .arrive t ∧ w.threads.length ≤ i ∧ u' = ⟨t, some (S.handler t)⟩) ∨
    (∃ t op k, a = .exec i ∧ w.threads[i]? = some ⟨t, some (.call op k)⟩ ∧
      w'.store = (S.exec op w.store).2 ∧ u' = ⟨t, some (k (S.exec op w.store).1)⟩) ∨
    u'.rest = none := by
  by_cases hlt : i < w.threads.length
  · obtain ⟨u, hu⟩ : ∃ u, w.threads[i]? = some u := ⟨_, List.getElem?_eq_getElem hlt⟩
    rcases S.step_thread h hu with ⟨hsame, ha⟩ | ⟨op, k, rfl, hk, hst, hnext⟩ | hnone
    · rw [hu'] at hsame
      exact .inl ⟨hu.trans hsame.symm, ha⟩
    · obtain ⟨t, rest⟩ := u
      have heq : rest = some (.call op k) := hk
      subst heq
      exact .inr (.inr (.inl ⟨t, op, k, rfl, hu, hst, Option.some.inj (hu'.symm.trans hnext)⟩))
    · obtain rfl : u' = _ := Option.some.inj (hu'.symm.trans hnone)
      exact .inr (.inr (.inr rfl))
  · have hlen := (List.getElem?_eq_some_iff.mp hu').1
    obtain ⟨t, rfl, rfl⟩ | ⟨j, t, op, k, rfl, -, rfl⟩ | ⟨j, t, op, k, rfl, -, rfl⟩ |
      ⟨e, rfl, rfl⟩ := S.step_cases h
    · obtain rfl : i = w.threads.length := by simp at hlen; omega
      exact .inr (.inl ⟨t, rfl, le_rfl, by simpa using hu'.symm⟩)
    all_goals simp at hlen; omega

theorem step_length_le {w w' : Pool Op Res σ τ α} {a : Action τ ε}
    (h : S.step w a = some w') : w.threads.length ≤ w'.threads.length := by
  obtain ⟨t, rfl, rfl⟩ | ⟨j, t, op, k, rfl, hj, rfl⟩ | ⟨j, t, op, k, rfl, hj, rfl⟩ |
    ⟨e, rfl, rfl⟩ := S.step_cases h <;> simp

/-! ## What the threads of a pool have to show -/

/-- Replacing an entry without a contribution adds the contribution of the new one. -/
theorem filterMap_set_perm {α β : Type*} (f : α → Option β) {l : List α} {i : ℕ} {x : α}
    (hx : l[i]? = some x) (hf : f x = none) (y : α) :
    ((l.set i y).filterMap f).Perm ((f y).toList ++ l.filterMap f) := by
  induction l generalizing i with
  | nil => simp at hx
  | cons z l ih =>
    cases i with
    | zero =>
      have hsame : z = x := by simpa using hx
      subst hsame
      cases hy : f y <;> simp [hf, hy]
    | succ i =>
      have hrest := ih (by simpa using hx)
      rw [List.set_cons_succ]
      cases hz : f z with
      | none => simpa [hz] using hrest
      | some b =>
        simp only [List.filterMap_cons_some hz]
        exact (hrest.cons b).trans List.perm_middle.symm

/-- When only answered requests contribute, a step adds at most the contribution
of the thread that it moves. -/
theorem step_filterMap {β : Type*} (f : Thread Op Res τ α → Option β)
    (hopen : ∀ t op k, f ⟨t, some (.call op k)⟩ = none) (hgone : ∀ t, f ⟨t, none⟩ = none)
    (hnew : ∀ t, f ⟨t, some (S.handler t)⟩ = none) {w w' : Pool Op Res σ τ α} {a : Action τ ε}
    (h : S.step w a = some w') :
    ((w'.threads.filterMap f).Perm (w.threads.filterMap f) ∧
      (w'.store = w.store ∨ ∃ e, w'.store = S.drift e w.store)) ∨
    ∃ (i : ℕ) (t : τ) (op : Op) (k : Res op → Prog Op Res α),
      w.threads[i]? = some ⟨t, some (.call op k)⟩ ∧ w'.store = (S.exec op w.store).2 ∧
      (w'.threads.filterMap f).Perm
        ((f ⟨t, some (k (S.exec op w.store).1)⟩).toList ++ w.threads.filterMap f) := by
  obtain ⟨t, rfl, rfl⟩ | ⟨i, t, op, k, rfl, hi, rfl⟩ | ⟨i, t, op, k, rfl, hi, rfl⟩ |
    ⟨e, rfl, rfl⟩ := S.step_cases h
  · exact .inl ⟨by simp [hnew], .inl rfl⟩
  · exact .inr ⟨i, t, op, k, hi, rfl, filterMap_set_perm f hi (hopen t op k) _⟩
  · refine .inl ⟨?_, .inl rfl⟩
    simpa [hgone] using filterMap_set_perm f hi (hopen t op k) ⟨t, none⟩
  · exact .inl ⟨.refl _, .inr ⟨e, rfl⟩⟩

end System
end Interleaving
