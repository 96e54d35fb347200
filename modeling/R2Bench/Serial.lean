import R2Bench.Contracts

/-!
# Handlers taken one after another

A serial history serves each request to its end before the next one. It is one
of the runs of the pool, so whatever holds in every reachable pool holds after
every serial history.
-/
namespace Interleaving
variable {Op : Type} {Res : Op → Type} {σ τ α ε : Type}

/-- A request served to its end, or a move of the environment. -/
inductive Event (τ ε : Type)
  | serve (t : τ)
  | drift (e : ε)
  deriving DecidableEq

namespace System
variable (S : System Op Res σ τ α ε)

/-- Serve one request alone: its reply and the store it leaves. -/
def serve (t : τ) (s : σ) : α × σ := (S.handler t).run S.exec s

def happen : Event τ ε → σ → σ
  | .serve t, s => (S.serve t s).2
  | .drift e, s => S.drift e s

/-- The store after a serial history. -/
def serial (events : List (Event τ ε)) (s : σ) : σ := events.foldl (fun s e => S.happen e s) s

@[simp] theorem serial_nil (s : σ) : S.serial [] s = s := rfl

@[simp] theorem serial_cons (e : Event τ ε) (events : List (Event τ ε)) (s : σ) :
    S.serial (e :: events) s = S.serial events (S.happen e s) := rfl

/-- One event is a run of the pool, whatever threads it already has. -/
theorem run_happen (e : Event τ ε) (w : Pool Op Res σ τ α) :
    ∃ threads, S.FreeRun w ⟨S.happen e w.store, threads⟩ := by
  cases e with
  | drift e => exact ⟨w.threads, System.Run.single S (a := .drift e) trivial rfl⟩
  | serve t =>
    have harrive : S.FreeRun w ⟨w.store, w.threads ++ [⟨t, some (S.handler t)⟩]⟩ :=
      System.Run.single S (a := .arrive t) trivial rfl
    have halone := S.run_alone (w := ⟨w.store, w.threads ++ [⟨t, some (S.handler t)⟩]⟩)
      (i := w.threads.length) (t := t) (p := S.handler t) (by simp)
    exact ⟨_, harrive.trans halone.free⟩

/-- A serial history is a run of the pool. -/
theorem run_serial (events : List (Event τ ε)) (w : Pool Op Res σ τ α) :
    ∃ threads, S.FreeRun w ⟨S.serial events w.store, threads⟩ := by
  induction events generalizing w with
  | nil => exact ⟨w.threads, Relation.ReflTransGen.refl⟩
  | cons e events ih =>
    obtain ⟨threads, hfirst⟩ := S.run_happen e w
    obtain ⟨threads', hrest⟩ := ih ⟨S.happen e w.store, threads⟩
    exact ⟨threads', hfirst.trans hrest⟩

end System
end Interleaving
