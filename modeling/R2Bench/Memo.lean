import R2Bench.Contracts

/-!
# A one-entry memo under two locks

A cell remembers the value of one key. A lookup reads under one lock and, on a
miss, checks again and fills under another; other lookups may replace the entry
in between. The key of the empty cell is never looked up.
-/
namespace Memo
open Interleaving
variable {κ β τ α : Type} [DecidableEq κ]

structure Cell (κ β : Type) where
  key : κ
  value : β
  deriving DecidableEq

/-- The two critical sections. -/
inductive Section (κ : Type)
  | read (k : κ)
  | fill (k : κ)

@[reducible] def Section.Result (β : Type) : Section κ → Type
  | .read _ => Option β
  | .fill _ => β

def Section.exec (derive : κ → β) : (s : Section κ) → Cell κ β → s.Result β × Cell κ β
  | .read k, c => (if c.key = k then some c.value else none, c)
  | .fill k, c => if c.key = k then (c.value, c) else (derive k, ⟨k, derive k⟩)

/-- Read, and fill on a miss. -/
def lookup (k : κ) : Prog (Section κ) (Section.Result β) β :=
  .call (.read k) fun (hit : Option β) =>
    match hit with
    | some v => .done v
    | none => .call (.fill k) fun (v : β) => .done v

/-- Callers that each look up a key once and compute their answer from its value. -/
def system (derive : κ → β) (key : τ → κ) (answer : τ → β → α) :
    System (Section κ) (Section.Result β) (Cell κ β) τ α Empty where
  exec := Section.exec derive
  handler t := lookup (key t) >>= fun v => .done (answer t v)
  drift e := e.elim

/-- An entry belongs to its key, unless the cell is still empty. -/
def Coherent (derive : κ → β) (empty : κ) (c : Cell κ β) : Prop :=
  c.key ≠ empty → c.value = derive c.key

section
variable (derive : κ → β) (empty : κ) (key : τ → κ) (answer : τ → β → α)

theorem coherent_exec (s : Section κ) (c : Cell κ β) (h : Coherent derive empty c) :
    Coherent derive empty (s.exec derive c).2 := by
  cases s with
  | read k => exact h
  | fill k =>
    simp only [Section.exec]
    split
    · exact h
    · exact fun _ => rfl

/-- Lookups rely on nothing but coherence and return the value of their key. -/
def contract : Contract (system derive key answer) where
  Inv := Coherent derive empty
  Rely _ _ := True
  Pre _ _ := True
  Post t a _ := a = answer t (derive (key t))

theorem contract_valid (hkey : ∀ t, key t ≠ empty) :
    (contract derive empty key answer).Valid where
  refl _ := trivial
  trans _ _ := trivial
  exec s c h _ := ⟨coherent_exec derive empty s c h, trivial⟩
  drift e := e.elim
  handler t c _ := by
    have hhit : ∀ c : Cell κ β, Coherent derive empty c → c.key = key t →
        c.value = derive (key t) := fun c hc hk =>
      (hc fun he => hkey t (hk.symm.trans he)).trans (congrArg derive hk)
    intro c hc _
    refine ⟨trivial, ?_⟩
    by_cases hk : c.key = key t
    · -- a hit under the read lock
      simp only [system, Section.exec, if_pos hk]
      intro _ _ _
      exact congrArg (answer t) (hhit c hc hk)
    · simp only [system, Section.exec, if_neg hk]
      intro c' hc' _
      refine ⟨trivial, ?_⟩
      by_cases hk' : c'.key = key t
      · -- another caller has filled the entry in between
        simp only [Section.exec, if_pos hk']
        intro _ _ _
        exact congrArg (answer t) (hhit c' hc' hk')
      · simp only [Section.exec, if_neg hk']
        intro _ _ _
        rfl

/-- Whatever the other callers do, every answer is computed from the derived
value of its own key. -/
theorem answer_of_run (hkey : ∀ t, key t ≠ empty) {v : β}
    {w : Pool (Section κ) (Section.Result β) (Cell κ β) τ α}
    (h : (system derive key answer).FreeRun ⟨⟨empty, v⟩, []⟩ w) {i : ℕ} {t : τ} {a : α}
    (hi : w.threads[i]? = some ⟨t, some (.done a)⟩) : a = answer t (derive (key t)) := by
  have hvalid := contract_valid derive empty key answer hkey
  have hidle : (contract derive empty key answer).Satisfied
      (⟨⟨empty, v⟩, []⟩ : Pool (Section κ) (Section.Result β) (Cell κ β) τ α) :=
    Contract.satisfied_idle fun hne => absurd rfl hne
  exact hvalid.post (hvalid.run h hidle) hi rfl

end
end Memo
