import R2Bench.Interleaving

/-!
# Contracts for interleaved handlers

A contract states what a handler may rely on while it waits: an invariant of
the store and a relation that every step of the others obeys. Its proof
obligation is one pass over the handler's program; the rules below carry the
result to every run of a pool.
-/
namespace Interleaving
variable {Op : Type} {Res : Op → Type} {σ τ α ε : Type} {S : System Op Res σ τ α ε}

/-- `Inv` holds between any two steps, `Rely` relates the stores before and
after steps of the others, `Pre` is what an operation needs, and `Post` is what
a reply guarantees from then on. -/
structure Contract (S : System Op Res σ τ α ε) where
  Inv : σ → Prop
  Rely : σ → σ → Prop
  Pre : Op → σ → Prop
  Post : τ → α → σ → Prop

namespace Contract

/-- From store `s`, the program meets its preconditions and returns in `Q`,
whatever the others do between its operations. -/
def Wp {β : Type} (c : Contract S) (Q : β → σ → Prop) : Prog Op Res β → σ → Prop
  | .done b, s => ∀ s', c.Inv s' → c.Rely s s' → Q b s'
  | .call op k, s => ∀ s', c.Inv s' → c.Rely s s' →
      c.Pre op s' ∧ c.Wp Q (k (S.exec op s').1) (S.exec op s').2

/-- The program of request `t` meets its preconditions and its postcondition. -/
abbrev Holds (c : Contract S) (t : τ) (p : Prog Op Res α) (s : σ) : Prop := c.Wp (c.Post t) p s

section Wp
variable {β γ : Type} {c : Contract S} {Q : β → σ → Prop}

@[simp] theorem wp_done (b : β) (s : σ) :
    c.Wp Q (.done b) s ↔ ∀ s', c.Inv s' → c.Rely s s' → Q b s' := Iff.rfl

@[simp] theorem wp_call (op : Op) (k : Res op → Prog Op Res β) (s : σ) :
    c.Wp Q (.call op k) s ↔ ∀ s', c.Inv s' → c.Rely s s' →
      c.Pre op s' ∧ c.Wp Q (k (S.exec op s').1) (S.exec op s').2 := Iff.rfl

theorem Wp.weaken (trans : ∀ {s₁ s₂ s₃}, c.Rely s₁ s₂ → c.Rely s₂ s₃ → c.Rely s₁ s₃)
    {p : Prog Op Res β} {s s' : σ} (h : c.Wp Q p s) (hr : c.Rely s s') : c.Wp Q p s' := by
  cases p with
  | done b => exact fun s'' hi hr' => h s'' hi (trans hr hr')
  | call op k => exact fun s'' hi hr' => h s'' hi (trans hr hr')

/-- A program starts by waiting, so it may as well start a little later. -/
theorem wp_of_wait (refl : ∀ s, c.Rely s s) {p : Prog Op Res β} {s : σ}
    (h : ∀ s', c.Inv s' → c.Rely s s' → c.Wp Q p s') : c.Wp Q p s := by
  cases p with
  | done b => exact fun s' hi hr => h s' hi hr s' hi (refl s')
  | call op k => exact fun s' hi hr => h s' hi hr s' hi (refl s')

/-- Sequencing: the second program starts in what the first one returns in. -/
theorem Wp.bind (refl : ∀ s, c.Rely s s) {p : Prog Op Res γ} {f : γ → Prog Op Res β} {s : σ}
    (h : c.Wp (fun a s => c.Wp Q (f a) s) p s) : c.Wp Q (p >>= f) s := by
  induction p generalizing s with
  | done a => exact wp_of_wait refl h
  | call op k ih => exact fun s' hi hr => ⟨(h s' hi hr).1, ih _ (h s' hi hr).2⟩

/-- Operations that need nothing, and a result of which nothing is asked. -/
theorem wp_of_uses {T : Op → Prop} (hT : ∀ op s, T op → c.Pre op s) (hQ : ∀ b s, Q b s)
    {p : Prog Op Res β} (hp : p.Uses T) (s : σ) : c.Wp Q p s := by
  induction p generalizing s with
  | done b => exact fun s' _ _ => hQ b s'
  | call op k ih => exact fun s' _ _ => ⟨hT op s' hp.1, ih _ (hp.2 _) _⟩

theorem Wp.mono {Q' : β → σ → Prop} (h : ∀ b s, Q b s → Q' b s) {p : Prog Op Res β} {s : σ}
    (hp : c.Wp Q p s) : c.Wp Q' p s := by
  induction p generalizing s with
  | done b => exact fun s' hi hr => h b s' (hp s' hi hr)
  | call op k ih => exact fun s' hi hr => ⟨(hp s' hi hr).1, ih _ (hp s' hi hr).2⟩

/-- What a reply guarantees does not matter on the way to it. -/
theorem wp_withPost (P : τ → α → σ → Prop) {p : Prog Op Res β} {s : σ} :
    ({ c with Post := P } : Contract S).Wp Q p s ↔ c.Wp Q p s := by
  induction p generalizing s with
  | done b => rfl
  | call op k ih =>
    simp only [wp_call, ih]

/-- What the program's operations and the others preserve still holds at its end. -/
theorem wp_of_stable {T : Op → Prop} {I : σ → Prop} (hT : ∀ op s, T op → c.Pre op s)
    (hexec : ∀ op s, T op → I s → I (S.exec op s).2) (hrely : ∀ s s', I s → c.Rely s s' → I s')
    {p : Prog Op Res β} (hp : p.Uses T) {s : σ} (hs : I s) : c.Wp (fun _ => I) p s := by
  induction p generalizing s with
  | done b => exact fun s' _ hr => hrely s s' hs hr
  | call op k ih =>
    intro s' _ hr
    exact ⟨hT op s' hp.1, ih _ (hp.2 _) (hexec op s' hp.1 (hrely s s' hs hr))⟩

end Wp

/-- What makes a contract sound for every handler of the system at once. -/
structure Valid (c : Contract S) : Prop where
  refl : ∀ s, c.Rely s s
  trans : ∀ {s₁ s₂ s₃}, c.Rely s₁ s₂ → c.Rely s₂ s₃ → c.Rely s₁ s₃
  exec : ∀ op s, c.Inv s → c.Pre op s → c.Inv (S.exec op s).2 ∧ c.Rely s (S.exec op s).2
  drift : ∀ e s, c.Inv s → c.Inv (S.drift e s) ∧ c.Rely s (S.drift e s)
  handler : ∀ t s, c.Inv s → c.Holds t (S.handler t) s

/-- The thread at position `i` keeps what its program promised at the start of
a run (or at its arrival) when the steps of all others obey `Rely`. -/
theorem holds_of_run {c : Contract S} (refl : ∀ s, c.Rely s s)
    (trans : ∀ {s₁ s₂ s₃}, c.Rely s₁ s₂ → c.Rely s₂ s₃ → c.Rely s₁ s₃)
    {C : Pool Op Res σ τ α → Action τ ε → Prop} {w w' : Pool Op Res σ τ α} {i : ℕ}
    (h : S.Run C w w') (hinv : c.Inv w.store)
    (hstep : ∀ v a v', S.Run C w v → C v a → S.step v a = some v' → c.Inv v.store →
      c.Inv v'.store ∧ (a ≠ .exec i → c.Rely v.store v'.store))
    (hold : ∀ u p, w.threads[i]? = some u → u.rest = some p → c.Holds u.request p w.store)
    (hnew : w.threads.length ≤ i → ∀ t s, c.Inv s → c.Holds t (S.handler t) s) :
    c.Inv w'.store ∧ ∀ u p, w'.threads[i]? = some u → u.rest = some p →
      c.Holds u.request p w'.store := by
  refine System.Run.invariant S h
    (I := fun v => w.threads.length ≤ v.threads.length ∧ c.Inv v.store ∧
      ∀ u p, v.threads[i]? = some u → u.rest = some p → c.Holds u.request p v.store)
    ⟨le_rfl, hinv, hold⟩ ?_ |>.2
  rintro v a v' hv hc hs ⟨hlen, hi, ht⟩
  obtain ⟨hi', hrely⟩ := hstep v a v' hv hc hs hi
  refine ⟨hlen.trans (S.step_length_le hs), hi', ?_⟩
  intro u' p hu' hp
  rcases S.step_thread_from hs hu' with ⟨hu, ha⟩ | ⟨t, rfl, hle, rfl⟩ |
    ⟨t, op, k, rfl, hu, hst, rfl⟩ | hnone
  · exact (ht u' p hu hp).weaken trans (hrely ha)
  · obtain rfl : _ = p := Option.some.inj hp
    exact hnew (hlen.trans hle) t _ hi'
  · obtain rfl : _ = p := Option.some.inj hp
    rw [hst]
    exact (ht _ _ hu rfl v.store hi (refl _)).2
  · rw [hnone] at hp
    cases hp

/-- What such a thread answers when the run lets it finish. -/
theorem post_of_run {c : Contract S} (refl : ∀ s, c.Rely s s)
    (trans : ∀ {s₁ s₂ s₃}, c.Rely s₁ s₂ → c.Rely s₂ s₃ → c.Rely s₁ s₃)
    {C : Pool Op Res σ τ α → Action τ ε → Prop} {w w' : Pool Op Res σ τ α} {i : ℕ}
    (h : S.Run C w w') (hinv : c.Inv w.store)
    (hstep : ∀ v a v', S.Run C w v → C v a → S.step v a = some v' → c.Inv v.store →
      c.Inv v'.store ∧ (a ≠ .exec i → c.Rely v.store v'.store))
    {t : τ} {p : Prog Op Res α} (hi : w.threads[i]? = some ⟨t, some p⟩)
    (hp : c.Holds t p w.store) {u : Thread Op Res τ α} {a : α} (hu : w'.threads[i]? = some u)
    (ha : u.rest = some (.done a)) : c.Post u.request a w'.store := by
  have hholds := holds_of_run refl trans h hinv hstep ?_ ?_
  · exact hholds.2 u _ hu ha w'.store hholds.1 (refl _)
  · intro u₀ p₀ hu₀ hp₀
    obtain rfl : u₀ = _ := Option.some.inj (hu₀.symm.trans hi)
    obtain rfl : p₀ = _ := Option.some.inj hp₀.symm
    exact hp
  · exact fun hle => absurd (List.getElem?_eq_some_iff.mp hi).1 (not_lt.mpr hle)

/-- Where the run's own condition gives the invariant before every step, nothing has
to preserve it: every thread keeps what its program promised. -/
theorem holds_of_guarded {c : Contract S} (refl : ∀ s, c.Rely s s)
    (trans : ∀ {s₁ s₂ s₃}, c.Rely s₁ s₂ → c.Rely s₂ s₃ → c.Rely s₁ s₃)
    {C : Pool Op Res σ τ α → Action τ ε → Prop} {w w' : Pool Op Res σ τ α} (h : S.Run C w w')
    (hstep : ∀ v a v', S.Run C w v → C v a → S.step v a = some v' →
      c.Inv v.store ∧ c.Rely v.store v'.store)
    (hnew : ∀ t s, c.Holds t (S.handler t) s)
    (hold : ∀ (i : ℕ) u p, w.threads[i]? = some u → u.rest = some p →
      c.Holds u.request p w.store) :
    ∀ (i : ℕ) u p, w'.threads[i]? = some u → u.rest = some p → c.Holds u.request p w'.store := by
  refine System.Run.invariant S h
    (I := fun v => ∀ (i : ℕ) u p, v.threads[i]? = some u → u.rest = some p →
      c.Holds u.request p v.store) hold ?_
  intro v a v' hv hc hs ht i u' p hu' hp
  obtain ⟨hi, hrely⟩ := hstep v a v' hv hc hs
  rcases S.step_thread_from hs hu' with ⟨hu, -⟩ | ⟨t, -, -, rfl⟩ |
    ⟨t, op, k, -, hu, hst, rfl⟩ | hnone
  · exact (ht i u' p hu hp).weaken trans hrely
  · obtain rfl : _ = p := Option.some.inj hp
    exact hnew t _
  · obtain rfl : _ = p := Option.some.inj hp
    rw [hst]
    exact (ht i _ _ hu rfl v.store hi (refl _)).2
  · rw [hnone] at hp
    cases hp

/-- The whole pool meets the contract. -/
def Satisfied (c : Contract S) (w : Pool Op Res σ τ α) : Prop :=
  c.Inv w.store ∧ ∀ (i : ℕ) u p, w.threads[i]? = some u → u.rest = some p →
    c.Holds u.request p w.store

theorem satisfied_idle {c : Contract S} {s : σ} (h : c.Inv s) : c.Satisfied ⟨s, []⟩ :=
  ⟨h, by simp⟩

/-- In a satisfied pool a pending operation has what it needs. -/
theorem Valid.pre {c : Contract S} (hc : c.Valid) {w : Pool Op Res σ τ α} (hw : c.Satisfied w)
    {i : ℕ} {op : Op} (h : w.next? i = some op) : c.Pre op w.store := by
  obtain ⟨u, hu, hnext⟩ := Option.bind_eq_some_iff.mp h
  obtain ⟨k, hk⟩ := Thread.next?_eq_some hnext
  exact (hw.2 i u _ hu hk w.store hw.1 (hc.refl _)).1

/-- In a satisfied pool every step keeps the invariant and obeys the rely. -/
theorem Valid.guarantee {c : Contract S} (hc : c.Valid) {w w' : Pool Op Res σ τ α}
    {a : Action τ ε} (hw : c.Satisfied w) (h : S.step w a = some w') :
    c.Inv w'.store ∧ c.Rely w.store w'.store := by
  obtain ⟨t, rfl, rfl⟩ | ⟨j, t, op, k, rfl, hj, rfl⟩ | ⟨j, t, op, k, rfl, hj, rfl⟩ |
    ⟨e, rfl, rfl⟩ := S.step_cases h
  · exact ⟨hw.1, hc.refl _⟩
  · exact hc.exec op w.store hw.1 (hw.2 j _ _ hj rfl w.store hw.1 (hc.refl _)).1
  · exact ⟨hw.1, hc.refl _⟩
  · exact hc.drift e w.store hw.1

theorem Valid.step {c : Contract S} (hc : c.Valid) {w w' : Pool Op Res σ τ α}
    {a : Action τ ε} (hw : c.Satisfied w) (h : S.step w a = some w') : c.Satisfied w' := by
  have hg := hc.guarantee hw h
  refine ⟨hg.1, fun i u p hu hp => ?_⟩
  refine (holds_of_run (C := fun v b => v = w ∧ b = a) (w := w) (i := i) hc.refl hc.trans
    (Relation.ReflTransGen.single ⟨a, ⟨rfl, rfl⟩, h⟩) hw.1 ?_ (hw.2 i)
    fun _ => hc.handler).2 u p hu hp
  rintro v b v' - ⟨rfl, rfl⟩ hs -
  have hsame : v' = w' := Option.some.inj (hs.symm.trans h)
  subst hsame
  exact ⟨hg.1, fun _ => hg.2⟩

/-- A valid contract is satisfied along every run. -/
theorem Valid.run {c : Contract S} (hc : c.Valid) {w w' : Pool Op Res σ τ α}
    (h : S.FreeRun w w') (hw : c.Satisfied w) : c.Satisfied w' :=
  System.Run.invariant S h hw fun _ _ _ _ _ hs hv => hc.step hv hs

theorem Valid.rely_run {c : Contract S} (hc : c.Valid) {w w' : Pool Op Res σ τ α}
    (h : S.FreeRun w w') (hw : c.Satisfied w) : c.Rely w.store w'.store := by
  refine (System.Run.invariant S h (I := fun v => c.Satisfied v ∧ c.Rely w.store v.store)
    ⟨hw, hc.refl _⟩ ?_).2
  rintro v a v' - - hs ⟨hv, hr⟩
  exact ⟨hc.step hv hs, hc.trans hr (hc.guarantee hv hs).2⟩

/-- A reply already given still has its postcondition. -/
theorem Valid.post {c : Contract S} (hc : c.Valid) {w : Pool Op Res σ τ α}
    (hw : c.Satisfied w) {i : ℕ} {u : Thread Op Res τ α} {a : α} (hu : w.threads[i]? = some u)
    (ha : u.rest = some (.done a)) : c.Post u.request a w.store :=
  hw.2 i u _ hu ha w.store hw.1 (hc.refl _)

end Contract

namespace System
variable (S)

/-- Every unfinished program of the pool satisfies `Φ`, indexed by its request,
at every operation it can still await. -/
def Throughout (Φ : τ → (op : Op) → (Res op → Prog Op Res α) → Prop)
    (w : Pool Op Res σ τ α) : Prop :=
  ∀ (i : ℕ) u p, w.threads[i]? = some u → u.rest = some p → p.Everywhere (Φ u.request)

/-- What holds throughout every handler's program holds throughout every pool
reached from an idle one. -/
theorem throughout_of_run {Φ : τ → (op : Op) → (Res op → Prog Op Res α) → Prop}
    (hΦ : ∀ t, (S.handler t).Everywhere (Φ t)) {w w' : Pool Op Res σ τ α}
    (h : S.FreeRun w w') (hw : Throughout Φ w) : Throughout Φ w' := by
  apply System.Run.invariant S h hw
  intro v a v' _ _ hs hv i u' p hu' hp
  rcases S.step_thread_from hs hu' with ⟨hu, -⟩ | ⟨t, -, -, rfl⟩ | ⟨t, op, k, -, hu, -, rfl⟩ | hnone
  · exact hv i u' p hu hp
  · obtain rfl : _ = p := Option.some.inj hp
    exact hΦ t
  · obtain rfl : _ = p := Option.some.inj hp
    exact (hv i _ _ hu rfl).2 _
  · rw [hnone] at hp
    cases hp

/-- The rest of a thread's program is part of it: a thread keeps within the
operations its program is known to use. -/
theorem uses_of_run {T : Op → Prop} {w w' : Pool Op Res σ τ α} (h : S.FreeRun w w') {i : ℕ}
    {t : τ} {p : Prog Op Res α} (hi : w.threads[i]? = some ⟨t, some p⟩) (hp : p.Uses T)
    {op : Op} (hnext : w'.next? i = some op) : T op := by
  have hinv : ∃ u, w'.threads[i]? = some u ∧ ∀ q, u.rest = some q → q.Uses T := by
    refine System.Run.invariant S h
      (I := fun v => ∃ u, v.threads[i]? = some u ∧ ∀ q, u.rest = some q → q.Uses T)
      ⟨_, hi, fun q hq => by rwa [← Option.some.inj hq]⟩ ?_
    rintro v a v' - - hs ⟨u, hu, hq⟩
    rcases S.step_thread hs hu with ⟨hsame, -⟩ | ⟨op, k, -, hk, -, hmove⟩ | hnone
    · exact ⟨u, hsame, hq⟩
    · refine ⟨_, hmove, fun q hq' => ?_⟩
      rw [← Option.some.inj hq']
      exact (hq _ hk).2 _
    · exact ⟨_, hnone, fun q hq' => by cases hq'⟩
  obtain ⟨u, hu, hq⟩ := hinv
  simp only [Pool.next?, hu, Option.bind_some] at hnext
  obtain ⟨k, hk⟩ := Thread.next?_eq_some hnext
  exact (hq _ hk).1

/-- A request keeps its position for the rest of the run. -/
theorem request_of_run {w w' : Pool Op Res σ τ α} (h : S.FreeRun w w') {i : ℕ}
    {u : Thread Op Res τ α} (hu : w.threads[i]? = some u) :
    ∃ u', w'.threads[i]? = some u' ∧ u'.request = u.request := by
  refine System.Run.invariant S h
    (I := fun v => ∃ u', v.threads[i]? = some u' ∧ u'.request = u.request) ⟨u, hu, rfl⟩ ?_
  rintro v a v' - - hs ⟨u', hu', hreq⟩
  rcases S.step_thread hs hu' with ⟨hsame, -⟩ | ⟨op, k, -, -, -, hnext⟩ | hnone
  · exact ⟨u', hsame, hreq⟩
  · exact ⟨_, hnext, hreq⟩
  · exact ⟨_, hnone, hreq⟩

/-- What the run's condition asks of every arrival is true of every request in service. -/
theorem requests_of_run {C : Pool Op Res σ τ α → Action τ ε → Prop} {P : τ → Prop}
    {w w' : Pool Op Res σ τ α} (h : S.Run C w w') (hC : ∀ v t, C v (.arrive t) → P t)
    (hw : ∀ (i : ℕ) u p, w.threads[i]? = some u → u.rest = some p → P u.request) :
    ∀ (i : ℕ) u p, w'.threads[i]? = some u → u.rest = some p → P u.request := by
  refine System.Run.invariant S h
    (I := fun v => ∀ (i : ℕ) u p, v.threads[i]? = some u → u.rest = some p → P u.request) hw ?_
  intro v a v' _ hc hs hv i u' p hu' hp
  rcases S.step_thread_from hs hu' with ⟨hu, -⟩ | ⟨t, rfl, -, rfl⟩ | ⟨t, op, k, -, hu, -, rfl⟩ |
    hnone
  · exact hv i u' p hu hp
  · exact hC v t hc
  · exact hv i ⟨t, some (.call op k)⟩ _ hu rfl
  · rw [hnone] at hp
    cases hp

/-- Serving one request to its end without interference is a run of the pool. -/
theorem run_alone {w : Pool Op Res σ τ α} {i : ℕ} {t : τ} {p : Prog Op Res α}
    (hi : w.threads[i]? = some ⟨t, some p⟩) :
    S.Run (fun _ a => a = .exec i) w
      ⟨(p.run S.exec w.store).2, w.threads.set i ⟨t, some (.done (p.run S.exec w.store).1)⟩⟩ := by
  induction p generalizing w with
  | done a =>
    obtain ⟨hlt, hget⟩ := List.getElem?_eq_some_iff.mp hi
    rw [Prog.run_done, ← hget, List.set_getElem_self]
    exact Relation.ReflTransGen.refl
  | call op k ih =>
    have hlt := (List.getElem?_eq_some_iff.mp hi).1
    refine Relation.ReflTransGen.head
      (b := ⟨(S.exec op w.store).2, w.threads.set i ⟨t, some (k (S.exec op w.store).1)⟩⟩)
      ⟨.exec i, rfl, by simp only [step, hi]⟩ ?_
    have hrest := ih (S.exec op w.store).1 (w := ⟨(S.exec op w.store).2,
      w.threads.set i ⟨t, some (k (S.exec op w.store).1)⟩⟩) (by simp [hlt])
    simpa only [Prog.run_call, List.set_set, Run] using hrest

end System
end Interleaving
