import R2Bench.Fleet

/-!
# What agents can do

Everything one step of the fleet does to one agent, and what that implies for
the responses that agents execute: each was handed out by a poll of theirs, and
nobody drives load before its start.
-/
namespace R2Bench
open Interleaving Machines

/-! ## One step of an agent -/

/-- How one step of the fleet changes one agent. -/
inductive Turn (env : Env) (f f' : Fleet) (agent : String) : Agent → Agent → Prop
  | stay (s : Agent) : Turn env f f' agent s s
  | interrupt (s : Agent) : Turn env f f' agent s ⟨s.phase, true⟩
  | idle (s : Agent) : Turn env f f' agent s ⟨.idle, s.interrupted⟩
  | poll {arrival : Arrival} (hpolls : arrival.request.pollsFor agent = true)
      (hnew : f'.plane.threads[f.plane.threads.length]? =
        some ⟨arrival, some (handle env arrival)⟩) :
      Turn env f f' agent ⟨.idle, false⟩ ⟨.polling f.plane.threads.length, false⟩
  | given {i : ℕ} {resp : RunResponse} (h : replyOf f.plane i = some (some (.poll (.run resp)))) :
      Turn env f f' agent ⟨.polling i, false⟩ ⟨.warming resp, false⟩
  | hold {resp : RunResponse} {interrupted : Bool} (early : f.clock < resp.startAtEpochMs) :
      Turn env f f' agent ⟨.warming resp, interrupted⟩ ⟨.holding resp, interrupted⟩
  | late {resp : RunResponse} {interrupted : Bool} (h : resp.startAtEpochMs ≤ f.clock) :
      Turn env f f' agent ⟨.warming resp, interrupted⟩ ⟨drive f.clock resp, interrupted⟩
  | release {resp : RunResponse} (h : resp.startAtEpochMs ≤ f.clock) :
      Turn env f f' agent ⟨.holding resp, false⟩ ⟨drive f.clock resp, false⟩
  | watch {resp : RunResponse} {watch watch' : StatusWatch} {interrupted : Bool} :
      Turn env f f' agent ⟨.running resp watch, interrupted⟩ ⟨.running resp watch', interrupted⟩

section
variable {env : Env} {f f' : Fleet}

/-- A step that only moves one agent. -/
def Fleet.Moves (env : Env) (f f' : Fleet) : Prop :=
  (f'.plane = f.plane ∨ ∃ a, (controlPlane env).step f.plane a = some f'.plane) ∧
    ∀ agent, Turn env f f' agent (f.agents agent) (f'.agents agent)

theorem Fleet.moves_setPhase {agent : String} {phase : AgentPhase}
    (h : Turn env f (f.setPhase agent phase) agent (f.agents agent)
      ⟨phase, (f.agents agent).interrupted⟩) : f.Moves env (f.setPhase agent phase) := by
  refine ⟨.inl rfl, fun other => ?_⟩
  by_cases hother : other = agent
  · subst hother
    simpa [setPhase] using h
  · have hsame : (f.setPhase agent phase).agents other = f.agents other := by
      simp [setPhase, hother]
    rw [hsame]
    exact .stay _

/-- What the watch of a running agent does stays within its load. -/
theorem Fleet.moves_watch {agent : String} {resp : RunResponse} {watch watch' : StatusWatch}
    (hphase : (f.agents agent).phase = .running resp watch) :
    f.Moves env (f.setPhase agent (.running resp watch')) := by
  have hagent : f.agents agent = ⟨.running resp watch, (f.agents agent).interrupted⟩ := by
    rw [← hphase]
  apply moves_setPhase
  rw [hagent]
  exact .watch

theorem Fleet.moves_send {agent : String} {arrival : Arrival} {phase : ℕ → AgentPhase}
    (hsend : f.send env agent arrival phase = some f')
    (h : f'.plane.threads[f.plane.threads.length]? = some ⟨arrival, some (handle env arrival)⟩ →
      Turn env f f' agent (f.agents agent)
        ⟨phase f.plane.threads.length, (f.agents agent).interrupted⟩) : f.Moves env f' := by
  obtain ⟨plane, hplane, rfl⟩ := Option.map_eq_some_iff.mp hsend
  have hnew : plane.threads[f.plane.threads.length]? =
      some ⟨arrival, some (handle env arrival)⟩ := by
    obtain rfl := Option.some.inj hplane
    simp [controlPlane]
  refine ⟨.inr ⟨_, hplane⟩, fun other => ?_⟩
  by_cases hother : other = agent
  · subst hother
    simpa [setPhase] using h hnew
  · simpa [setPhase, hother] using Turn.stay (f.agents other)

/-- Everything one step can do. -/
theorem Fleet.moves {act : FleetAct} (h : f.step env act = some f') : f.Moves env f' := by
  cases act with
  | plane a =>
    obtain ⟨plane, hplane, rfl⟩ := Option.map_eq_some_iff.mp h
    exact ⟨.inr ⟨a, hplane⟩, fun agent => .stay _⟩
  | poll agent arrival =>
    simp only [step] at h
    split at h
    · case h_1 hs =>
      split_ifs at h with hpolls
      exact moves_send h fun hnew => by simpa [hs] using Turn.poll hpolls hnew
    · cases h
  | answered agent =>
    simp only [step] at h
    split at h
    · case h_1 i hs =>
      split at h
      · case h_1 resp hreply =>
        cases h
        apply moves_setPhase
        rw [execute]
        split
        · exact .idle _
        · rw [hs]
          exact .given hreply
      · cases h
        exact moves_setPhase (.idle _)
      · cases h
    · cases h
  | pollFailed agent =>
    simp only [step] at h
    split at h
    · cases h
      exact moves_setPhase (.idle _)
    · cases h
  | warmed agent =>
    simp only [step] at h
    split at h
    · case h_1 resp hs =>
      cases h
      apply moves_setPhase
      have hagent : f.agents agent = ⟨.warming resp, (f.agents agent).interrupted⟩ := by
        rw [← hs]
      rw [hagent]
      split
      · case isTrue hearly => exact .hold hearly
      · case isFalse hlate => exact .late (not_lt.mp hlate)
    · cases h
  | released agent =>
    simp only [step] at h
    split at h
    · cases h
      exact moves_setPhase (.idle _)
    · case h_2 resp hs =>
      split_ifs at h with hstart
      cases h
      apply moves_setPhase
      rw [hs]
      exact .release hstart
    · cases h
  | ask agent arrival =>
    simp only [step] at h
    split at h
    · case h_1 resp tick hs =>
      split_ifs at h with hask
      have hagent : f.agents agent =
          ⟨.running resp ⟨tick, none, false⟩, (f.agents agent).interrupted⟩ := by rw [← hs]
      apply moves_send h
      intro _
      rw [hagent]
      exact .watch
    · cases h
  | told agent =>
    simp only [step] at h
    split at h
    · case h_1 resp tick i cancelled hs =>
      split at h
      · cases h
        exact moves_watch hs
      · cases h
        exact moves_watch hs
      · cases h
    · cases h
  | finished agent =>
    simp only [step] at h
    split at h
    · split_ifs at h
      cases h
      exact moves_setPhase (.idle _)
    · cases h
  | interrupt agent =>
    cases h
    refine ⟨.inl rfl, fun other => ?_⟩
    by_cases hother : other = agent
    · subst hother
      simpa using Turn.interrupt (f.agents other)
    · simpa [hother] using Turn.stay (f.agents other)

end

/-! ## What agents hold -/

/-- An answer stays with its thread. -/
theorem Handed.step {env : Env} {v v' : Plane} {a : Action Arrival ℕ} {i : ℕ}
    {body : AgentPollRequest} {r : RunResponse} (h : Handed v i body r)
    (hstep : (controlPlane env).step v a = some v') : Handed v' i body r := by
  obtain ⟨arrival, hi, hreq⟩ := h
  exact ⟨arrival, (controlPlane env).step_finished hstep hi, hreq⟩

theorem replyOf_eq {v : Plane} {i : ℕ} {reply : Reply} (h : replyOf v i = some (some reply)) :
    ∃ a, v.threads[i]? = some ⟨a, some (.done reply)⟩ := by
  unfold replyOf at h
  split at h
  · cases h
  · case h_2 arrival reply' hi =>
    have hsame : reply' = reply := by simpa using h
    subst hsame
    exact ⟨arrival, hi⟩
  · cases h

theorem Request.exists_of_pollsFor {agent : String} {request : Request}
    (h : request.pollsFor agent = true) : ∃ body, request = .poll body := by
  cases request with
  | poll body => exact ⟨body, rfl⟩
  | _ => cases h

structure Fleet.Inv (env : Env) (f : Fleet) : Prop where
  reachable : Reachable env f.plane
  awaited : ∀ agent i, (f.agents agent).phase = .polling i →
    ∃ u body, f.plane.threads[i]? = some u ∧ u.request.request = .poll body
  given : ∀ agent resp, (f.agents agent).phase.resp? = some resp →
    ∃ i body, Handed f.plane i body resp
  started : ∀ agent resp watch, (f.agents agent).phase = .running resp watch →
    resp.startAtEpochMs ≤ f.clock

namespace Fleet
variable {env : Env} {f f' : Fleet}

theorem Moves.clock_le (h : f.Moves env f') (hf : Reachable env f.plane) :
    f.clock ≤ f'.clock := by
  rcases h.1 with hsame | ⟨a, ha⟩
  · exact le_of_eq (by rw [clock, clock, hsame])
  · exact (hf.evolves_step ha).clock

theorem Moves.handed (h : f.Moves env f') {i : ℕ} {body : AgentPollRequest} {r : RunResponse}
    (hr : Handed f.plane i body r) : Handed f'.plane i body r := by
  rcases h.1 with hsame | ⟨a, ha⟩
  · rwa [hsame]
  · exact hr.step ha

/-- A request keeps its thread. -/
theorem Moves.awaited (h : f.Moves env f') {i : ℕ} {body : AgentPollRequest}
    (hi : ∃ u, f.plane.threads[i]? = some u ∧ u.request.request = .poll body) :
    ∃ u, f'.plane.threads[i]? = some u ∧ u.request.request = .poll body := by
  obtain ⟨u, hu, hreq⟩ := hi
  rcases h.1 with hsame | ⟨a, ha⟩
  · exact ⟨u, by rwa [hsame], hreq⟩
  · obtain ⟨u', hu', hreq'⟩ :=
      (controlPlane env).request_of_run (System.Run.single _ trivial ha) hu
    exact ⟨u', hu', by rw [hreq', hreq]⟩

theorem idle_inv (clock : ℤ) : (idleFleet clock).Inv env where
  reachable := ⟨clock, Relation.ReflTransGen.refl⟩
  awaited agent i h := by cases h
  given agent resp h := by cases h
  started agent resp watch h := by cases h

theorem Inv.moves (hf : f.Inv env) (h : f.Moves env f') : f'.Inv env where
  reachable := by
    rcases h.1 with hsame | ⟨a, ha⟩
    · rw [hsame]
      exact hf.reachable
    · exact hf.reachable.step ha
  awaited agent i hi := by
    have hturn := h.2 agent
    have hkept : (f.agents agent).phase = .polling i →
        ∃ u body, f'.plane.threads[i]? = some u ∧ u.request.request = .poll body := by
      intro hpolling
      obtain ⟨u, body, hu⟩ := hf.awaited agent i hpolling
      obtain ⟨u', hu'⟩ := h.awaited ⟨u, hu⟩
      exact ⟨u', body, hu'⟩
    generalize hold : f.agents agent = s at hturn hkept
    generalize hnew : f'.agents agent = s' at hturn hi
    cases hturn with
    | stay => exact hkept hi
    | interrupt => exact hkept hi
    | @poll arrival hpolls hthread =>
      cases hi
      obtain ⟨body, hbody⟩ := Request.exists_of_pollsFor hpolls
      exact ⟨_, body, hthread, hbody⟩
    | _ => cases hi
  given agent resp hresp := by
    have hturn := h.2 agent
    have hkept : (f.agents agent).phase.resp? = some resp →
        ∃ i body, Handed f'.plane i body resp := by
      intro hold
      obtain ⟨i, body, hhanded⟩ := hf.given agent resp hold
      exact ⟨i, body, h.handed hhanded⟩
    have hawaited := hf.awaited agent
    generalize hold : f.agents agent = s at hturn hkept hawaited
    generalize hnew : f'.agents agent = s' at hturn hresp
    cases hturn with
    | idle => cases hresp
    | poll => cases hresp
    | @given i resp' hreply =>
      have heq : resp' = resp := Option.some.inj hresp
      subst heq
      obtain ⟨u, body, hu, hreq⟩ := hawaited i rfl
      obtain ⟨a, ha⟩ := replyOf_eq hreply
      obtain rfl : u = _ := Option.some.inj (hu.symm.trans ha)
      exact ⟨i, body, h.handed ⟨a, ha, hreq⟩⟩
    | _ => exact hkept hresp
  started agent resp watch hrunning := by
    have hturn := h.2 agent
    have hclock := h.clock_le hf.reachable
    have hkept : ∀ watch, (f.agents agent).phase = .running resp watch →
        resp.startAtEpochMs ≤ f'.clock := fun watch hold =>
      (hf.started agent resp watch hold).trans hclock
    generalize hold : f.agents agent = s at hturn hkept
    generalize hnew : f'.agents agent = s' at hturn hrunning
    cases hturn with
    | stay | interrupt => exact hkept watch hrunning
    | late hstart | release hstart =>
      cases hrunning
      exact hstart.trans hclock
    | watch =>
      cases hrunning
      exact hkept _ rfl
    | _ => cases hrunning

end Fleet

/-- In every state of a run of the fleet. -/
theorem Fleet.inv {env : Env} {clock : ℤ} {acts : List FleetAct} {f : Fleet}
    (run : Run (Fleet.step env) (fun _ _ => True) (idleFleet clock) acts f) : f.Inv env :=
  run.invariant (idle_inv clock) fun _ _ _ _ hstep hinv => hinv.moves (moves hstep)

end R2Bench
