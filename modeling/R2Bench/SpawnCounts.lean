import R2Bench.Reporting

/-!
# The count of a spawn

The Worker writes whatever total a report carries over the one before. Totals grow
within one process; a process that comes after another begins at zero, and a report
that was overtaken brings an old total back.
-/
namespace R2Bench
open Interleaving Machines Tables

/-! ## What the control plane does to the row -/

/-- Thread `i` has answered with success. -/
def storedAt (v : Plane) (i : ℕ) : Prop := ∃ t, v.threads[i]? = some ⟨t, some (.done .ok)⟩

def Taken.Stored (v : Plane) (x : Taken) : Prop := ∃ i, x.thread = some i ∧ storedAt v i

theorem count_updateWhere {p : SpawnRow → Bool} {f : SpawnRow → SpawnRow} {rows : List SpawnRow}
    (hid : ∀ r, (f r).spawnId = r.spawnId) (hcount : ∀ r, (f r).count = r.count) {r' : SpawnRow}
    (h : r' ∈ updateWhere p f rows) : ∃ r ∈ rows, r.spawnId = r'.spawnId ∧ r.count = r'.count := by
  obtain ⟨r, hr, rfl⟩ := mem_updateWhere.mp h
  refine ⟨r, hr, ?_⟩
  split_ifs
  · exact ⟨(hid r).symm, (hcount r).symm⟩
  · exact ⟨rfl, rfl⟩

/-- A row of the spawn keeps its count, or is new with a count of zero. -/
def CountKept (spawnId : String) (db db' : Database) : Prop :=
  ∀ r' ∈ db'.spawns, r'.spawnId = spawnId →
    (∃ r ∈ db.spawns, r.spawnId = spawnId ∧ r.count = r'.count) ∨
    (∀ r ∈ db.spawns, r.spawnId ≠ spawnId) ∧ r'.count = 0

theorem CountKept.of_rows {spawnId : String} {db db' : Database}
    (h : ∀ r' ∈ db'.spawns, ∃ r ∈ db.spawns, r.spawnId = r'.spawnId ∧ r.count = r'.count) :
    CountKept spawnId db db' := by
  intro r' hr' hid
  obtain ⟨r, hr, hsame, hcount⟩ := h r' hr'
  exact .inl ⟨r, hr, hsame.trans hid, hcount⟩

theorem CountKept.of_eq {spawnId : String} {db db' : Database} (h : db'.spawns = db.spawns) :
    CountKept spawnId db db' := .of_rows fun r' hr' => ⟨r', h ▸ hr', rfl, rfl⟩

theorem CountKept.update {spawnId : String} {db db' : Database} {p : SpawnRow → Bool}
    {f : SpawnRow → SpawnRow} (h : db'.spawns = updateWhere p f db.spawns)
    (hid : ∀ r, (f r).spawnId = r.spawnId) (hcount : ∀ r, (f r).count = r.count) :
    CountKept spawnId db db' :=
  .of_rows fun _ hr' => count_updateWhere hid hcount (h ▸ hr')

/-- Only a report for the spawn writes its count. -/
theorem Statement.exec_count (st : Statement) (w : World) (spawnId : String)
    (h : ∀ id report now, st = .recordMetrics id report now → report.spawnId ≠ spawnId) :
    CountKept spawnId w.db (st.exec w).2.db := by
  cases st with
  | recordMetrics id report now =>
    simp only [exec, Database.recordMetrics]
    split_ifs
    · exact .of_eq rfl
    · intro r' hr' hid
      obtain ⟨r, hr, rfl⟩ := mem_updateWhere.mp hr'
      have hne := h id report now rfl
      left
      refine ⟨r, hr, ?_⟩
      split_ifs at hid ⊢ with hrep
      · exact absurd ((of_decide_eq_true hrep).symm.trans hid) hne
      · exact ⟨hid, rfl⟩
  | claimSlot c =>
    rcases w.db.claimSlot_cases c with ⟨h, -⟩ | ⟨h, -⟩ | ⟨h, hc⟩ <;>
      simp only [exec, h, World.attempt]
    · exact .of_eq rfl
    · exact .of_eq rfl
    · intro r' hr' hid
      rcases List.mem_append.mp hr' with hold | hnew
      · exact .inl ⟨r', hold, hid, rfl⟩
      · rw [List.mem_singleton.mp hnew] at hid ⊢
        have hspawn : c.spawnId = spawnId := hid
        exact .inr ⟨fun r hr => hspawn ▸ hc.2 r hr, rfl⟩
  | insertJob terms stopAt =>
    simp only [exec, Database.insertJob]
    split_ifs <;> exact .of_eq rfl
  | touchSpawn | failSpawn | finishSpawn | failStale | finaliseJob =>
    exact .update rfl (fun _ => rfl) fun _ => rfl
  | _ => exact .of_eq rfl

/-- What one step of the control plane does for the spawn: a report is stored and the
row shows its total, or counts and answers to reports stay as they were. -/
inductive SpawnMoved (spawnId : String) (v v' : Plane) (a : Action Arrival ℕ) : Prop
  | stored {i : ℕ} {u : Thread Statement Statement.Result Arrival Reply} {id : String}
      {report : SpawnMetricsReport} {now : ℤ} (ha : a = .exec i) (hi : v.threads[i]? = some u)
      (hnext : v.next? i = some (.recordMetrics id report now))
      (hreq : u.request.request = .metrics report) (hspawn : report.spawnId = spawnId)
      (hnow : storedAt v' i) (hothers : ∀ j, storedAt v' j → j = i ∨ storedAt v j)
      (hcount : ∀ r ∈ v'.store.db.spawns, r.spawnId = spawnId → r.count = report.totalCount)
  | kept (hstored : ∀ j u report, v.threads[j]? = some u → u.request.request = .metrics report →
        report.spawnId = spawnId → storedAt v' j → storedAt v j)
      (hcount : CountKept spawnId v.store.db v'.store.db)

section
variable {env : Env} {v v' : Plane} {a : Action Arrival ℕ} {spawnId : String}

theorem storedAt_set {i j : ℕ} {u u' : Thread Statement Statement.Result Arrival Reply}
    {threads : List (Thread Statement Statement.Result Arrival Reply)} {store store' : World}
    (hi : threads[i]? = some u) (h : storedAt ⟨store', threads.set i u'⟩ j) :
    (j = i ∧ u'.rest = some (.done .ok)) ∨ storedAt ⟨store, threads⟩ j := by
  obtain ⟨t, ht⟩ := h
  have hlt := (List.getElem?_eq_some_iff.mp hi).1
  by_cases hj : j = i
  · subst hj
    left
    have hsame : u' = ⟨t, some (.done .ok)⟩ := by simpa [hlt] using ht
    exact ⟨rfl, by rw [hsame]⟩
  · right
    refine ⟨t, ?_⟩
    rwa [List.getElem?_set_ne (Ne.symm hj)] at ht

/-- Where one unanswered thread goes on, answers stay and requests stay what they are. -/
theorem thread_set {threads : List (Thread Statement Statement.Result Arrival Reply)} {i j : ℕ}
    {u w w' : Thread Statement Statement.Result Arrival Reply} (hi : threads[i]? = some w)
    (hj : threads[j]? = some u) (hrequest : w'.request = w.request)
    (hunanswered : w.rest ≠ some (.done .ok)) :
    ∃ u', (threads.set i w')[j]? = some u' ∧ u'.request = u.request ∧
      (u.rest = some (.done .ok) → u'.rest = some (.done .ok)) := by
  have hlt := (List.getElem?_eq_some_iff.mp hj).1
  by_cases he : i = j
  · subst he
    obtain rfl := Option.some.inj (hi.symm.trans hj)
    exact ⟨w', List.getElem?_set_self hlt, hrequest, fun hdone => absurd hdone hunanswered⟩
  · exact ⟨u, by rw [List.getElem?_set_ne he, hj], rfl, id⟩

theorem threads_step (h : (controlPlane env).step v a = some v') {j : ℕ}
    {u : Thread Statement Statement.Result Arrival Reply} (hj : v.threads[j]? = some u) :
    ∃ u', v'.threads[j]? = some u' ∧ u'.request = u.request ∧
      (u.rest = some (.done .ok) → u'.rest = some (.done .ok)) := by
  obtain ⟨t, rfl, rfl⟩ | ⟨i, t, st, k, rfl, hi, rfl⟩ | ⟨i, t, st, k, rfl, hi, rfl⟩ |
    ⟨d, rfl, rfl⟩ := (controlPlane env).step_cases h
  · have hlt := (List.getElem?_eq_some_iff.mp hj).1
    exact ⟨u, by rw [List.getElem?_append_left hlt, hj], rfl, id⟩
  · exact thread_set hi hj rfl (by simp)
  · exact thread_set hi hj rfl (by simp)
  · exact ⟨u, hj, rfl, id⟩

theorem spawnMoved (hv : Reachable env v) (h : (controlPlane env).step v a = some v') :
    SpawnMoved spawnId v v' a := by
  obtain ⟨t, rfl, rfl⟩ | ⟨i, t, st, k, rfl, hi, rfl⟩ | ⟨i, t, st, k, rfl, hi, rfl⟩ |
    ⟨d, rfl, rfl⟩ := (controlPlane env).step_cases h
  · refine .kept (fun j u report hj hreq hspawn hstored => ?_) (.of_eq rfl)
    obtain ⟨t', ht'⟩ := hstored
    exact ⟨t', by rwa [List.getElem?_append_left (List.getElem?_eq_some_iff.mp hj).1] at ht'⟩
  · have hphase := (hv.throughout (handle_ackPhase env) i _ _ hi rfl).1
    by_cases hrec : ∃ id report now, st = .recordMetrics id report now ∧ report.spawnId = spawnId
    · obtain ⟨id, report, now, rfl, hspawn⟩ := hrec
      obtain ⟨hreq, hok, herr⟩ := hphase
      by_cases hdup : ∃ m ∈ v.store.db.metrics, m.metricId = id
      · have hexec : (controlPlane env).exec (.recordMetrics id report now) v.store =
            (.error .primaryKey, v.store) := by
          simp [controlPlane_exec, Statement.exec, Database.recordMetrics, hdup, World.attempt]
        refine .kept (fun j u report hj hreq hspawn hstored => ?_) (.of_eq (by rw [hexec]))
        obtain ⟨-, hdone⟩ | hold := storedAt_set hi hstored
        · rw [hexec, herr] at hdone
          cases hdone
        · exact hold
      · have hexec : ((controlPlane env).exec (.recordMetrics id report now) v.store).1 =
            .ok () := by
          simp [controlPlane_exec, Statement.exec, Database.recordMetrics, hdup, World.attempt]
        have hlt := (List.getElem?_eq_some_iff.mp hi).1
        have hnext : v.next? i = some (.recordMetrics id report now) := by
          simp [Pool.next?, hi]
        refine .stored rfl hi hnext hreq hspawn ⟨t, ?_⟩ (fun j hstored => ?_) fun r hr hid => ?_
        · rw [hexec, hok]
          exact List.getElem?_set_self hlt
        · exact (storedAt_set hi hstored).imp_left And.left
        · simp only [controlPlane_exec, Statement.exec, Database.recordMetrics, if_neg hdup,
            World.attempt] at hr
          obtain ⟨r₀, -, rfl⟩ := mem_updateWhere.mp hr
          split_ifs at hid ⊢ with hrep
          · rfl
          · exact absurd (hid.trans hspawn.symm) (by simpa using hrep)
    · refine .kept (fun j u report hj hreq hspawn hstored => ?_) (st.exec_count _ _ ?_)
      · obtain ⟨rfl, hdone⟩ | hold := storedAt_set hi hstored
        · obtain rfl := Option.some.inj (hi.symm.trans hj)
          have hdone := Option.some.inj hdone
          cases st with
          | recordMetrics id report' now =>
            have hsame : report' = report := Request.metrics.inj (hphase.1.symm.trans hreq)
            exact absurd ⟨id, report', now, rfl, hsame ▸ hspawn⟩ hrec
          | _ => exact absurd (by rw [hdone]; rfl) (hphase report hreq _)
        · exact hold
      · intro id report now hst hspawn
        exact hrec ⟨id, report, now, hst, hspawn⟩
  · refine .kept (fun j u report hj hreq hspawn hstored => ?_) (.of_eq rfl)
    obtain ⟨-, hnone⟩ | hold := storedAt_set hi hstored
    · cases hnone
    · exact hold
  · exact .kept (fun j u report hj hreq hspawn hstored => hstored) (.of_eq rfl)

theorem Taken.Stored.step (h : (controlPlane env).step v a = some v') {x : Taken}
    (hx : x.Stored v) : x.Stored v' := by
  obtain ⟨i, hthread, t, hi⟩ := hx
  obtain ⟨⟨t', rest⟩, hi', -, hdone⟩ := threads_step h hi
  have hdone : rest = some (.done .ok) := hdone rfl
  exact ⟨i, hthread, t', hdone ▸ hi'⟩

section
variable {body : SpawnMetricsReport} {uuid : Uuid}
  (h : (controlPlane env).step v (.arrive ⟨.metrics body, uuid, 0⟩) = some v')
include h

theorem arrival_store : v'.store = v.store := by
  obtain rfl := Option.some.inj h
  rfl

theorem arrival_thread : v'.threads[v.threads.length]? =
    some ⟨⟨.metrics body, uuid, 0⟩, some (handle env ⟨.metrics body, uuid, 0⟩)⟩ := by
  obtain rfl := Option.some.inj h
  simp [controlPlane]

/-- A report that has just arrived is not answered yet. -/
theorem arrival_unanswered : ¬ storedAt v' v.threads.length := by
  intro hanswered
  obtain ⟨t, ht⟩ := hanswered
  obtain ⟨rfl, hdone⟩ := Thread.mk.inj (Option.some.inj ((arrival_thread h).symm.trans ht))
  have hack := acknowledgement_handle env ⟨.metrics body, uuid, 0⟩
  rw [hdone] at hack
  simp [acknowledgement] at hack

theorem storedAt_before_arrival {i : ℕ} (hi : i < v.threads.length) (hstored : storedAt v' i) :
    storedAt v i := by
  obtain ⟨t, ht⟩ := hstored
  obtain rfl := Option.some.inj h
  exact ⟨t, by rwa [List.getElem?_append_left hi] at ht⟩

end

/-- Reports that have arrived are not touched where another one arrives. -/
theorem Taken.mem_set {taken : List Taken} {k : ℕ} {x x' y : Taken} (hk : taken[k]? = some x)
    (hthread : x.thread = none) (hy : y ∈ taken) (hsome : y.thread ≠ none) :
    y ∈ taken.set k x' := by
  obtain ⟨m, hm⟩ := List.mem_iff_getElem?.mp hy
  have hne : k ≠ m := by
    intro he
    subst he
    obtain rfl := Option.some.inj (hk.symm.trans hm)
    exact hsome hthread
  exact List.mem_of_getElem? (by rwa [List.getElem?_set_ne hne])

end

/-! ## Totals -/

theorem count_observe (m : Metrics) (o : Observation) (h : m.snapshot.count.toNat < 2 ^ 53) :
    (m.observe o).snapshot.count.toNat = m.snapshot.count.toNat + if o.counts then 1 else 0 := by
  cases o with
  | success latencyMicros n status =>
    have hsame : (m.observe (.success latencyMicros n status)).snapshot.count =
        m.snapshot.count + 1 := by
      simp only [Metrics.observe, Metrics.observeSuccess]
      split_ifs <;> rfl
    rw [hsame, UInt64.toNat_add]
    simp [Observation.counts]
    omega
  | error latencyMicros timeout => cases timeout <;> rfl
  | conn reused => cases reused <;> rfl
  | wire micros => rfl

/-- No process begins once a request has been counted, the count stays within what a JSON
number carries exactly, and no report is stored after one that was taken later and had
counted more. -/
structure Orderly (f : Reporting) (act : ReportingAct) : Prop where
  fresh : ∀ i start, act = .begin i start → f.counted = 0
  small : ∀ o, act = .observe o → f.counted < 2 ^ 53
  inOrder : ∀ i id report now, act = .plane (.exec i) →
    f.plane.next? i = some (.recordMetrics id report now) → ∀ (k k' : ℕ) (x y : Taken),
      f.taken[k]? = some x → x.thread = some i → k < k' → f.taken[k']? = some y →
      x.counted < y.counted → ¬ y.Stored f.plane

/-- What holds in every state of an orderly run. -/
structure Reporting.Sound (env : Env) (spawnId : String) (f : Reporting) : Prop where
  reachable : Reachable env f.plane
  /-- Metrics requests for the spawn are reports that were taken. -/
  origin : ∀ i u report, f.plane.threads[i]? = some u → u.request.request = .metrics report →
    report.spawnId = spawnId → ∃ x ∈ f.taken, x.thread = some i
  served : ∀ x ∈ f.taken, ∀ i, x.thread = some i →
    ∃ u, f.plane.threads[i]? = some u ∧ u.request.request = .metrics x.body
  process : ∀ p, f.process = some p →
    p.metrics.snapshot.count.toNat = f.counted ∧ p.assignment.spawnId = spawnId
  bodies : ∀ x ∈ f.taken, x.body.totalCount = x.counted ∧ x.body.spawnId = spawnId ∧
    x.counted ≤ f.counted
  sorted : (f.taken.map Taken.counted).Pairwise (· ≤ ·)
  row : f.process ≠ none ∨ f.taken ≠ [] → ∃ r ∈ f.plane.store.db.spawns, r.spawnId = spawnId
  /-- The row shows the highest total that was stored. -/
  highest : ∀ r ∈ f.plane.store.db.spawns, r.spawnId = spawnId →
    (∀ x ∈ f.taken, x.Stored f.plane → x.counted ≤ r.count) ∧
    (r.count = 0 ∨ ∃ x ∈ f.taken, x.Stored f.plane ∧ r.count = x.counted)

section
variable {env : Env} {token spawnId : String} {f f' : Reporting}

theorem sound_idle (env : Env) (spawnId : String) (clock : ℤ) :
    (Reporting.idle clock).Sound env spawnId where
  reachable := ⟨clock, Relation.ReflTransGen.refl⟩
  origin i u report h := by simp [Reporting.idle, idlePlane] at h
  served x hx := by simp [Reporting.idle] at hx
  process p h := by simp [Reporting.idle] at h
  bodies x hx := by simp [Reporting.idle] at hx
  sorted := .nil
  row h := by simp [Reporting.idle] at h
  highest r hr := by simp [Reporting.idle, idlePlane, Database.empty] at hr

/-- A thread of the pool after a step was there before or is the arrival. -/
theorem thread_before {v v' : Plane} {a : Action Arrival ℕ}
    (h : (controlPlane env).step v a = some v') {j : ℕ}
    {u' : Thread Statement Statement.Result Arrival Reply} (hj : v'.threads[j]? = some u') :
    (∃ u, v.threads[j]? = some u ∧ u'.request = u.request) ∨
      (a = .arrive u'.request ∧ j = v.threads.length) := by
  cases hold : v.threads[j]? with
  | some u =>
    obtain ⟨u'', hj', hreq, -⟩ := threads_step h hold
    obtain rfl := Option.some.inj (hj.symm.trans hj')
    exact .inl ⟨u, rfl, hreq⟩
  | none =>
    right
    have hge := List.getElem?_eq_none_iff.mp hold
    have hlt := (List.getElem?_eq_some_iff.mp hj).1
    obtain ⟨t, rfl, rfl⟩ | ⟨i, t, st, k, rfl, -, rfl⟩ | ⟨i, t, st, k, rfl, -, rfl⟩ |
      ⟨d, rfl, rfl⟩ := (controlPlane env).step_cases h
    · have hlast : j = v.threads.length := by
        simp at hlt
        omega
      subst hlast
      have hu : ⟨t, some ((controlPlane env).handler t)⟩ = u' := by simpa using hj
      exact ⟨by rw [← hu], rfl⟩
    · simp at hlt
      omega
    · simp at hlt
      omega
    · exact absurd hlt (Nat.not_lt.mpr hge)

/-- The total of the report that is stored is at least every total stored before. -/
theorem Reporting.Sound.le_of_stored (hf : f.Sound env spawnId) {i : ℕ} {x y : Taken} {id : String}
    {report : SpawnMetricsReport} {now : ℤ} (hx : x ∈ f.taken) (hthread : x.thread = some i)
    (hnext : f.plane.next? i = some (.recordMetrics id report now))
    (orderly : Orderly f (.plane (.exec i))) (hy : y ∈ f.taken) (hstored : y.Stored f.plane) :
    y.counted ≤ x.counted := by
  obtain ⟨k, hk⟩ := List.mem_iff_getElem?.mp hx
  obtain ⟨k', hk'⟩ := List.mem_iff_getElem?.mp hy
  rcases lt_trichotomy k k' with hlt | he | hlt
  · by_contra hmore
    exact orderly.inOrder i id report now rfl hnext k k' x y hk hthread hlt hk'
      (not_le.mp hmore) hstored
  · subst he
    obtain rfl := Option.some.inj (hk.symm.trans hk')
    exact le_rfl
  · obtain ⟨hlen, hkx⟩ := List.getElem?_eq_some_iff.mp hk
    obtain ⟨hlen', hky⟩ := List.getElem?_eq_some_iff.mp hk'
    have hsorted := List.pairwise_iff_getElem.mp hf.sorted k' k (by simpa using hlen')
      (by simpa using hlen) hlt
    simpa [hkx, hky] using hsorted

/-- A step of the control plane that is not the arrival of a report. -/
theorem Reporting.Sound.plane (hf : f.Sound env spawnId) {a : Action Arrival ℕ} {plane : Plane}
    (h : (controlPlane env).step f.plane a = some plane)
    (hforeign : ∀ t, a = .arrive t → t.request.reportsFor spawnId = false)
    (orderly : Orderly f (.plane a)) : Reporting.Sound env spawnId { f with plane := plane } where
  reachable := hf.reachable.step h
  origin i u report hi hreq hspawn := by
    obtain ⟨u₀, hi₀, hsame⟩ | ⟨ha, -⟩ := thread_before h hi
    · exact hf.origin i u₀ report hi₀ (hsame ▸ hreq) hspawn
    · have hno := hforeign _ ha
      simp [hreq, Request.reportsFor, hspawn] at hno
  served x hx i hi := by
    obtain ⟨u, hu, hreq⟩ := hf.served x hx i hi
    obtain ⟨u', hu', hsame, -⟩ := threads_step h hu
    exact ⟨u', hu', hsame ▸ hreq⟩
  process := hf.process
  bodies := hf.bodies
  sorted := hf.sorted
  row hsome := by
    obtain ⟨r, hr, hid⟩ := hf.row hsome
    obtain ⟨m, hm⟩ := List.mem_iff_getElem?.mp hr
    obtain ⟨r', hr', hstep⟩ := (hf.reachable.evolves_step h).spawns m r hm
    exact ⟨r', List.mem_of_getElem? hr', hstep.spawnId.trans hid⟩
  highest r hr hid := by
    obtain @⟨i, u, id, report, now, rfl, hi, hnext, hreq, hspawn, hnow, hothers, hcount⟩ |
        ⟨hstored, hcount⟩ :=
      (spawnMoved hf.reachable h : SpawnMoved spawnId _ _ _)
    · -- thread `i` serves a report that was taken, and its total is the new count
      have hbody : ∀ x ∈ f.taken, x.thread = some i → r.count = x.counted := by
        intro x hx hthread
        obtain ⟨u', hu', hreq'⟩ := hf.served x hx i hthread
        obtain rfl := Option.some.inj (hi.symm.trans hu')
        have hsame : x.body = report := Request.metrics.inj (hreq'.symm.trans hreq)
        rw [hcount r hr hid, ← hsame, (hf.bodies x hx).1]
      obtain ⟨x, hx, hthread⟩ := hf.origin i u report hi hreq hspawn
      rw [hbody x hx hthread]
      refine ⟨fun y hy hstored => ?_, .inr ⟨x, hx, ⟨i, hthread, hnow⟩, rfl⟩⟩
      obtain ⟨j, hj, hstoredAt⟩ := hstored
      obtain rfl | hold := hothers j hstoredAt
      · rw [← hbody y hy hj, hbody x hx hthread]
      · exact hf.le_of_stored hx hthread hnext orderly hy ⟨j, hj, hold⟩
    · have hbefore : ∀ x ∈ f.taken, x.Stored plane → x.Stored f.plane := by
        intro x hx ⟨i, hi, hnow⟩
        obtain ⟨u, hu, hreq⟩ := hf.served x hx i hi
        exact ⟨i, hi, hstored i u x.body hu hreq (hf.bodies x hx).2.1 hnow⟩
      obtain ⟨r₀, hr₀, hid₀, hsame⟩ | ⟨hnone, hzero⟩ := hcount r hr hid
      · obtain ⟨hle, hfrom⟩ := hf.highest r₀ hr₀ hid₀
        rw [← hsame]
        refine ⟨fun x hx hnow => hle x hx (hbefore x hx hnow), hfrom.imp_right ?_⟩
        intro ⟨x, hx, hnow, hcount⟩
        exact ⟨x, hx, hnow.step h, hcount⟩
      · have hnil : f.taken = [] := by
          by_contra hsome
          obtain ⟨r₀, hr₀, hid₀⟩ := hf.row (.inr hsome)
          exact hnone r₀ hr₀ hid₀
        exact ⟨by simp [hnil], .inl hzero⟩

/-- A report joins those that were taken. -/
theorem Reporting.Sound.take (hf : f.Sound env spawnId) {p : Process} (hp : f.process = some p)
    {r : MetricsReport} {process : Option Process}
    (hcount : (r.body token).totalCount = f.counted) (hspawn : (r.body token).spawnId = spawnId)
    (hprocess : ∀ q, process = some q →
      q.metrics.snapshot.count.toNat = f.counted ∧ q.assignment.spawnId = spawnId) :
    (f.take token r process).Sound env spawnId where
  reachable := hf.reachable
  origin i u report hi hreq hid := by
    obtain ⟨x, hx, hthread⟩ := hf.origin i u report hi hreq hid
    exact ⟨x, List.mem_append_left _ hx, hthread⟩
  served x hx i hi := by
    rcases List.mem_append.mp hx with hold | hnew
    · exact hf.served x hold i hi
    · rw [List.mem_singleton.mp hnew] at hi
      cases hi
  process := hprocess
  bodies x hx := by
    rcases List.mem_append.mp hx with hold | hnew
    · exact hf.bodies x hold
    · rw [List.mem_singleton.mp hnew]
      exact ⟨hcount, hspawn, le_rfl⟩
  sorted := by
    rw [Reporting.take, List.map_append, List.pairwise_append]
    refine ⟨hf.sorted, List.pairwise_singleton _ _, ?_⟩
    intro n hn m hm
    obtain ⟨x, hx, rfl⟩ := List.mem_map.mp hn
    rw [List.mem_singleton.mp hm]
    exact (hf.bodies x hx).2.2
  row _ := hf.row (.inl (by simp [hp]))
  highest r hr hid := by
    obtain ⟨hle, hfrom⟩ := hf.highest r hr hid
    refine ⟨fun x hx hstored => ?_, hfrom.imp_right ?_⟩
    · rcases List.mem_append.mp hx with hold | hnew
      · exact hle x hold hstored
      · obtain ⟨i, hi, -⟩ := hstored
        rw [List.mem_singleton.mp hnew] at hi
        cases hi
    · intro ⟨x, hx, hstored, hcount⟩
      exact ⟨x, List.mem_append_left _ hx, hstored, hcount⟩

/-- A response that was handed out has a row. -/
theorem exists_row_of_runResponse? {v : Plane} (hv : Reachable env v) {i : ℕ} {resp : RunResponse}
    (h : runResponse? v i = some resp) : ∃ r ∈ v.store.db.spawns, r.spawnId = resp.spawnId := by
  obtain ⟨a, ha⟩ := answered_of_runResponse? h
  obtain ⟨body, job, slot, -, hseated, rfl⟩ := hv.seated ha rfl
  obtain ⟨r, hr, hjob, hagent, -⟩ := hseated.row
  refine ⟨r, hr, ?_⟩
  rw [hv.inv.registry.named _ (WorldInv.seat_mem hr), hjob, hagent]
  rfl

/-- A change of process that leaves reports and control plane alone. -/
theorem Reporting.Sound.process_changed (hf : f.Sound env spawnId) {process : Option Process}
    {counted : ℕ} (hle : f.counted ≤ counted)
    (hprocess : ∀ q, process = some q →
      q.metrics.snapshot.count.toNat = counted ∧ q.assignment.spawnId = spawnId)
    (hrow : process ≠ none → ∃ r ∈ f.plane.store.db.spawns, r.spawnId = spawnId) :
    Reporting.Sound env spawnId { f with process := process, counted := counted } where
  reachable := hf.reachable
  origin := hf.origin
  served := hf.served
  process := hprocess
  bodies x hx := by
    obtain ⟨htotal, hspawn, hcounted⟩ := hf.bodies x hx
    exact ⟨htotal, hspawn, hcounted.trans hle⟩
  sorted := hf.sorted
  row h := h.elim hrow fun hsome => hf.row (.inr hsome)
  highest := hf.highest

/-- A report reaches the control plane. -/
theorem Reporting.Sound.deliver (hf : f.Sound env spawnId) {k : ℕ} {x : Taken} {uuid : Uuid}
    (hk : f.taken[k]? = some x) (hthread : x.thread = none) {plane : Plane}
    (h : (controlPlane env).step f.plane (.arrive ⟨.metrics x.body, uuid, 0⟩) = some plane) :
    Reporting.Sound env spawnId { f with
      plane := plane
      taken := f.taken.set k { x with thread := some f.plane.threads.length } } := by
  have hlt := (List.getElem?_eq_some_iff.mp hk).1
  have hx : x ∈ f.taken := List.mem_of_getElem? hk
  have hstore := arrival_store h
  -- the others are the reports that were there, and all that had arrived are others
  have hcases : ∀ y ∈ f.taken.set k { x with thread := some f.plane.threads.length },
      y ∈ f.taken ∨ y = { x with thread := some f.plane.threads.length } := fun y hy =>
    List.mem_or_eq_of_mem_set hy
  have hkept : ∀ y ∈ f.taken, y.thread ≠ none →
      y ∈ f.taken.set k { x with thread := some f.plane.threads.length } := by
    intro y hy hsome
    exact Taken.mem_set hk hthread hy hsome
  have hbefore : ∀ y ∈ f.taken, y.Stored plane → y.Stored f.plane := by
    intro y hy hstored
    obtain ⟨i, hi, hanswered⟩ := hstored
    obtain ⟨u, hu, -⟩ := hf.served y hy i hi
    exact ⟨i, hi, storedAt_before_arrival h (List.getElem?_eq_some_iff.mp hu).1 hanswered⟩
  refine ⟨hf.reachable.step h, ?_, ?_, hf.process, ?_, ?_, ?_, ?_⟩
  · intro i u report hi hreq hspawn
    obtain ⟨u₀, hi₀, hsame⟩ | ⟨-, hlast⟩ := thread_before h hi
    · obtain ⟨y, hy, hyi⟩ := hf.origin i u₀ report hi₀ (hsame ▸ hreq) hspawn
      exact ⟨y, hkept y hy (by simp [hyi]), hyi⟩
    · exact ⟨_, List.mem_set hlt _, by rw [hlast]⟩
  · intro y hy i hi
    rcases hcases y hy with hold | hyx
    · obtain ⟨u, hu, hreq⟩ := hf.served y hold i hi
      obtain ⟨u', hu', hsame, -⟩ := threads_step h hu
      exact ⟨u', hu', hsame ▸ hreq⟩
    · subst hyx
      obtain rfl := Option.some.inj hi
      exact ⟨_, arrival_thread h, rfl⟩
  · intro y hy
    rcases hcases y hy with hold | hyx
    · exact hf.bodies y hold
    · subst hyx
      exact hf.bodies x hx
  · have hcount : (f.taken.map Taken.counted)[k]? = some x.counted := by simp [hk]
    obtain ⟨hlen, hget⟩ := List.getElem?_eq_some_iff.mp hcount
    have hmap := List.set_getElem_self hlen
    rw [hget] at hmap
    rw [List.map_set, hmap]
    exact hf.sorted
  · intro _
    rw [hstore]
    exact hf.row (.inr (List.ne_nil_of_mem hx))
  · intro r hr hid
    rw [hstore] at hr
    obtain ⟨hle, hfrom⟩ := hf.highest r hr hid
    refine ⟨fun y hy hstored => ?_, hfrom.imp_right ?_⟩
    · rcases hcases y hy with hold | hyx
      · exact hle y hold (hbefore y hold hstored)
      · subst hyx
        obtain ⟨i, hi, hdone⟩ := hstored
        obtain rfl := Option.some.inj hi
        exact absurd hdone (arrival_unanswered h)
    · intro hsource
      obtain ⟨y, hy, hstored, hcount⟩ := hsource
      obtain ⟨i, hi, -⟩ := id hstored
      exact ⟨y, hkept y hy (by simp [hi]), hstored.step h, hcount⟩

/-! ## Runs -/

/-- A step of the whole leaves the control plane alone or is a step of it. -/
theorem Reporting.plane_step {act : ReportingAct} (h : f.step env token spawnId act = some f') :
    f'.plane = f.plane ∨ ∃ a, (controlPlane env).step f.plane a = some f'.plane := by
  cases Reporting.moved_of_step h with
  | plane _ moved | deliver _ moved => exact .inr ⟨_, moved⟩
  | begin | observe | tick | flush | crash => exact .inl rfl

theorem Reporting.Sound.step (hf : f.Sound env spawnId) {act : ReportingAct}
    (h : f.step env token spawnId act = some f') (orderly : Orderly f act) :
    f'.Sound env spawnId := by
  cases Reporting.moved_of_step h with
  | plane foreign moved => exact hf.plane moved foreign orderly
  | begin idle response own =>
    have hzero := orderly.fresh _ _ rfl
    apply hf.process_changed le_rfl
    · intro q hq
      obtain rfl := Option.some.inj hq
      exact ⟨by rw [hzero]; rfl, own⟩
    · intro _
      obtain ⟨r, hr, hspawn⟩ := exists_row_of_runResponse? hf.reachable response
      exact ⟨r, hr, hspawn.trans own⟩
  | @observe o p busy =>
    obtain ⟨hcount, hspawn⟩ := hf.process p busy
    have hsmall := orderly.small o rfl
    apply hf.process_changed (Nat.le_add_right _ _)
    · intro q hq
      obtain rfl := Option.some.inj hq
      refine ⟨?_, hspawn⟩
      rw [Process.observe, count_observe p.metrics o (by omega), hcount]
    · intro _
      exact hf.row (.inl (by simp [busy]))
  | tick busy =>
    obtain ⟨hcount, hspawn⟩ := hf.process _ busy
    apply hf.take busy
    · exact hcount
    · exact hspawn
    · intro q hq
      obtain rfl := Option.some.inj hq
      exact ⟨hcount, hspawn⟩
  | flush busy =>
    obtain ⟨hcount, hspawn⟩ := hf.process _ busy
    apply hf.take busy
    · exact hcount
    · exact hspawn
    · intro q hq
      cases hq
  | crash =>
    apply hf.process_changed le_rfl
    · intro q hq
      cases hq
    · intro hne
      exact absurd rfl hne
  | deliver waiting moved => exact hf.deliver waiting rfl moved

theorem sound_of_run {clock : ℤ} {acts : List ReportingAct}
    (run : Run (Reporting.step env token spawnId) Orderly (Reporting.idle clock) acts f) :
    f.Sound env spawnId :=
  run.invariant (sound_idle env spawnId clock) fun _ _ _ orderly moved hf => hf.step moved orderly

/-- What has been stored stays stored. -/
theorem Reporting.stored_step {act : ReportingAct} (h : f.step env token spawnId act = some f')
    {x : Taken} (hx : x ∈ f.taken) (hstored : x.Stored f.plane) :
    x ∈ f'.taken ∧ x.Stored f'.plane := by
  have hstored' : x.Stored f'.plane := by
    obtain hsame | ⟨a, ha⟩ := Reporting.plane_step h
    · rwa [hsame]
    · exact hstored.step ha
  refine ⟨?_, hstored'⟩
  cases Reporting.moved_of_step h with
  | plane | begin | observe | crash => exact hx
  | tick | flush => exact List.mem_append_left _ hx
  | @deliver k uuid body counted plane waiting moved =>
    obtain ⟨i, hi, -⟩ := hstored
    exact Taken.mem_set waiting rfl hx (by simp [hi])

/-- Rows stay where they are and keep their names. -/
theorem Reporting.rows_step {act : ReportingAct} (h : f.step env token spawnId act = some f')
    (hreach : Reachable env f.plane) {m : ℕ} {r : SpawnRow}
    (hr : f.plane.store.db.spawns[m]? = some r) :
    ∃ r', f'.plane.store.db.spawns[m]? = some r' ∧ r'.spawnId = r.spawnId := by
  obtain hsame | ⟨a, ha⟩ := Reporting.plane_step h
  · exact ⟨r, by rwa [hsame], rfl⟩
  · obtain ⟨r', hr', hstep⟩ := (hreach.evolves_step ha).spawns m r hr
    exact ⟨r', hr', hstep.spawnId⟩

/-- Storing a report after one that was taken later and had counted more lowers the count. -/
theorem Reporting.Sound.lowered (hf : f.Sound env spawnId) {i : ℕ}
    (h : f.step env token spawnId (.plane (.exec i)) = some f')
    (unorderly : ¬ Orderly f (.plane (.exec i))) (hnow : storedAt f'.plane i) {m : ℕ}
    {r r' : SpawnRow} (hr : f.plane.store.db.spawns[m]? = some r) (hid : r.spawnId = spawnId)
    (hr' : f'.plane.store.db.spawns[m]? = some r') : r'.count < r.count := by
  have hbad : ∃ id report now, f.plane.next? i = some (.recordMetrics id report now) ∧
      ∃ x ∈ f.taken, x.thread = some i ∧ ∃ y ∈ f.taken, x.counted < y.counted ∧
        y.Stored f.plane := by
    by_contra hnone
    apply unorderly
    refine ⟨by simp, by simp, ?_⟩
    intro j id report now hj hnext k k' x y hk hthread _ hk' hless hstored
    obtain rfl : i = j := by simpa using hj
    exact hnone ⟨id, report, now, hnext, x, List.mem_of_getElem? hk, hthread, y,
      List.mem_of_getElem? hk', hless, hstored⟩
  obtain ⟨id, report, now, hnext, x, hx, hthread, y, hy, hless, hstored⟩ := hbad
  have hold := (hf.highest r (List.mem_of_getElem? hr) hid).1 y hy hstored
  obtain ⟨r'', hr'', hid''⟩ := Reporting.rows_step h hf.reachable hr
  obtain rfl := Option.some.inj (hr''.symm.trans hr')
  obtain ⟨plane, hplane, rfl⟩ := Option.map_eq_some_iff.mp h
  obtain ⟨u, hu, hreq⟩ := hf.served x hx i hthread
  suffices hnew : r''.count = x.counted by omega
  obtain @⟨j, u', id', report', now', hj, hi, -, hreq', -, -, -, hcount⟩ | ⟨hkept, -⟩ :=
    (spawnMoved hf.reachable hplane : SpawnMoved spawnId _ _ _)
  · obtain rfl : i = j := by simpa using hj
    obtain rfl := Option.some.inj (hu.symm.trans hi)
    have hsame : x.body = report' := Request.metrics.inj (hreq.symm.trans hreq')
    rw [hcount r'' (List.mem_of_getElem? hr') (hid''.trans hid), ← hsame, (hf.bodies x hx).1]
  · obtain ⟨t, ht⟩ := hkept i u x.body hu hreq (hf.bodies x hx).2.1 hnow
    simp [Pool.next?, ht] at hnext

/-- Along every orderly run the count of the spawn does not fall; and when the last
report that was taken is stored and nothing has been counted since, the count is the
number of requests counted under the spawn id. Storing a report out of order lowers it. -/
theorem spawn_count_forward {clock : ℤ} {acts : List ReportingAct}
    (run : Run (Reporting.step env token spawnId) Orderly (Reporting.idle clock) acts f) :
    (∀ (later : List ReportingAct) (f' : Reporting),
      Run (Reporting.step env token spawnId) Orderly f later f' → ∀ (m : ℕ) r r',
        f.plane.store.db.spawns[m]? = some r → r.spawnId = spawnId →
        f'.plane.store.db.spawns[m]? = some r' → r.count ≤ r'.count) ∧
    (∀ x, f.taken.getLast? = some x → x.Stored f.plane → x.counted = f.counted →
      ∀ r ∈ f.plane.store.db.spawns, r.spawnId = spawnId → r.count = f.counted) ∧
    ∀ i f', f.step env token spawnId (.plane (.exec i)) = some f' →
      ¬ Orderly f (.plane (.exec i)) → storedAt f'.plane i → ∀ (m : ℕ) r r',
        f.plane.store.db.spawns[m]? = some r → r.spawnId = spawnId →
        f'.plane.store.db.spawns[m]? = some r' → r'.count < r.count := by
  have hf := sound_of_run run
  refine ⟨?_, ?_, ?_⟩
  · intro later f' hlater m r r' hr hid hr'
    -- what the row was written from is still stored later, and the row follows it
    have hkept : f'.Sound env spawnId ∧
        (∀ x ∈ f.taken, x.Stored f.plane → x ∈ f'.taken ∧ x.Stored f'.plane) ∧
        ∃ r', f'.plane.store.db.spawns[m]? = some r' ∧ r'.spawnId = r.spawnId := by
      apply hlater.invariant (I := fun g => g.Sound env spawnId ∧
        (∀ x ∈ f.taken, x.Stored f.plane → x ∈ g.taken ∧ x.Stored g.plane) ∧
        ∃ r', g.plane.store.db.spawns[m]? = some r' ∧ r'.spawnId = r.spawnId)
      · exact ⟨hf, fun x hx hstored => ⟨hx, hstored⟩, r, hr, rfl⟩
      intro g act g' orderly moved ⟨hg, hstays, r₁, hr₁, hid₁⟩
      refine ⟨hg.step moved orderly, ?_, ?_⟩
      · intro x hx hstored
        obtain ⟨hmem, hnow⟩ := hstays x hx hstored
        exact Reporting.stored_step moved hmem hnow
      · obtain ⟨r₂, hr₂, hid₂⟩ := Reporting.rows_step moved hg.reachable hr₁
        exact ⟨r₂, hr₂, hid₂.trans hid₁⟩
    obtain ⟨hf', hstays, r₁, hr₁, hid₁⟩ := hkept
    obtain rfl := Option.some.inj (hr₁.symm.trans hr')
    obtain hzero | ⟨x, hx, hstored, hcount⟩ :=
      (hf.highest r (List.mem_of_getElem? hr) hid).2
    · omega
    · obtain ⟨hmem, hnow⟩ := hstays x hx hstored
      rw [hcount]
      exact (hf'.highest _ (List.mem_of_getElem? hr') (hid₁.trans hid)).1 x hmem hnow
  · intro x hlast hstored hcounted r hr hid
    obtain ⟨hle, hfrom⟩ := hf.highest r hr hid
    have hx := hle x (List.mem_of_getLast? hlast) hstored
    obtain hzero | ⟨y, hy, -, hcount⟩ := hfrom
    · omega
    · have hmost := (hf.bodies y hy).2.2
      omega
  · intro i f' h unorderly hnow m r r' hr hid hr'
    exact hf.lowered h unorderly hnow hr hid hr'

end

/-! ## Runs of one agent -/

def answeredOk (v : Plane) (i : ℕ) : Bool :=
  match v.threads[i]? with
  | some ⟨_, some (.done .ok)⟩ => true
  | _ => false

theorem answeredOk_iff {v : Plane} {i : ℕ} : answeredOk v i = true ↔ storedAt v i := by
  constructor
  · intro h
    unfold answeredOk at h
    split at h
    · case h_1 t hi => exact ⟨t, hi⟩
    · cases h
  · intro h
    obtain ⟨t, hi⟩ := h
    simp [answeredOk, hi]

/-- An executable condition that is enough for `Orderly`. -/
def orderlyGuard (f : Reporting) : ReportingAct → Bool
  | .begin _ _ => f.counted = 0
  | .observe _ => f.counted < 2 ^ 53
  | .plane (.exec i) => f.taken.all fun x => x.thread ≠ some i || f.taken.all fun y =>
      y.counted ≤ x.counted || !y.thread.any (answeredOk f.plane)
  | _ => true

theorem orderly_of_guard (f : Reporting) (act : ReportingAct) (h : orderlyGuard f act = true) :
    Orderly f act where
  fresh i start ha := by
    subst ha
    simpa [orderlyGuard] using h
  small o ha := by
    subst ha
    simpa [orderlyGuard] using h
  inOrder i id report now ha _ k k' x y hk hthread _ hk' hless hstored := by
    subst ha
    obtain ⟨j, hj, hanswered⟩ := hstored
    have hx := List.mem_of_getElem? hk
    have hy := List.mem_of_getElem? hk'
    simp only [orderlyGuard, List.all_eq_true] at h
    have hxy := h x hx
    simp only [hthread, ne_eq, not_true_eq_false, decide_false, Bool.false_or,
      List.all_eq_true] at hxy
    have hlow := hxy y hy
    simp only [hj, Option.any_some, answeredOk_iff.mpr hanswered, Bool.not_true, Bool.or_false,
      decide_eq_true_eq] at hlow
    omega

/-- A job is started, the agent polls and begins, counts one request and reports it. -/
def oneReport : List ReportingAct :=
  (.arrive (startOf 5 2 10 0) :: serve 3 0 ++ .arrive (pollOf "a") :: serve 6 1).map .plane ++
    [.begin 1 1, .observe (.success 800 0 200), .tick 5000, .deliver 0 sampleUuid] ++
    (serve 2 2).map .plane

def slotOfA : String := spawnIdOf sampleUuid.text "a"

/-- The last report that was taken is stored, and nothing has been counted since. -/
def lastStored (n : ℕ) (f : Reporting) : Bool :=
  f.counted = n && f.taken.getLast?.any fun x => x.counted = n && x.thread.any (answeredOk f.plane)

theorem stored_of_lastStored {n : ℕ} {f : Reporting} (h : lastStored n f = true) :
    f.counted = n ∧ ∃ x, f.taken.getLast? = some x ∧ x.Stored f.plane ∧ x.counted = n := by
  simp only [lastStored, Bool.and_eq_true, decide_eq_true_eq] at h
  obtain ⟨hcounted, hlast⟩ := h
  obtain ⟨x, hx, hstored⟩ := (Option.any_eq_true _ _).mp hlast
  simp only [Bool.and_eq_true, decide_eq_true_eq] at hstored
  obtain ⟨i, hi, hanswered⟩ := (Option.any_eq_true _ _).mp hstored.2
  exact ⟨hcounted, x, hx, ⟨i, hi, answeredOk_iff.mp hanswered⟩, hstored.1⟩

/-- The only spawn is that of agent `a`, with this count. -/
def countShown (n : ℕ) (f : Reporting) : Bool :=
  f.plane.store.db.spawns[0]?.any fun r => r.spawnId = slotOfA && r.count = n

theorem row_of_countShown {n : ℕ} {f : Reporting} (h : countShown n f = true) :
    ∃ r, f.plane.store.db.spawns[0]? = some r ∧ r.spawnId = slotOfA ∧ r.count = n := by
  obtain ⟨r, hr, hshown⟩ := (Option.any_eq_true _ _).mp h
  simp only [Bool.and_eq_true, decide_eq_true_eq] at hshown
  exact ⟨r, hr, hshown⟩

/-- One more request is counted, and the final flush is stored. -/
def secondReport : List ReportingAct :=
  [.observe (.success 900 0 200), .flush 9000, .deliver 1 otherUuid] ++ (serve 2 3).map .plane

/-- One process that counts two requests: one, then two. -/
theorem spawn_count_forward_two : ∃ (f f' : Reporting) (r r' : SpawnRow),
    Run (Reporting.step bareEnv "key" slotOfA) Orderly (Reporting.idle 0) oneReport f ∧
    Run (Reporting.step bareEnv "key" slotOfA) Orderly f secondReport f' ∧
    f.plane.store.db.spawns[0]? = some r ∧ f'.plane.store.db.spawns[0]? = some r' ∧
    r.count = 1 ∧ r'.count = 2 ∧ r.count ≤ r'.count ∧ r'.count = f'.counted := by
  have hreplay : (replayIf (Reporting.step bareEnv "key" slotOfA) orderlyGuard oneReport
      (Reporting.idle 0)).any (fun f => countShown 1 f &&
        (replayIf (Reporting.step bareEnv "key" slotOfA) orderlyGuard secondReport f).any
          fun f' => countShown 2 f' && lastStored 2 f') = true := by decide +kernel
  obtain ⟨f, run, hf⟩ := exists_run_of_replayIf orderlyGuard orderly_of_guard _ _ hreplay
  obtain ⟨hone, hlater⟩ := Bool.and_eq_true_iff.mp hf
  obtain ⟨f', later, hf'⟩ := exists_run_of_replayIf orderlyGuard orderly_of_guard _ _ hlater
  obtain ⟨htwo, hlast⟩ := Bool.and_eq_true_iff.mp hf'
  obtain ⟨r, hr, hid, hcount⟩ := row_of_countShown hone
  obtain ⟨r', hr', hid', hcount'⟩ := row_of_countShown htwo
  obtain ⟨hcounted, x, hx, hstored, hn⟩ := stored_of_lastStored hlast
  have hrises := (spawn_count_forward run).1 secondReport f' later 0 r r' hr hid hr'
  have hexact := (spawn_count_forward (run.append later)).2.1 x hx hstored (hn.trans hcounted.symm)
    r' (List.mem_of_getElem? hr') hid'
  exact ⟨f, f', r, r', run, later, hr, hr', hcount, hcount', hrises, hexact⟩

/-- The process is restarted, polls its slot and reports before it has counted anything. -/
def reconnect : List ReportingAct :=
  .crash :: (.arrive (pollOf "a") :: serve 4 3).map .plane ++
    [.begin 3 9000, .tick 14000, .deliver 1 otherUuid] ++ (serve 2 4).map .plane

/-- A job is started, the agent polls and begins; the report of a tick is cut off, and
is served after the final flush. -/
def overtaken : List ReportingAct :=
  (.arrive (startOf 5 2 10 0) :: serve 3 0 ++ .arrive (pollOf "a") :: serve 6 1).map .plane ++
    [.begin 1 1, .observe (.success 800 0 200), .tick 5000, .observe (.success 900 0 200),
      .flush 9000, .deliver 1 sampleUuid] ++ (serve 2 2).map .plane ++
    .deliver 0 otherUuid :: (serve 2 3).map .plane

/-- A process that comes back reports a total of zero over the one request that was
counted; and without any crash the count is not the number of requests in the end. -/
theorem spawn_count_back :
    (¬ ∀ (env : Env) (token spawnId : String) (clock : ℤ) (acts later : List ReportingAct)
      (f f' : Reporting),
      Run (Reporting.step env token spawnId) (fun _ _ => True) (Reporting.idle clock) acts f →
      Run (Reporting.step env token spawnId) (fun _ _ => True) f later f' →
      ∀ (m : ℕ) r r', f.plane.store.db.spawns[m]? = some r → r.spawnId = spawnId →
        f'.plane.store.db.spawns[m]? = some r' → r.count ≤ r'.count) ∧
    ¬ ∀ (env : Env) (token spawnId : String) (clock : ℤ) (acts : List ReportingAct) (f : Reporting),
      Run (Reporting.step env token spawnId) (fun _ _ => True) (Reporting.idle clock) acts f →
      .crash ∉ acts → ∀ x, f.taken.getLast? = some x → x.Stored f.plane → x.counted = f.counted →
      ∀ r ∈ f.plane.store.db.spawns, r.spawnId = spawnId → r.count = f.counted := by
  constructor
  · intro hclaim
    obtain ⟨f, run, hf⟩ := exists_run_of_replay (Reporting.step bareEnv "key" slotOfA)
      (Reporting.idle 0) oneReport (fun f => countShown 1 f &&
        (replay (Reporting.step bareEnv "key" slotOfA) reconnect f).any (countShown 0))
      (by decide +kernel)
    obtain ⟨hone, hlater⟩ := Bool.and_eq_true_iff.mp hf
    obtain ⟨f', later, hzero⟩ := exists_run_of_replay _ _ _ _ hlater
    obtain ⟨r, hr, hid, hcount⟩ := row_of_countShown hone
    obtain ⟨r', hr', -, hcount'⟩ := row_of_countShown hzero
    have hrises := hclaim bareEnv "key" slotOfA 0 oneReport reconnect f f' run later 0 r r' hr hid
      hr'
    omega
  · intro hclaim
    obtain ⟨f, run, hf⟩ := exists_run_of_replay (Reporting.step bareEnv "key" slotOfA)
      (Reporting.idle 0) overtaken (fun f => countShown 1 f && lastStored 2 f) (by decide +kernel)
    obtain ⟨hone, hlast⟩ := Bool.and_eq_true_iff.mp hf
    obtain ⟨r, hr, hid, hcount⟩ := row_of_countShown hone
    obtain ⟨hcounted, x, hx, hstored, hn⟩ := stored_of_lastStored hlast
    have hnocrash : .crash ∉ overtaken := by simp [overtaken, serve]
    have hexact := hclaim bareEnv "key" slotOfA 0 overtaken f run hnocrash x hx hstored
      (hn.trans hcounted.symm) r (List.mem_of_getElem? hr) hid
    omega

end R2Bench
