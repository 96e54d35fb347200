import Mathlib.Data.UInt
import R2Bench.AgentMetrics
import R2Bench.AtomicCells

/-!
# Snapshots that observations overlap

`ObserveSuccess` and the other methods make several atomic additions, and `Snapshot`
loads the counters one by one, so that a request can be in the count of a snapshot and
not in its histogram. Every single counter is that of some of the observations, and the
next snapshot counts on from there.
-/
namespace R2Bench
open Machines AtomicCells

inductive MetricsField
  | count | errors | bytes | latSum | statusOK | status4x | status5x | timeouts
  | newConns | reusedConns | wireSum | wireCount
  | buckets (i : Fin numBuckets)
  deriving DecidableEq

/-- The fields in the order in which `Snapshot` loads them. -/
def MetricsField.all : List MetricsField :=
  [.count, .errors, .bytes, .latSum, .statusOK, .status4x, .status5x, .timeouts, .newConns,
    .reusedConns, .wireSum, .wireCount] ++ (List.finRange numBuckets).map .buckets

/-- The additions of a call in their order. -/
def Observation.adds : Observation → List (MetricsField × UInt64)
  | .wire micros => [(.wireSum, micros), (.wireCount, 1)]
  | .conn reused => if reused then [(.reusedConns, 1)] else [(.newConns, 1)]
  | .success latencyMicros n status =>
    [(.count, 1), (.latSum, latencyMicros), (.bytes, n.toUInt64),
      (.buckets (bucketIndex latencyMicros), 1),
      (if status < 400 then .statusOK else if status < 500 then .status4x else .status5x, 1)]
  | .error latencyMicros timeout =>
    [(.errors, 1), (.latSum, latencyMicros), (.buckets (bucketIndex latencyMicros), 1)] ++
      if timeout then [(.timeouts, 1)] else []

namespace Snapshot

def get (s : Snapshot) : MetricsField → UInt64
  | .count => s.count
  | .errors => s.errors
  | .bytes => s.bytes
  | .latSum => s.latSum
  | .statusOK => s.statusOK
  | .status4x => s.status4x
  | .status5x => s.status5x
  | .timeouts => s.timeouts
  | .newConns => s.newConns
  | .reusedConns => s.reusedConns
  | .wireSum => s.wireSum
  | .wireCount => s.wireCount
  | .buckets i => getElem s.buckets i.val i.isLt

/-- The loads on the way are those of one call of `Snapshot`, which returned `s`. -/
def ReadIn (s : Snapshot) (window : List (Act Observation MetricsField))
    (u : Cells Observation.adds) : Prop :=
  log (Cells.step Observation.adds) Cells.loaded window u =
    MetricsField.all.map fun f => (f, s.get f)

theorem ext_get {s t : Snapshot} (h : ∀ f, s.get f = t.get f) : s = t := by
  apply Snapshot.ext
  · exact h .count
  · exact h .errors
  · exact h .bytes
  · exact h .latSum
  · exact h .statusOK
  · exact h .status4x
  · exact h .status5x
  · exact h .timeouts
  · exact h .newConns
  · exact h .reusedConns
  · exact h .wireSum
  · exact h .wireCount
  · apply Vector.ext
    intro j hj
    exact h (.buckets ⟨j, hj⟩)

theorem get_add (s t : Snapshot) (f : MetricsField) : (s.add t).get f = s.get f + t.get f := by
  cases f with
  | buckets i => simp [get, add]
  | _ => rfl

theorem get_sub (s t : Snapshot) (f : MetricsField) : (s.sub t).get f = s.get f - t.get f := by
  cases f with
  | buckets i => simp [get, sub]
  | _ => rfl

theorem get_new (f : MetricsField) : newMetrics.snapshot.get f = 0 := by
  cases f with
  | buckets i => simp [get, newMetrics, Metrics.snapshot]
  | _ => rfl

end Snapshot

theorem MetricsField.mem_all (f : MetricsField) : f ∈ all := by
  cases f with
  | buckets i => exact List.mem_append_right _ (List.mem_map_of_mem (List.mem_finRange i))
  | _ => simp [all]

/-! ## Observations as additions -/

theorem once_adds : Once Observation.adds := by
  intro o
  cases o with
  | wire micros => simp [Observation.adds]
  | conn reused => cases reused <;> simp [Observation.adds]
  | success latencyMicros n status =>
    simp only [Observation.adds]
    split_ifs <;> simp
  | error latencyMicros timeout => cases timeout <;> simp [Observation.adds]

@[simp] theorem getElem_addOne_new (i j : Fin numBuckets) :
    getElem (addOne (Vector.replicate numBuckets 0) i) j.val j.isLt = if i = j then 1 else 0 := by
  simp [addOne, Vector.getElem_set, Fin.val_inj]

/-- The additions of a call leave what the whole call leaves. -/
theorem get_observe (o : Observation) (f : MetricsField) :
    (newMetrics.observe o).snapshot.get f = added f o.adds := by
  cases o with
  | wire micros =>
    cases f <;> simp [Observation.adds, Metrics.observe, Metrics.observeWire, Metrics.snapshot,
      newMetrics, Snapshot.get]
  | conn reused =>
    cases reused <;> cases f <;> simp [Observation.adds, Metrics.observe, Metrics.observeConn,
      Metrics.snapshot, newMetrics, Snapshot.get]
  | success latencyMicros n status =>
    simp only [Observation.adds, Metrics.observe, Metrics.observeSuccess]
    split_ifs <;> cases f <;> simp [Metrics.snapshot, newMetrics, Snapshot.get]
  | error latencyMicros timeout =>
    cases timeout <;> cases f <;> simp [Observation.adds, Metrics.observe, Metrics.observeError,
      Metrics.snapshot, newMetrics, Snapshot.get]

theorem get_observeAll (b : List Observation) (f : MetricsField) :
    (newMetrics.observeAll b).snapshot.get f = addedBy Observation.adds f b := by
  induction b with
  | nil => exact Snapshot.get_new f
  | cons o b ih =>
    have hsplit : (newMetrics.observeAll (o :: b)).snapshot =
        ((newMetrics.observe o).snapshot).add (newMetrics.observeAll b).snapshot :=
      Metrics.snapshot_observeAll _ b
    rw [hsplit, Snapshot.get_add, get_observe, ih, addedBy, addedBy, List.map_cons, List.sum_cons]

/-! ## Snapshots -/

section
variable {C : Cells Observation.adds → Act Observation MetricsField → Prop}
  {u v : Cells Observation.adds} {acts window : List (Act Observation MetricsField)} {s : Snapshot}

/-- Every counter of a snapshot is that of some of the observations. -/
theorem Snapshot.ReadIn.exists_seen (hu : u.Sound)
    (during : Run (Cells.step Observation.adds) C u window v) (hs : s.ReadIn window u)
    (f : MetricsField) : ∃ seen : List Observation, (u.settled f).Sublist seen ∧
      seen.Sublist (v.settled f) ∧ s.get f = addedBy Observation.adds f seen := by
  apply Cells.exists_seen once_adds hu during
  rw [hs]
  exact List.mem_map_of_mem f.mem_all

/-- Counter by counter a snapshot is right, however calls overlap it: it counts every call
that had returned before and only calls that have begun. If no call overlaps it, it is the
snapshot that follows these calls. In the delta to a later snapshot no counter counts a
call again. -/
theorem snapshot_by_counter
    (before : Run (Cells.step Observation.adds) C (Cells.start Observation.adds) acts u)
    (during : Run (Cells.step Observation.adds) C u window v) (hs : s.ReadIn window u) :
    (∀ f, ∃ seen : List Observation, u.returned.Sublist seen ∧ seen.Sublist v.begun ∧
      s.get f = (newMetrics.observeAll seen).snapshot.get f) ∧
    (v.begun = u.returned → s = (newMetrics.observeAll u.returned).snapshot) ∧
    ∀ {more window' : List (Act Observation MetricsField)} {u' v' : Cells Observation.adds}
      {s' : Snapshot}, Run (Cells.step Observation.adds) C v more u' →
      Run (Cells.step Observation.adds) C u' window' v' → s'.ReadIn window' u' →
      ∀ f, ∃ seen fresh : List Observation,
        s.get f = (newMetrics.observeAll seen).snapshot.get f ∧
        (s'.sub s).get f = (newMetrics.observeAll fresh).snapshot.get f ∧
        u'.returned.Subperm (seen ++ fresh) ∧ (seen ++ fresh).Subperm v'.begun := by
  have hu : u.Sound := Cells.sound_of_run before
  refine ⟨fun f => ?_, fun hquiet => ?_, fun {more window' u' v' s'} meanwhile during' hs' f => ?_⟩
  · obtain ⟨seen, hleast, hmost, hget⟩ := hs.exists_seen hu during f
    exact ⟨seen, u.returned_sublist_settled.trans hleast, hmost.trans v.settled_sublist_begun,
      by rw [hget, get_observeAll]⟩
  · apply Snapshot.ext_get
    intro f
    obtain ⟨seen, hleast, hmost, hget⟩ := hs.exists_seen hu during f
    have hall : u.returned = seen := by
      apply (u.returned_sublist_settled.trans hleast).eq_of_length_le
      rw [← hquiet]
      exact (hmost.trans v.settled_sublist_begun).length_le
    rw [hget, get_observeAll, hall]
  · have hu' : u'.Sound := Cells.sound_of_run ((before.append during).append meanwhile)
    obtain ⟨seen, -, hmost, hget⟩ := hs.exists_seen hu during f
    obtain ⟨seen', hleast', hmost', hget'⟩ := hs'.exists_seen hu' during' f
    have hlater : seen.Sublist seen' :=
      hmost.trans ((Cells.settled_of_run meanwhile).trans hleast')
    obtain ⟨fresh, hperm, hsum⟩ := Cells.exists_fresh Observation.adds f hlater
    refine ⟨seen, fresh, by rw [hget, get_observeAll], ?_, ?_, ?_⟩
    · rw [Snapshot.get_sub, hget', hget, hsum, get_observeAll]
      exact add_sub_cancel_left _ _
    · exact (u'.returned_sublist_settled.trans hleast').subperm.trans hperm.symm.subperm
    · exact hperm.subperm.trans (hmost'.trans v'.settled_sublist_begun).subperm

end

/-! ## Half a request -/

/-- One successful request of 2 ms. -/
def oneRequest : Observation := .success 2000 1536 200

/-- Its first addition is made. -/
def halfway : Cells Observation.adds :=
  ⟨Function.update (fun _ => 0) .count (0 + 1),
    [⟨oneRequest, [(.count, 1)], oneRequest.adds.tail, rfl⟩]⟩

def halfRequest : Snapshot := { newMetrics.snapshot with count := 1 }

theorem halfRequest_readIn : halfRequest.ReadIn (MetricsField.all.map .load) halfway := by
  rw [Snapshot.ReadIn, Cells.log_loads]
  apply List.map_congr_left
  intro f _
  have hget : halfRequest.get f = halfway.value f := by
    cases f with
    | buckets i => simp [Snapshot.get, halfRequest, halfway, newMetrics, Metrics.snapshot]
    | _ => rfl
  rw [hget]

/-- The snapshot after all calls have returned. -/
theorem readIn_of_returned {u : Cells Observation.adds} (hu : u.Sound) (h : u.begun = u.returned) :
    (newMetrics.observeAll u.begun).snapshot.ReadIn (MetricsField.all.map .load) u := by
  rw [Snapshot.ReadIn, Cells.log_loads]
  apply List.map_congr_left
  intro f _
  have hsettled : u.settled f = u.begun := by
    apply u.settled_sublist_begun.eq_of_length_le
    rw [h]
    exact u.returned_sublist_settled.length_le
  rw [hu.value_eq once_adds f, hsettled, get_observeAll]

/-- A snapshot shows one request and a median of 0. The delta to the next one has the rest of
the request, and its count is 0. -/
theorem snapshot_by_counter_torn :
    halfRequest.count = 1 ∧ halfRequest.quantile (1 / 2) = 0 ∧
    ∃ u' : Cells Observation.adds,
      Run (Cells.step Observation.adds) (fun _ _ => True) (Cells.start Observation.adds)
        [.begin oneRequest, .add 0] halfway ∧
      Run (Cells.step Observation.adds) (fun _ _ => True) halfway (List.replicate 4 (.add 0)) u' ∧
      (newMetrics.observe oneRequest).snapshot.ReadIn (MetricsField.all.map .load) u' ∧
      ∀ f, ∃ seen fresh : List Observation,
        halfRequest.get f = (newMetrics.observeAll seen).snapshot.get f ∧
        ((newMetrics.observe oneRequest).snapshot.sub halfRequest).get f =
          (newMetrics.observeAll fresh).snapshot.get f ∧ (seen ++ fresh).Subperm [oneRequest] := by
  have before : Run (Cells.step Observation.adds) (fun _ _ => True) (Cells.start Observation.adds)
      [.begin oneRequest, .add 0] halfway := (Run.start.next trivial rfl).next trivial rfl
  obtain ⟨u', meanwhile, hu'⟩ := exists_run_of_replay (Cells.step Observation.adds) halfway
    (List.replicate 4 (.add 0)) (fun u' => u'.begun = [oneRequest] ∧ u'.returned = [oneRequest])
    (by decide +kernel)
  obtain ⟨hbegun, hreturned⟩ := of_decide_eq_true hu'
  have hs' : (newMetrics.observe oneRequest).snapshot.ReadIn (MetricsField.all.map .load) u' := by
    have hread := readIn_of_returned (Cells.sound_of_run (before.append meanwhile))
      (hbegun.trans hreturned.symm)
    rwa [hbegun] at hread
  obtain ⟨-, -, hlater⟩ := snapshot_by_counter before
    (Cells.run_loads MetricsField.all fun _ => trivial) halfRequest_readIn
  refine ⟨rfl, by decide +kernel, u', before, meanwhile, hs', fun f => ?_⟩
  obtain ⟨seen, fresh, hseen, hfresh, -, honce⟩ :=
    hlater meanwhile (Cells.run_loads MetricsField.all fun _ => trivial) hs' f
  exact ⟨seen, fresh, hseen, hfresh, hbegun ▸ honce⟩

end R2Bench
