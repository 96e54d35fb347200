import R2Bench.Seeder

/-!
# What a run of the seeder does

The events of one run, in the order in which they happen: jobs handed to workers,
PUTs with their replies, and the counters once the workers are done.
-/
namespace R2Bench
open Machines

inductive SeederEvent
  | handed (worker : ℕ) (j : Job)
  | object (j : Job) (reply : PutReply)
  | counted (c : Counters)
  | sentinel (bucket : ℕ) (reply : PutReply)

/-- What a step of the run shows. -/
def seederEvent : Store × Phase → SeederAct → Option SeederEvent
  | (_, .seeding _ work), .receive worker => work.channel.head?.map (.handed worker)
  | (_, .seeding _ work), .put worker reply =>
    (work.workers worker).map fun held => .object held.1 reply
  | (_, .seeding _ work), .drained => some (.counted work.counters)
  | (_, .stamping b _ _ _), .stamp reply => some (.sentinel b reply)
  | _, _ => none

section
variable {s : Store} {todo : List ℕ} {work : Seeding} {worker tried : ℕ} {j : Job}

theorem seederEvent_receive {rest : List Job} (h : work.channel = j :: rest) :
    seederEvent (s, .seeding todo work) (.receive worker) = some (.handed worker j) := by
  simp [seederEvent, h]

theorem seederEvent_put (h : work.workers worker = some (j, tried)) (reply : PutReply) :
    seederEvent (s, .seeding todo work) (.put worker reply) = some (.object j reply) := by
  simp [seederEvent, h]

end

namespace SeederEvent

def handed? : SeederEvent → Option Job
  | handed _ j => some j
  | _ => none

def object? : SeederEvent → Option Job
  | object j _ => some j
  | _ => none

def counted? : SeederEvent → Option Counters
  | counted c => some c
  | _ => none

/-- The bucket of a sentinel whose PUT succeeded. -/
def stamped? : SeederEvent → Option ℕ
  | sentinel b .ok => some b
  | _ => none

def isPut : SeederEvent → Bool
  | object .. => true
  | sentinel .. => true
  | _ => false

end SeederEvent

/-- The jobs handed to workers. -/
def handedJobs (events : List SeederEvent) : List Job := events.filterMap SeederEvent.handed?

/-- The objects of the PUTs, once for each attempt. -/
def objectPuts (events : List SeederEvent) : List Job := events.filterMap SeederEvent.object?

/-- The buckets whose sentinel was written. -/
def stampedBuckets (events : List SeederEvent) : List ℕ := events.filterMap SeederEvent.stamped?

def countersSeen (events : List SeederEvent) : List Counters :=
  events.filterMap SeederEvent.counted?

/-- The counters once the workers are done; nothing changes them afterwards. -/
def finalCounters (events : List SeederEvent) : Counters := (countersSeen events).getLastD .zero

section
variable (events : List SeederEvent) (worker b : ℕ) (j : Job) (c : Counters) (reply : PutReply)

@[simp] theorem handedJobs_handed :
    handedJobs (events ++ [.handed worker j]) = handedJobs events ++ [j] := by
  simp [handedJobs, SeederEvent.handed?]

@[simp] theorem handedJobs_object :
    handedJobs (events ++ [.object j reply]) = handedJobs events := by
  simp [handedJobs, List.filterMap_cons, SeederEvent.handed?]

@[simp] theorem handedJobs_counted : handedJobs (events ++ [.counted c]) = handedJobs events := by
  simp [handedJobs, List.filterMap_cons, SeederEvent.handed?]

@[simp] theorem handedJobs_sentinel :
    handedJobs (events ++ [.sentinel b reply]) = handedJobs events := by
  simp [handedJobs, List.filterMap_cons, SeederEvent.handed?]

@[simp] theorem countersSeen_handed :
    countersSeen (events ++ [.handed worker j]) = countersSeen events := by
  simp [countersSeen, List.filterMap_cons, SeederEvent.counted?]

@[simp] theorem countersSeen_object :
    countersSeen (events ++ [.object j reply]) = countersSeen events := by
  simp [countersSeen, List.filterMap_cons, SeederEvent.counted?]

@[simp] theorem finalCounters_counted : finalCounters (events ++ [.counted c]) = c := by
  simp [finalCounters, countersSeen, SeederEvent.counted?]

@[simp] theorem finalCounters_sentinel :
    finalCounters (events ++ [.sentinel b reply]) = finalCounters events := by
  simp [finalCounters, countersSeen, List.filterMap_cons, SeederEvent.counted?]

@[simp] theorem stampedBuckets_handed :
    stampedBuckets (events ++ [.handed worker j]) = stampedBuckets events := by
  simp [stampedBuckets, List.filterMap_cons, SeederEvent.stamped?]

@[simp] theorem stampedBuckets_object :
    stampedBuckets (events ++ [.object j reply]) = stampedBuckets events := by
  simp [stampedBuckets, List.filterMap_cons, SeederEvent.stamped?]

@[simp] theorem stampedBuckets_counted :
    stampedBuckets (events ++ [.counted c]) = stampedBuckets events := by
  simp [stampedBuckets, List.filterMap_cons, SeederEvent.stamped?]

@[simp] theorem stampedBuckets_ok :
    stampedBuckets (events ++ [.sentinel b .ok]) = stampedBuckets events ++ [b] := by
  simp [stampedBuckets, SeederEvent.stamped?]

@[simp] theorem objectPuts_handed :
    objectPuts (events ++ [.handed worker j]) = objectPuts events := by
  simp [objectPuts, List.filterMap_cons, SeederEvent.object?]

@[simp] theorem objectPuts_object :
    objectPuts (events ++ [.object j reply]) = objectPuts events ++ [j] := by
  simp [objectPuts, SeederEvent.object?]

@[simp] theorem objectPuts_counted : objectPuts (events ++ [.counted c]) = objectPuts events := by
  simp [objectPuts, List.filterMap_cons, SeederEvent.object?]

@[simp] theorem objectPuts_sentinel :
    objectPuts (events ++ [.sentinel b reply]) = objectPuts events := by
  simp [objectPuts, List.filterMap_cons, SeederEvent.object?]

theorem stampedBuckets_failed (h : reply ≠ .ok) :
    stampedBuckets (events ++ [.sentinel b reply]) = stampedBuckets events := by
  cases reply with
  | ok => exact absurd rfl h
  | failed landed => simp [stampedBuckets, List.filterMap_cons, SeederEvent.stamped?]

end

namespace Options
variable (words : ℕ → UInt64) (o : Options)

/-- One step of the run in progress. -/
def advance (x : Store × Phase) (a : SeederAct) : Option (Store × Phase) :=
  x.2.step words x.1 o a

variable {words o}

theorem moved_of_advance {x x' : Store × Phase} {a : SeederAct}
    (h : o.advance words x a = some x') : x.2.Moved words x.1 o a x'.1 x'.2 := Phase.moved words h

end Options

/-- One attempt at a sentinel, with what it leads to. -/
theorem advance_stamping {words : ℕ → UInt64} {o : Options} {s : Store} {b tried : ℕ}
    {rest : List ℕ} {c : Counters} {a : SeederAct} {x' : Store × Phase}
    (h : o.advance words (s, .stamping b rest tried c) a = some x') :
    ∃ reply, a = .stamp reply ∧ x'.1 = s.tryPut reply (o.bucketName b) o.naming.sentinelKey
        (o.naming.sentinelBody o.objectSize) ∧
      ((reply = .ok ∧ x'.2 = writeSentinels c rest) ∨
      (reply ≠ .ok ∧ tried + 1 < attempts ∧ x'.2 = .stamping b rest (tried + 1) c) ∨
      (reply ≠ .ok ∧ ¬ tried + 1 < attempts ∧ x'.2 = .returned (some (.sentinel b)))) := by
  have hstep : Phase.step words s o (.stamping b rest tried c) a = some x' := h
  cases a with
  | stamp reply =>
    refine ⟨reply, rfl, ?_⟩
    cases reply with
    | ok =>
      cases hstep
      exact ⟨rfl, .inl ⟨rfl, rfl⟩⟩
    | failed landed =>
      simp only [Phase.step] at hstep
      split_ifs at hstep with hagain
      · cases hstep
        exact ⟨rfl, .inr (.inl ⟨by simp, hagain, rfl⟩)⟩
      · cases hstep
        exact ⟨rfl, .inr (.inr ⟨by simp, hagain, rfl⟩)⟩
  | _ => cases hstep

/-- Nothing happens after `run` has returned. -/
theorem advance_returned {words : ℕ → UInt64} {o : Options} {s : Store} {result : Option RunError}
    {a : SeederAct} : o.advance words (s, .returned result) a = none := by
  cases a <;> rfl

end R2Bench
