import R2Bench.Machines

/-!
# Cells that are added to one at a time

A call adds to several cells, each in an atomic step of its own, and any number of calls
are under way at once. Whoever reads the cells one by one may find a call in some of
them and not in others. Cell by cell the reader is right all the same: what a load finds
is what some of the calls add there, each of them once.
-/
namespace AtomicCells
open Machines
variable {κ ι M : Type*}

/-- A call that has made some of its additions. -/
structure Call (adds : κ → List (ι × M)) where
  op : κ
  made : List (ι × M)
  rest : List (ι × M)
  whole : made ++ rest = adds op

/-- The cells, and the calls in the order in which they began. -/
structure Cells (adds : κ → List (ι × M)) where
  value : ι → M
  calls : List (Call adds)

inductive Act (κ ι : Type*)
  | begin (op : κ)
  | add (i : ℕ)
  | load (cell : ι)
  deriving DecidableEq

variable {adds : κ → List (ι × M)} [DecidableEq ι] {cell : ι}

/-- The next addition of a call, and the call after it. -/
def Call.next : Call adds → Option ((ι × M) × Call adds)
  | ⟨_, _, [], _⟩ => none
  | ⟨op, made, a :: rest, whole⟩ => some (a, ⟨op, made ++ [a], rest, by simpa using whole⟩)

namespace Cells

/-- The calls that have begun, that have returned, and that have nothing left to add to
a cell. -/
def begun (v : Cells adds) : List κ := v.calls.map Call.op

def returned (v : Cells adds) : List κ := (v.calls.filter fun c => c.rest.isEmpty).map Call.op

def settled (cell : ι) (v : Cells adds) : List κ :=
  (v.calls.filter fun c => c.rest.all fun a => a.1 ≠ cell).map Call.op

theorem settled_sublist_begun (v : Cells adds) : (v.settled cell).Sublist v.begun :=
  List.filter_sublist.map _

theorem returned_sublist_settled (v : Cells adds) : v.returned.Sublist (v.settled cell) := by
  refine (List.monotone_filter_right _ fun c hc => ?_).map _
  simp [List.isEmpty_iff.mp hc]

variable [AddCommMonoid M]

def start (adds : κ → List (ι × M)) : Cells adds := ⟨fun _ => 0, []⟩

def step (adds : κ → List (ι × M)) (v : Cells adds) : Act κ ι → Option (Cells adds)
  | .begin op => some { v with calls := v.calls ++ [⟨op, [], adds op, rfl⟩] }
  | .add i => (v.calls[i]?.bind Call.next).map fun next =>
    ⟨Function.update v.value next.1.1 (v.value next.1.1 + next.1.2), v.calls.set i next.2⟩
  | .load _ => some v

/-- What a load finds. -/
def loaded (v : Cells adds) : Act κ ι → Option (ι × M)
  | .load cell => some (cell, v.value cell)
  | _ => none

end Cells

variable [AddCommMonoid M]

/-- What a list of additions adds to a cell. -/
def added (cell : ι) (l : List (ι × M)) : M := ((l.filter fun a => a.1 = cell).map Prod.snd).sum

/-- What calls add to a cell. -/
def addedBy (adds : κ → List (ι × M)) (cell : ι) (ops : List κ) : M :=
  (ops.map fun op => added cell (adds op)).sum

/-- No call adds to a cell twice. -/
def Once (adds : κ → List (ι × M)) : Prop := ∀ op, ((adds op).map Prod.fst).Nodup

/-! ## Additions -/

section
variable {l l' : List (ι × M)}

@[simp] theorem added_nil : added cell ([] : List (ι × M)) = 0 := rfl

@[simp] theorem added_append : added cell (l ++ l') = added cell l + added cell l' := by
  simp [added]

@[simp] theorem added_cons (a : ι × M) :
    added cell (a :: l) = (if a.1 = cell then a.2 else 0) + added cell l := by
  by_cases h : a.1 = cell
  · simp [added, h]
  · simp [added, h]

theorem added_of_not_mem (h : ∀ a ∈ l, a.1 ≠ cell) : added cell l = 0 := by
  rw [added, List.filter_eq_nil_iff.mpr (by simpa using h)]
  rfl

/-- A call is through with a cell or has not added to it. -/
theorem Call.added_made (once : Once adds) (c : Call adds) :
    added cell c.made =
      if c.rest.all (fun a => a.1 ≠ cell) then added cell (adds c.op) else 0 := by
  split_ifs with hrest
  · have hnone : ∀ a ∈ c.rest, a.1 ≠ cell := by simpa using hrest
    rw [← c.whole, added_append, added_of_not_mem hnone, add_zero]
  · obtain ⟨a, ha, hcell⟩ : ∃ a ∈ c.rest, a.1 = cell := by simpa using hrest
    have hnodup := once c.op
    rw [← c.whole, List.map_append, List.nodup_append] at hnodup
    apply added_of_not_mem
    intro b hb hsame
    exact hnodup.2.2 b.1 (List.mem_map_of_mem hb) a.1 (List.mem_map_of_mem ha)
      (hsame.trans hcell.symm)

end

namespace Cells
variable {C : Cells adds → Act κ ι → Prop} {u v v' : Cells adds} {a : Act κ ι}
  {acts window : List (Act κ ι)} {x : M}

/-! ## Steps -/

/-- Everything a step can do. -/
inductive Moved (v : Cells adds) : Act κ ι → Cells adds → Prop
  | begin (op : κ) :
      Moved v (.begin op) { v with calls := v.calls ++ [⟨op, [], adds op, rfl⟩] }
  | add {i : ℕ} {c : Call adds} {a : ι × M} {rest : List (ι × M)}
      (there : v.calls[i]? = some c) (next : c.rest = a :: rest) (whole) :
      Moved v (.add i) ⟨Function.update v.value a.1 (v.value a.1 + a.2),
        v.calls.set i ⟨c.op, c.made ++ [a], rest, whole⟩⟩
  | load (cell : ι) : Moved v (.load cell) v

theorem moved (h : v.step adds a = some v') : Moved v a v' := by
  cases a with
  | begin op =>
    cases h
    exact .begin op
  | load cell =>
    cases h
    exact .load cell
  | add i =>
    obtain ⟨next, hnext, rfl⟩ := Option.map_eq_some_iff.mp h
    obtain ⟨⟨op, made, rest, whole⟩, there, hcall⟩ := Option.bind_eq_some_iff.mp hnext
    cases rest with
    | nil => cases hcall
    | cons a rest =>
      cases hcall
      exact .add there rfl _

/-! ## Values -/

/-- A cell holds what has been added to it. -/
def Sound (v : Cells adds) : Prop :=
  ∀ cell, v.value cell = (v.calls.map fun c => added cell c.made).sum

theorem sum_set {α : Type*} {f : α → M} {l : List α} {i : ℕ} {c c' : α} {m : M}
    (there : l[i]? = some c) (h : f c' = f c + m) :
    ((l.set i c').map f).sum = (l.map f).sum + m := by
  induction l generalizing i with
  | nil => cases there
  | cons b l ih =>
    cases i with
    | zero =>
      obtain rfl : b = c := by simpa using there
      simp only [List.set_cons_zero, List.map_cons, List.sum_cons, h]
      abel
    | succ i =>
      simp only [List.set_cons_succ, List.map_cons, List.sum_cons, ih there, add_assoc]

theorem Sound.moved (hv : v.Sound) (h : Moved v a v') : v'.Sound := by
  intro cell
  cases h with
  | begin op => simp [hv cell]
  | load _ => exact hv cell
  | @add i c a rest there next whole =>
    dsimp only
    have hmade : added cell (c.made ++ [a]) =
        added cell c.made + if a.1 = cell then a.2 else 0 := by simp
    rw [sum_set there hmade, ← hv cell]
    by_cases hcell : a.1 = cell
    · subst hcell
      simp
    · rw [Function.update_of_ne (Ne.symm hcell), if_neg hcell, add_zero]

theorem sound_of_run (run : Run (step adds) C (start adds) acts v) : v.Sound :=
  run.invariant (fun _ => rfl) fun _ _ _ _ h hv => hv.moved (Cells.moved h)

theorem Sound.value_eq (hv : v.Sound) (once : Once adds) (cell : ι) :
    v.value cell = addedBy adds cell (v.settled cell) := by
  rw [hv cell, addedBy, settled]
  induction v.calls with
  | nil => rfl
  | cons c calls ih =>
    simp only [List.map_cons, List.sum_cons, ih, List.filter_cons, c.added_made once]
    split_ifs
    · rfl
    · rw [zero_add]

/-! ## Who is counted -/

theorem sublist_set {α β : Type*} {p : α → Bool} {f : α → β} {l : List α} {i : ℕ} {c c' : α}
    (there : l[i]? = some c) (hp : p c = true → p c' = true) (hf : f c' = f c) :
    ((l.filter p).map f).Sublist (((l.set i c').filter p).map f) := by
  induction l generalizing i with
  | nil => cases there
  | cons b l ih =>
    cases i with
    | zero =>
      obtain rfl : b = c := by simpa using there
      rw [List.set_cons_zero, List.filter_cons, List.filter_cons]
      split_ifs with hb hc
      · simp [hf]
      · exact absurd (hp hb) hc
      · exact List.sublist_cons_self _ _
      · exact List.Sublist.refl _
    | succ i =>
      rw [List.set_cons_succ, List.filter_cons, List.filter_cons]
      split_ifs
      · exact (ih there).cons_cons _
      · exact ih there

/-- Who is through with a cell stays so. -/
theorem settled_moved (h : Moved v a v') : (v.settled cell).Sublist (v'.settled cell) := by
  cases h with
  | begin op =>
    simp only [settled, List.filter_append, List.map_append]
    exact List.sublist_append_left _ _
  | load _ => exact List.Sublist.refl _
  | @add i c a rest there next whole =>
    refine sublist_set there (fun hrest => ?_) rfl
    rw [next, List.all_cons, Bool.and_eq_true] at hrest
    exact hrest.2

theorem settled_of_run (run : Run (step adds) C u acts v) :
    (u.settled cell).Sublist (v.settled cell) :=
  run.invariant (I := fun v => (u.settled cell).Sublist (v.settled cell)) (List.Sublist.refl _)
    fun _ _ _ _ h hv => hv.trans (settled_moved (moved h))

/-- What a load finds is what some of the calls add to the cell, each of them once: at
least those through with it when the reading began, and at most those through with it
when it ended. -/
theorem exists_seen (once : Once adds) (hu : u.Sound) (during : Run (step adds) C u window v)
    (h : (cell, x) ∈ log (step adds) loaded window u) :
    ∃ seen, (u.settled cell).Sublist seen ∧ seen.Sublist (v.settled cell) ∧
      x = addedBy adds cell seen := by
  have hall := during.invariant_log loaded
    (I := fun v noted => v.Sound ∧ (u.settled cell).Sublist (v.settled cell) ∧
      ∀ x, (cell, x) ∈ noted → ∃ seen, (u.settled cell).Sublist seen ∧
        seen.Sublist (v.settled cell) ∧ x = addedBy adds cell seen)
    ⟨hu, List.Sublist.refl _, by simp⟩ (by
      rintro w noted a w' - hstep ⟨hw, hsettled, hnoted⟩
      have hmoved := moved hstep
      have hkept : (w.settled cell).Sublist (w'.settled cell) := settled_moved hmoved
      refine ⟨hw.moved hmoved, hsettled.trans hkept, fun x hx => ?_⟩
      obtain hx | hx := List.mem_append.mp hx
      · obtain ⟨seen, hleast, hmost, hsum⟩ := hnoted x hx
        exact ⟨seen, hleast, hmost.trans hkept, hsum⟩
      · cases a with
        | load other =>
          obtain ⟨rfl, rfl⟩ : cell = other ∧ x = w.value other := by
            simpa [loaded] using hx
          exact ⟨_, hsettled, hkept, hw.value_eq once cell⟩
        | _ => simp [loaded] at hx)
  exact hall.2.2 x h

/-- A later sum is an earlier one and that of further calls. -/
theorem exists_fresh (adds : κ → List (ι × M)) (cell : ι) {seen seen' : List κ}
    (h : seen.Sublist seen') :
    ∃ fresh, (seen ++ fresh).Perm seen' ∧
      addedBy adds cell seen' = addedBy adds cell seen + addedBy adds cell fresh := by
  obtain ⟨fresh, hperm⟩ := h.exists_perm_append
  refine ⟨fresh, hperm.symm, ?_⟩
  rw [addedBy, (hperm.map _).sum_eq, List.map_append, List.sum_append]
  rfl

/-! ## Loads on end -/

theorem run_loads (cells : List ι) (hC : ∀ cell, C v (.load cell)) :
    Run (step adds) C v (cells.map .load) v := by
  induction cells using List.reverseRecOn with
  | nil => exact .start
  | append_singleton cells cell ih =>
    rw [List.map_append]
    exact ih.next (hC cell) rfl

theorem log_loads (cells : List ι) (v : Cells adds) :
    log (step adds) loaded (cells.map .load) v = cells.map fun cell => (cell, v.value cell) := by
  induction cells with
  | nil => rfl
  | cons cell cells ih => exact congrArg ((cell, v.value cell) :: ·) ih

end Cells
end AtomicCells
