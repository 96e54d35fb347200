import Mathlib.Tactic

/-!
# Tables that only grow

A table is its list of rows in insertion order. Rows are appended or updated in
place and never deleted, so a row is identified by its position. `Grows R` says
that every row is still at its position, related to what it was by `R`.
-/
namespace Tables
variable {α β : Type*}

/-- `UPDATE ... SET f WHERE p`. -/
def updateWhere (p : α → Bool) (f : α → α) (rows : List α) : List α :=
  rows.map fun r => if p r then f r else r

@[simp] theorem length_updateWhere (p : α → Bool) (f : α → α) (rows : List α) :
    (updateWhere p f rows).length = rows.length := by simp [updateWhere]

theorem getElem?_updateWhere (p : α → Bool) (f : α → α) (rows : List α) (i : ℕ) :
    (updateWhere p f rows)[i]? = rows[i]?.map fun r => if p r then f r else r := by
  simp [updateWhere]

theorem getElem?_updateWhere_of {p : α → Bool} {f : α → α} {rows : List α} {i : ℕ} {r : α}
    (h : rows[i]? = some r) : (updateWhere p f rows)[i]? = some (if p r then f r else r) := by
  rw [getElem?_updateWhere, h, Option.map_some]

theorem mem_updateWhere {p : α → Bool} {f : α → α} {rows : List α} {y : α} :
    y ∈ updateWhere p f rows ↔ ∃ x ∈ rows, (if p x then f x else x) = y := by
  simp [updateWhere]

theorem updateWhere_of_none {p : α → Bool} {rows : List α} (h : ∀ r ∈ rows, p r = false)
    (f : α → α) : updateWhere p f rows = rows := by
  have hid : updateWhere p f rows = rows.map id := by
    apply List.map_congr_left
    intro r hr
    simp [h r hr]
  rw [hid, List.map_id]

/-- A column that the assignment does not touch reads the same afterwards. -/
theorem map_updateWhere {p : α → Bool} {f : α → α} (g : α → β)
    (h : ∀ r, g (f r) = g r) (rows : List α) :
    (updateWhere p f rows).map g = rows.map g := by
  simp only [updateWhere, List.map_map]
  apply List.map_congr_left
  intro r _
  simp only [Function.comp_apply]
  split_ifs
  · exact h r
  · rfl

/-- Every row of `xs` is at the same position of `ys`, related to it by `R`. -/
def Grows (R : α → α → Prop) (xs ys : List α) : Prop :=
  ∀ (i : ℕ) x, xs[i]? = some x → ∃ y, ys[i]? = some y ∧ R x y

namespace Grows
variable {R : α → α → Prop} {xs ys zs : List α}

theorem refl (h : ∀ x, R x x) (xs : List α) : Grows R xs xs := fun _ x hx => ⟨x, hx, h x⟩

theorem trans (h : ∀ {x y z}, R x y → R y z → R x z) (hxy : Grows R xs ys)
    (hyz : Grows R ys zs) : Grows R xs zs := by
  intro i x hx
  obtain ⟨y, hy, hr⟩ := hxy i x hx
  obtain ⟨z, hz, hr'⟩ := hyz i y hy
  exact ⟨z, hz, h hr hr'⟩

theorem append (h : ∀ x, R x x) (xs ys : List α) : Grows R xs (xs ++ ys) := fun i x hx =>
  ⟨x, by rw [List.getElem?_append_left (List.getElem?_eq_some_iff.mp hx).1, hx], h x⟩

theorem update (h : ∀ x, R x x) {p : α → Bool} {f : α → α} (hf : ∀ x, p x = true → R x (f x))
    (xs : List α) : Grows R xs (updateWhere p f xs) := by
  intro i x hx
  refine ⟨if p x then f x else x, by simp [getElem?_updateWhere, hx], ?_⟩
  split_ifs with hp
  · exact hf x hp
  · exact h x

theorem mem (h : Grows R xs ys) {x : α} (hx : x ∈ xs) : ∃ y ∈ ys, R x y := by
  obtain ⟨i, hi⟩ := List.mem_iff_getElem?.mp hx
  obtain ⟨y, hy, hr⟩ := h i x hi
  exact ⟨y, List.mem_of_getElem? hy, hr⟩

theorem length_le (h : Grows R xs ys) : xs.length ≤ ys.length := by
  by_contra hlt
  have hlast : ys.length < xs.length := by omega
  obtain ⟨y, hy, -⟩ := h ys.length xs[ys.length] (List.getElem?_eq_getElem hlast)
  simp at hy

/-- In a table that did not get longer every row was there before. -/
theorem mem_back (h : Grows R xs ys) (hlen : ys.length ≤ xs.length) {y : α} (hy : y ∈ ys) :
    ∃ x ∈ xs, R x y := by
  obtain ⟨i, hi⟩ := List.mem_iff_getElem?.mp hy
  have hlt : i < xs.length := (List.getElem?_eq_some_iff.mp hi).1.trans_le hlen
  obtain ⟨y', hy', hr⟩ := h i xs[i] (List.getElem?_eq_getElem hlt)
  have hsame : y' = y := Option.some.inj (hy'.symm.trans hi)
  subst hsame
  exact ⟨xs[i], List.getElem_mem hlt, hr⟩

theorem of_cons {a : α} (h : Grows R (a :: xs) ys) :
    ∃ b ys', ys = b :: ys' ∧ R a b ∧ Grows R xs ys' := by
  obtain ⟨b, hb, hab⟩ := h 0 a rfl
  cases ys with
  | nil => simp at hb
  | cons c ys' =>
    have hsame : c = b := by simpa using hb
    subst hsame
    exact ⟨c, ys', rfl, hab, fun i x hx => h (i + 1) x (by simpa using hx)⟩

/-- The rows that match a condition on what `R` preserves. -/
theorem filter {p : α → Bool} (hp : ∀ {x y}, R x y → p y = p x) (h : Grows R xs ys) :
    Grows R (xs.filter p) (ys.filter p) := by
  induction xs generalizing ys with
  | nil => exact fun i x hx => by simp at hx
  | cons a xs ih =>
    obtain ⟨b, ys', rfl, hab, htail⟩ := h.of_cons
    cases ha : p a with
    | false => simpa [List.filter_cons, ha, hp hab] using ih htail
    | true =>
      simp only [List.filter_cons, ha, hp hab, if_true]
      intro i x hx
      cases i with
      | zero => exact ⟨b, rfl, by simpa using (Option.some.inj hx) ▸ hab⟩
      | succ i => exact ih htail i x (by simpa using hx)

/-- Without new rows, what no row can come to satisfy is counted no more often. -/
theorem countP_le {p q : α → Bool} (h : Grows R xs ys) (hlen : ys.length ≤ xs.length)
    (hpq : ∀ x y, R x y → q y = true → p x = true) : ys.countP q ≤ xs.countP p := by
  induction xs generalizing ys with
  | nil =>
    have hsame : ys = [] := by simpa using hlen
    subst hsame
    simp
  | cons a xs ih =>
    obtain ⟨b, ys', rfl, hab, htail⟩ := h.of_cons
    have hrest := ih htail (by simpa using hlen)
    have hhead := hpq a b hab
    rw [List.countP_cons, List.countP_cons]
    by_cases hq : q b = true
    · rw [if_pos hq, if_pos (hhead hq)]
      omega
    · rw [if_neg hq]
      split_ifs <;> omega

end Grows

/-- A column moves forward: it keeps its value or its rank strictly increases. -/
def Forward (rank : α → ℕ) (a b : α) : Prop := a = b ∨ rank a < rank b

namespace Forward
variable {rank : α → ℕ} {a b c : α}

theorem refl (a : α) : Forward rank a a := .inl rfl

theorem trans (hab : Forward rank a b) (hbc : Forward rank b c) : Forward rank a c := by
  rcases hab with rfl | hab
  · exact hbc
  · rcases hbc with rfl | hbc
    · exact .inr hab
    · exact .inr (hab.trans hbc)

/-- At the highest rank nothing can change any more. -/
theorem eq_of_top (h : Forward rank a b) (htop : rank b ≤ rank a) : a = b :=
  h.resolve_right (by omega)

theorem rank_le (h : Forward rank a b) : rank a ≤ rank b := by
  rcases h with rfl | h <;> omega

end Forward
end Tables
