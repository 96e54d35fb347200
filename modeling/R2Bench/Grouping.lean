import Mathlib.Algebra.BigOperators.Group.List.Basic
import Mathlib.Data.List.Dedup
import Mathlib.Tactic

/-!
# Grouping rows by a key

`GROUP BY` as a list of groups, one for each key that occurs. Sums over groups
are sums over the rows, and grouping by two keys and then by the second is the
same as grouping the rows of the second key by the first.
-/
namespace Grouping
variable {α κ μ : Type*} [DecidableEq κ]

/-- The rows of each key that occurs. -/
def groupBy (key : α → κ) (rows : List α) : List (κ × List α) :=
  (rows.map key).dedup.map fun k => (k, rows.filter fun r => key r = k)

theorem keys_groupBy (key : α → κ) (rows : List α) :
    (groupBy key rows).map Prod.fst = (rows.map key).dedup := by
  simp [groupBy, Function.comp_def]

theorem mem_groupBy {key : α → κ} {rows : List α} {g : κ × List α} :
    g ∈ groupBy key rows ↔ (∃ r ∈ rows, key r = g.1) ∧ g.2 = rows.filter fun r => key r = g.1 := by
  obtain ⟨k, rs⟩ := g
  simp only [groupBy, List.mem_map, List.mem_dedup, Prod.mk.injEq]
  constructor
  · rintro ⟨k', ⟨r, hr, rfl⟩, rfl, rfl⟩
    exact ⟨⟨r, hr, rfl⟩, rfl⟩
  · rintro ⟨⟨r, hr, hk⟩, hrs⟩
    exact ⟨k, ⟨r, hr, hk⟩, rfl, hrs.symm⟩

/-- A group has at least one row. -/
theorem ne_nil_of_mem_groupBy {key : α → κ} {rows : List α} {g : κ × List α}
    (h : g ∈ groupBy key rows) : g.2 ≠ [] := by
  obtain ⟨⟨r, hr, hk⟩, hg⟩ := mem_groupBy.mp h
  rw [hg]
  exact List.ne_nil_of_mem (List.mem_filter.mpr ⟨hr, by simpa using hk⟩)

/-- Every row is in some group. -/
theorem exists_mem_groupBy {key : α → κ} {rows : List α} {p : α → Prop} :
    (∃ g ∈ groupBy key rows, ∃ r ∈ g.2, p r) ↔ ∃ r ∈ rows, p r := by
  constructor
  · rintro ⟨g, hg, r, hr, hp⟩
    rw [(mem_groupBy.mp hg).2] at hr
    exact ⟨r, (List.mem_filter.mp hr).1, hp⟩
  · rintro ⟨r, hr, hp⟩
    exact ⟨(key r, rows.filter fun r' => key r' = key r), mem_groupBy.mpr ⟨⟨r, hr, rfl⟩, rfl⟩, r,
      List.mem_filter.mpr ⟨hr, by simp⟩, hp⟩

section Sums
variable {M : Type*} [AddCommMonoid M]

theorem sum_map_ite_eq {ks : List κ} (hks : ks.Nodup) {k : κ} (hk : k ∈ ks) (x : M) :
    (ks.map fun k' => if k = k' then x else 0).sum = x := by
  induction ks with
  | nil => cases hk
  | cons k' ks ih =>
    obtain ⟨hout, hks⟩ := List.nodup_cons.mp hks
    rw [List.map_cons, List.sum_cons]
    by_cases he : k = k'
    · have hrest : (ks.map fun k' => if k = k' then x else 0).sum = 0 := by
        apply List.sum_eq_zero
        intro y hy
        obtain ⟨k'', hk'', rfl⟩ := List.mem_map.mp hy
        apply if_neg
        intro heq
        subst heq
        exact hout (he ▸ hk'')
      rw [if_pos he, hrest, add_zero]
    · have hin : k ∈ ks := (List.mem_cons.mp hk).resolve_left he
      rw [if_neg he, zero_add, ih hks hin]

/-- Rows summed key by key, over keys that cover them. -/
theorem sum_filter_key {key : α → κ} {ks : List κ} (hks : ks.Nodup) (f : α → M) {rows : List α}
    (hcover : ∀ r ∈ rows, key r ∈ ks) :
    (ks.map fun k => ((rows.filter fun r => key r = k).map f).sum).sum = (rows.map f).sum := by
  induction rows with
  | nil => simp
  | cons r rows ih =>
    have hsplit : ∀ k, (((r :: rows).filter fun r => key r = k).map f).sum =
        (if key r = k then f r else 0) + ((rows.filter fun r => key r = k).map f).sum := by
      intro k
      by_cases hk : key r = k
      · simp [hk]
      · simp [hk]
    simp only [hsplit, List.sum_map_add, List.map_cons, List.sum_cons]
    rw [sum_map_ite_eq hks (hcover r (by simp)), ih fun r' hr' => hcover r' (by simp [hr'])]

/-- The sums of all groups add up to the sum of all rows. -/
theorem sum_groupBy (key : α → κ) (f : α → M) (rows : List α) :
    ((groupBy key rows).map fun g => (g.2.map f).sum).sum = (rows.map f).sum := by
  rw [groupBy, List.map_map]
  exact sum_filter_key (List.nodup_dedup _) f fun r hr =>
    List.mem_dedup.mpr (List.mem_map_of_mem hr)

end Sums

/-- The groups of two keys with a given second one are the groups, by the first,
of the rows with that second key. -/
theorem groupBy_pair_perm [DecidableEq μ] (g : α → κ) (h : α → μ) (m : μ) (rows : List α) :
    ((groupBy (fun r => (g r, h r)) rows).filter fun p => p.1.2 = m).Perm
      ((groupBy g (rows.filter fun r => h r = m)).map fun p => ((p.1, m), p.2)) := by
  have hkeys : (((rows.map fun r => (g r, h r)).dedup).filter fun k => k.2 = m).Perm
      (((rows.filter fun r => h r = m).map g).dedup.map fun k => (k, m)) := by
    refine (List.perm_ext_iff_of_nodup ((List.nodup_dedup _).filter _)
      ((List.nodup_dedup _).map fun _ _ he => (Prod.mk.inj he).1)).mpr fun ⟨k, m'⟩ => ?_
    simp only [List.mem_filter, List.mem_dedup, List.mem_map, Prod.mk.injEq, decide_eq_true_eq]
    constructor
    · rintro ⟨⟨r, hr, rfl, rfl⟩, rfl⟩
      exact ⟨g r, ⟨r, ⟨hr, rfl⟩, rfl⟩, rfl, rfl⟩
    · rintro ⟨_, ⟨r, ⟨hr, rfl⟩, rfl⟩, rfl, rfl⟩
      exact ⟨⟨r, hr, rfl, rfl⟩, rfl⟩
  have hgroup := hkeys.map fun k => (k, rows.filter fun r => (g r, h r) = k)
  have hleft : (groupBy (fun r => (g r, h r)) rows).filter (fun p => p.1.2 = m) =
      (((rows.map fun r => (g r, h r)).dedup).filter fun k => k.2 = m).map
        fun k => (k, rows.filter fun r => (g r, h r) = k) := by
    rw [groupBy, List.filter_map]
    rfl
  have hright : (groupBy g (rows.filter fun r => h r = m)).map (fun p => ((p.1, m), p.2)) =
      (((rows.filter fun r => h r = m).map g).dedup.map fun k => (k, m)).map
        fun k => (k, rows.filter fun r => (g r, h r) = k) := by
    rw [groupBy, List.map_map, List.map_map]
    apply List.map_congr_left
    intro k _
    simp only [Function.comp_apply, List.filter_filter, Prod.mk.injEq, Bool.decide_and]
  rw [hleft, hright]
  exact hgroup

/-- The greatest value of a group that is not empty. -/
def maxOf [LinearOrder μ] (d : μ) : List μ → μ
  | [] => d
  | x :: xs => xs.foldl max x

theorem le_foldl_max_iff [LinearOrder μ] {y : μ} (xs : List μ) (x : μ) :
    y ≤ xs.foldl max x ↔ y ≤ x ∨ ∃ z ∈ xs, y ≤ z := by
  induction xs generalizing x with
  | nil => simp
  | cons z xs ih =>
    rw [List.foldl_cons, ih, le_max_iff]
    simp only [List.mem_cons, exists_eq_or_imp, or_assoc]

theorem le_maxOf_iff [LinearOrder μ] {y d : μ} {xs : List μ} (h : xs ≠ []) :
    y ≤ maxOf d xs ↔ ∃ z ∈ xs, y ≤ z := by
  cases xs with
  | nil => exact absurd rfl h
  | cons x xs =>
    rw [maxOf, le_foldl_max_iff]
    simp only [List.mem_cons, exists_eq_or_imp]

end Grouping
