import R2Bench.Orchestrator

/-!
# Token comparison

Both comparison loops OR the XORs of the code units of two texts of one length.
The accumulator stays zero exactly for equal texts, because UTF-16 is injective.
-/
namespace R2Bench

/-- The code units of one character. -/
def charUnits (c : Char) : List ℕ :=
  if c.toNat < 0x10000 then [c.toNat]
  else [0xD800 + (c.toNat - 0x10000) / 0x400, 0xDC00 + (c.toNat - 0x10000) % 0x400]

theorem charCodes_eq (s : String) : charCodes s = s.toList.flatMap charUnits := rfl

theorem toNat_bounds (c : Char) : c.toNat < 0xD800 ∨ (0xDFFF < c.toNat ∧ c.toNat < 0x110000) :=
  c.valid

/-- A character's units are told apart from those of any other, whatever
follows: no unit of a pair is a character of its own. -/
theorem charUnits_append_inj {c d : Char} {us vs : List ℕ}
    (h : charUnits c ++ us = charUnits d ++ vs) : c = d ∧ us = vs := by
  have hc := toNat_bounds c
  have hd := toNat_bounds d
  have hchar : c.toNat = d.toNat → c = d := fun h => Char.ext (UInt32.toNat_inj.mp h)
  unfold charUnits at h
  by_cases hcs : c.toNat < 0x10000
  · by_cases hds : d.toNat < 0x10000
    · rw [if_pos hcs, if_pos hds] at h
      obtain ⟨hhead, htail⟩ := List.cons_eq_cons.mp h
      exact ⟨hchar hhead, htail⟩
    · rw [if_pos hcs, if_neg hds] at h
      have hhead := (List.cons_eq_cons.mp h).1
      omega
  · by_cases hds : d.toNat < 0x10000
    · rw [if_neg hcs, if_pos hds] at h
      have hhead := (List.cons_eq_cons.mp h).1
      omega
    · rw [if_neg hcs, if_neg hds] at h
      obtain ⟨hhigh, hrest⟩ := List.cons_eq_cons.mp h
      obtain ⟨hlow, htail⟩ := List.cons_eq_cons.mp hrest
      exact ⟨hchar (by omega), htail⟩

theorem charUnits_ne_nil (c : Char) : charUnits c ≠ [] := by
  unfold charUnits
  split <;> simp

theorem flatMap_charUnits_inj {cs ds : List Char}
    (h : cs.flatMap charUnits = ds.flatMap charUnits) : cs = ds := by
  induction cs generalizing ds with
  | nil =>
    cases ds with
    | nil => rfl
    | cons d ds => exact absurd (List.append_eq_nil_iff.mp h.symm).1 (charUnits_ne_nil d)
  | cons c cs ih =>
    cases ds with
    | nil => exact absurd (List.append_eq_nil_iff.mp h).1 (charUnits_ne_nil c)
    | cons d ds =>
      obtain ⟨rfl, htail⟩ := charUnits_append_inj h
      rw [ih htail]

theorem charCodes_injective : Function.Injective charCodes := by
  intro s t h
  rw [charCodes_eq, charCodes_eq] at h
  exact String.toList_injective (flatMap_charUnits_inj h)

theorem xor_eq_zero_iff (a b : ℕ) : a ^^^ b = 0 ↔ a = b := by
  constructor
  · intro h
    calc a = a ^^^ (b ^^^ b) := by rw [Nat.xor_self, Nat.xor_zero]
      _ = 0 ^^^ b := by rw [← Nat.xor_assoc, h]
      _ = b := Nat.zero_xor b
  · intro heq
    subst heq
    exact Nat.xor_self a

/-- The accumulator is zero when it was and all pairs of units agree. -/
theorem foldl_diff_eq_zero (us vs : List ℕ) (hlen : us.length = vs.length) (diff : ℕ) :
    (us.zip vs).foldl (fun diff c => diff ||| (c.1 ^^^ c.2)) diff = 0 ↔ diff = 0 ∧ us = vs := by
  induction us generalizing vs diff with
  | nil =>
    have hsame : vs = [] := List.eq_nil_of_length_eq_zero hlen.symm
    subst hsame
    simp
  | cons u us ih =>
    cases vs with
    | nil => cases hlen
    | cons v vs =>
      rw [List.zip_cons_cons, List.foldl_cons, ih vs (Nat.succ.inj hlen), Nat.or_eq_zero_iff,
        xor_eq_zero_iff, List.cons_eq_cons, and_assoc]

theorem charDiff_eq_zero_iff {expected presented : String}
    (hlen : (charCodes presented).length = (charCodes expected).length) :
    charDiff expected presented = 0 ↔ presented = expected := by
  rw [charDiff, foldl_diff_eq_zero _ _ hlen.symm]
  constructor
  · rintro ⟨-, h⟩
    exact (charCodes_injective h).symm
  · intro heq
    subst heq
    exact ⟨rfl, rfl⟩

/-- Agents are let in exactly with the token itself, and never without one. -/
theorem verifyAgentToken_iff (env : Env) (presented : Option String) :
    verifyAgentToken env presented = true ↔
      env.agentToken ≠ "" ∧ presented = some env.agentToken := by
  cases presented with
  | none => simp [verifyAgentToken]
  | some presented =>
    simp only [verifyAgentToken, Option.some.injEq]
    split
    · next h =>
      apply iff_of_false (by simp)
      rintro ⟨hne, rfl⟩
      simp [hne] at h
    · next h =>
      push Not at h
      rw [decide_eq_true_eq, charDiff_eq_zero_iff h.2.2, and_iff_right h.1]

/-- Operators are let in exactly with the token itself, when one is set. -/
theorem requireAdmin_iff (env : Env) (presented : String) :
    requireAdmin env presented = true ↔ env.adminToken = "" ∨ presented = env.adminToken := by
  unfold requireAdmin
  split
  · next h => simp [h]
  · next h =>
    split
    · next hlen =>
      apply iff_of_false (by simp)
      rintro (h' | rfl)
      · exact h h'
      · exact hlen rfl
    · next hlen =>
      rw [decide_eq_true_eq, charDiff_eq_zero_iff (not_not.mp hlen), or_iff_right h]

end R2Bench
