import R2Bench.ByteStrings

/-!
# Percent-encoding

Bytes of a given set are written for themselves, every other byte as a percent sign
and two hexadecimal digits. The decoder takes the digits in either case.
-/
namespace R2Bench

/-- The unreserved characters of RFC 3986: letters, digits, hyphen, period,
underscore and tilde. -/
def Unreserved (c : UInt8) : Prop :=
  (0x41 ≤ c ∧ c ≤ 0x5A) ∨ (0x61 ≤ c ∧ c ≤ 0x7A) ∨ (0x30 ≤ c ∧ c ≤ 0x39) ∨
    c = 0x2D ∨ c = 0x2E ∨ c = 0x5F ∨ c = 0x7E

instance (c : UInt8) : Decidable (Unreserved c) := by
  unfold Unreserved; infer_instance

/-- An upper case hexadecimal digit. -/
def hexDigit (d : ℕ) : UInt8 := UInt8.ofNat (if d < 10 then 48 + d else 55 + d)

def isUpperHex (c : UInt8) : Bool :=
  ('0'.toUInt8 ≤ c ∧ c ≤ '9'.toUInt8) ∨ ('A'.toUInt8 ≤ c ∧ c ≤ 'F'.toUInt8)

/-- The value of a hexadecimal digit. -/
def hexValue (c : UInt8) : Option ℕ :=
  if '0'.toUInt8 ≤ c ∧ c ≤ '9'.toUInt8 then some (c.toNat - '0'.toNat)
  else if 'A'.toUInt8 ≤ c ∧ c ≤ 'F'.toUInt8 then some (c.toNat - 'A'.toNat + 10)
  else if 'a'.toUInt8 ≤ c ∧ c ≤ 'f'.toUInt8 then some (c.toNat - 'a'.toNat + 10)
  else none

theorem isUpperHex_hexDigit {d : ℕ} (h : d < 16) : isUpperHex (hexDigit d) = true := by
  have hall : ∀ d < 16, isUpperHex (hexDigit d) = true := by decide
  exact hall d h

theorem hexValue_hexDigit {d : ℕ} (h : d < 16) : hexValue (hexDigit d) = some d := by
  have hall : ∀ d < 16, hexValue (hexDigit d) = some d := by decide
  exact hall d h

/-- Fails where a percent sign is not followed by two digits. -/
def percentDecode : Bytes → Option Bytes
  | [] => some []
  | c :: rest =>
    if c = '%'.toUInt8 then
      match rest with
      | hi :: lo :: rest => do
        let hi ← hexValue hi
        let lo ← hexValue lo
        let text ← percentDecode rest
        return UInt8.ofNat (16 * hi + lo) :: text
      | _ => none
    else (percentDecode rest).map (c :: ·)

theorem percentDecode_plain {c : UInt8} (h : c ≠ '%'.toUInt8) (rest : Bytes) :
    percentDecode (c :: rest) = (percentDecode rest).map (c :: ·) := by
  rw [percentDecode.eq_def]
  exact if_neg h

theorem percentDecode_triple {hi lo : ℕ} (hhi : hi < 16) (hlo : lo < 16) (rest : Bytes) :
    percentDecode ('%'.toUInt8 :: hexDigit hi :: hexDigit lo :: rest) =
      (percentDecode rest).map (UInt8.ofNat (16 * hi + lo) :: ·) := by
  rw [percentDecode.eq_def]
  simp only [if_true, hexValue_hexDigit hhi, hexValue_hexDigit hlo]
  cases percentDecode rest <;> rfl

/-- Without percent signs there is nothing to decode. -/
theorem percentDecode_of_not_mem {text : Bytes} (h : '%'.toUInt8 ∉ text) :
    percentDecode text = some text := by
  induction text with
  | nil => rfl
  | cons c text ih =>
    have hc : c ≠ '%'.toUInt8 := fun he => h (he ▸ List.mem_cons_self)
    rw [percentDecode_plain hc, ih fun hmem => h (List.mem_cons_of_mem c hmem)]
    rfl

/-- What stands first is decoded for itself. -/
theorem percentDecode_append {text read : Bytes} (h : percentDecode text = some read)
    (rest : Bytes) : percentDecode (text ++ rest) = (percentDecode rest).map (read ++ ·) := by
  fun_induction percentDecode text generalizing read with
  | case1 =>
    obtain rfl : [] = read := Option.some.inj h
    simp
  | case2 hi lo text ih =>
    simp only [Option.bind_eq_bind, Option.bind_eq_some_iff, Option.pure_def] at h
    obtain ⟨high, hhigh, low, hlow, tail, htail, hread⟩ := h
    obtain rfl := Option.some.inj hread
    rw [List.cons_append, List.cons_append, List.cons_append, percentDecode.eq_def]
    simp only [if_true, hhigh, hlow, ih htail]
    cases percentDecode rest <;> rfl
  | case3 => cases h
  | case4 c text hc ih =>
    obtain ⟨tail, htail, rfl⟩ := Option.map_eq_some_iff.mp h
    rw [List.cons_append, percentDecode_plain hc, ih htail, Option.map_map]
    rfl

/-- An escape does not reach over a byte that is no digit. -/
theorem exists_percentDecode {text rest : Bytes} {c : UInt8} (hc : hexValue c = none)
    (h : (percentDecode (text ++ c :: rest)).isSome = true) :
    ∃ read, percentDecode text = some read := by
  fun_induction percentDecode text with
  | case1 => exact ⟨[], rfl⟩
  | case2 hi lo text ih =>
    rw [List.cons_append, List.cons_append, List.cons_append, percentDecode.eq_def] at h
    simp only [if_true] at h
    cases hhigh : hexValue hi with
    | none => simp [hhigh] at h
    | some high =>
      cases hlow : hexValue lo with
      | none => simp [hhigh, hlow] at h
      | some low =>
        obtain ⟨read, hread⟩ := ih (by
          cases hrest : percentDecode (text ++ c :: rest) with
          | none => simp [hhigh, hlow, hrest] at h
          | some _ => rfl)
        exact ⟨_, by simp [hread]; rfl⟩
  | case3 text hshort =>
    rw [List.cons_append, percentDecode.eq_def] at h
    -- at most one byte stands between the percent sign and `c`
    match text with
    | [] =>
      cases rest with
      | nil => simp at h
      | cons d rest => simp [hc] at h
    | [d] => cases hd : hexValue d <;> simp [hc, hd] at h
    | hi :: lo :: text => exact (hshort hi lo text rfl).elim
  | case4 d text hd ih =>
    rw [List.cons_append, percentDecode_plain hd, Option.isSome_map] at h
    obtain ⟨read, hread⟩ := ih h
    exact ⟨d :: read, by rw [hread]; rfl⟩

theorem length_percentDecode_le {text read : Bytes} (h : percentDecode text = some read) :
    read.length ≤ text.length := by
  fun_induction percentDecode text generalizing read with
  | case1 =>
    obtain rfl : [] = read := Option.some.inj h
    exact le_rfl
  | case2 hi lo text ih =>
    simp only [Option.bind_eq_bind, Option.bind_eq_some_iff, Option.pure_def] at h
    obtain ⟨high, -, low, -, tail, htail, hread⟩ := h
    obtain rfl := Option.some.inj hread
    have htail := ih htail
    simp only [List.length_cons]
    omega
  | case3 => cases h
  | case4 c text hc ih =>
    obtain ⟨tail, htail, rfl⟩ := Option.map_eq_some_iff.mp h
    exact Nat.succ_le_succ (ih htail)

/-- Every escape makes the text shorter. -/
theorem not_mem_of_length_percentDecode {text read : Bytes} (h : percentDecode text = some read)
    (hlen : read.length = text.length) : '%'.toUInt8 ∉ text := by
  fun_induction percentDecode text generalizing read with
  | case1 => simp
  | case2 hi lo text ih =>
    simp only [Option.bind_eq_bind, Option.bind_eq_some_iff, Option.pure_def] at h
    obtain ⟨high, -, low, -, tail, htail, hread⟩ := h
    obtain rfl := Option.some.inj hread
    have hle := length_percentDecode_le htail
    simp only [List.length_cons] at hlen
    omega
  | case3 => cases h
  | case4 c text hc ih =>
    obtain ⟨tail, htail, rfl⟩ := Option.map_eq_some_iff.mp h
    intro hmem
    rcases List.mem_cons.mp hmem with he | hmem
    · exact hc he.symm
    · exact ih htail (Nat.succ.inj hlen) hmem

section
variable (safe : UInt8 → Prop) [DecidablePred safe]

/-- What is written for one byte. -/
def escapeByte (c : UInt8) : Bytes :=
  if safe c then [c]
  else ['%'.toUInt8, hexDigit (c.toNat / 16), hexDigit (c.toNat % 16)]

def escape (text : Bytes) : Bytes := text.flatMap (escapeByte safe)

/-- Safe bytes and percent signs, each of these with two upper case digits. -/
inductive Escaped : Bytes → Prop
  | nil : Escaped []
  | plain {c : UInt8} {rest : Bytes} (h : safe c) (tail : Escaped rest) : Escaped (c :: rest)
  | triple {hi lo : UInt8} {rest : Bytes} (hhi : isUpperHex hi = true) (hlo : isUpperHex lo = true)
      (tail : Escaped rest) : Escaped ('%'.toUInt8 :: hi :: lo :: rest)

variable {safe}

theorem escaped_escape (text : Bytes) : Escaped safe (escape safe text) := by
  induction text with
  | nil => exact .nil
  | cons c text ih =>
    have hlt := c.toNat_lt
    rw [escape, List.flatMap_cons, escapeByte]
    split_ifs with hc
    · exact .plain hc ih
    · exact .triple (isUpperHex_hexDigit (by omega)) (isUpperHex_hexDigit (by omega)) ih

/-- One byte is read back, whatever comes after it. -/
theorem percentDecode_escapeByte (hpercent : ¬ safe '%'.toUInt8) (c : UInt8) (rest : Bytes) :
    percentDecode (escapeByte safe c ++ rest) = (percentDecode rest).map (c :: ·) := by
  rw [escapeByte]
  split_ifs with hc
  · have hne : c ≠ '%'.toUInt8 := by
      intro he
      subst he
      exact hpercent hc
    exact percentDecode_plain hne rest
  · have hlt := c.toNat_lt
    have hhalves : UInt8.ofNat (16 * (c.toNat / 16) + c.toNat % 16) = c := by
      rw [Nat.div_add_mod, UInt8.ofNat_toNat]
    simp only [List.cons_append, List.nil_append]
    rw [percentDecode_triple (by omega) (by omega), hhalves]

theorem percentDecode_escape (hpercent : ¬ safe '%'.toUInt8) (text : Bytes) :
    percentDecode (escape safe text) = some text := by
  induction text with
  | nil => rfl
  | cons c text ih =>
    have hrest : percentDecode (text.flatMap (escapeByte safe)) = some text := ih
    rw [escape, List.flatMap_cons, percentDecode_escapeByte hpercent, hrest]
    rfl

example : percentDecode (ascii "/a%20%C3%bc") = some (ascii "/a " ++ [0xC3, 0xBC]) := by
  decide +kernel

/-- A separator is not written where it is neither safe nor a digit. -/
theorem not_mem_escape {d : UInt8} (hsafe : ¬ safe d) (hhex : isUpperHex d = false)
    (hpercent : d ≠ '%'.toUInt8) (text : Bytes) : d ∉ escape safe text := by
  intro hd
  obtain ⟨c, -, hc⟩ := List.mem_flatMap.mp hd
  have hlt := c.toNat_lt
  rw [escapeByte] at hc
  split_ifs at hc with hplain
  · rw [List.mem_singleton.mp hc] at hsafe
    exact hsafe hplain
  · simp only [List.mem_cons, List.not_mem_nil, or_false] at hc
    obtain hp | hhi | hlo := hc
    · exact hpercent hp
    · rw [hhi, isUpperHex_hexDigit (by omega)] at hhex
      cases hhex
    · rw [hlo, isUpperHex_hexDigit (by omega)] at hhex
      cases hhex

end

end R2Bench
