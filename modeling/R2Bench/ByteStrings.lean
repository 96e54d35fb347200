import Mathlib.Data.Nat.Digits.Lemmas
import Mathlib.Data.List.DropRight
import Mathlib.Tactic

/-!
# Byte strings

Texts of the Go programs, with the few operations that they use on them.
-/
namespace R2Bench

abbrev Bytes := List UInt8

/-- The bytes of an ASCII text. -/
def ascii (s : String) : Bytes := s.toList.map fun c => UInt8.ofNat c.toNat

/-- `%d` of a natural number, padded with zeros to a width. -/
def pad (width n : ℕ) : Bytes :=
  let digits := Nat.digits 10 n
  (digits ++ List.replicate (width - digits.length) 0).reverse.map fun d => UInt8.ofNat (48 + d)

theorem length_pad {width n : ℕ} (h : n < 10 ^ width) : (pad width n).length = width := by
  have hlen := (Nat.digits_length_le_iff (by norm_num) n).mpr h
  simp only [pad, List.length_map, List.length_reverse, List.length_append, List.length_replicate]
  omega

theorem length_pad_mono (width : ℕ) {n m : ℕ} (h : n ≤ m) :
    (pad width n).length ≤ (pad width m).length := by
  have hdigits := Nat.le_length_digits_le 10 n m h
  simp only [pad, List.length_map, List.length_reverse, List.length_append, List.length_replicate]
  omega

/-- `%d` of an integer. -/
def decimal (n : ℤ) : Bytes :=
  if n < 0 then ascii "-" ++ pad 1 n.natAbs else pad 1 n.toNat

/-- `strings.Cut(s, c)`: what stands before and after the first `c`. -/
def cut (c : UInt8) (s : Bytes) : Bytes × Bytes :=
  (s.takeWhile fun d => d ≠ c, (s.dropWhile fun d => d ≠ c).drop 1)

theorem cut_of_not_mem {c : UInt8} {s : Bytes} (h : c ∉ s) : cut c s = (s, []) := by
  have hall : ∀ d ∈ s, decide (d ≠ c) = true := by
    intro d hd
    refine decide_eq_true fun he => h ?_
    rwa [← he]
  rw [cut, List.takeWhile_eq_self_iff.mpr hall, List.dropWhile_eq_nil_iff.mpr hall, List.drop_nil]

theorem cut_append {c : UInt8} {s : Bytes} (h : c ∈ s) (t : Bytes) :
    cut c (s ++ t) = ((cut c s).1, (cut c s).2 ++ t) := by
  induction s with
  | nil => simp at h
  | cons d s ih =>
    by_cases hd : d = c
    · simp [cut, hd]
    · have hrest : c ∈ s := (List.mem_cons.mp h).resolve_left (Ne.symm hd)
      obtain ⟨hbefore, hafter⟩ := Prod.mk.inj (ih hrest)
      have hkeep : decide (d ≠ c) = true := decide_eq_true hd
      simp only [cut, List.cons_append, List.takeWhile_cons, List.dropWhile_cons, if_pos hkeep,
        Prod.mk.injEq]
      exact ⟨congrArg (d :: ·) hbefore, hafter⟩

theorem length_cut_le (c : UInt8) (s : Bytes) : (cut c s).1.length ≤ s.length :=
  (List.takeWhile_prefix _).length_le

theorem length_cut_lt {c : UInt8} {s : Bytes} (h : c ∈ s) : (cut c s).1.length < s.length := by
  refine Nat.lt_of_le_of_ne (length_cut_le c s) fun heq => ?_
  have hself := (List.takeWhile_prefix fun d => decide (d ≠ c)).eq_of_length heq
  simpa using List.takeWhile_eq_self_iff.mp hself c h

/-- `strings.TrimRight(s, "/")`. -/
def trimSlashes (s : Bytes) : Bytes := s.rdropWhile fun c => c = '/'.toUInt8

/-- Trimming changes exactly the texts that end in a slash. -/
theorem trimSlashes_eq_self_iff (s : Bytes) :
    trimSlashes s = s ↔ s.getLast? ≠ some '/'.toUInt8 := by
  rw [trimSlashes, List.rdropWhile_eq_self_iff]
  constructor
  · intro h hlast
    have hne : s ≠ [] := by
      intro heq
      subst heq
      simp at hlast
    rw [List.getLast?_eq_some_getLast hne, Option.some.injEq] at hlast
    exact h hne (by simpa using hlast)
  · intro h hne hs
    apply h
    rw [List.getLast?_eq_some_getLast hne, Option.some.injEq]
    simpa using hs

/-- Where the trimmed text is used as a prefix the difference shows at once. -/
theorem trimSlashes_append_inj (s rest : Bytes) : s ++ rest = trimSlashes s ++ rest ↔
    s.getLast? ≠ some '/'.toUInt8 := by
  rw [List.append_left_inj, eq_comm, trimSlashes_eq_self_iff]

/-- A field ends at the first byte that it cannot contain. -/
theorem field_inj {c : UInt8} {a b rest rest' : Bytes} (ha : c ∉ a) (hb : c ∉ b)
    (h : a ++ c :: rest = b ++ c :: rest') : a = b ∧ rest = rest' := by
  induction a generalizing b with
  | nil =>
    cases b with
    | nil => exact ⟨rfl, (List.cons.inj h).2⟩
    | cons d b =>
      obtain ⟨rfl, -⟩ := List.cons.inj h
      exact absurd List.mem_cons_self hb
  | cons d a ih =>
    cases b with
    | nil =>
      obtain ⟨rfl, -⟩ := List.cons.inj h
      exact absurd List.mem_cons_self ha
    | cons e b =>
      obtain ⟨rfl, htail⟩ := List.cons.inj h
      obtain ⟨rfl, hrest⟩ := ih (fun hc => ha (.tail _ hc)) (fun hc => hb (.tail _ hc)) htail
      exact ⟨rfl, hrest⟩

/-! ## Numbers in texts -/

def isDigit (c : UInt8) : Bool := '0'.toUInt8 ≤ c ∧ c ≤ '9'.toUInt8

/-- A text of decimal digits, at least one of them. -/
def parseDigits (s : Bytes) : Option ℕ :=
  if s ≠ [] ∧ s.all isDigit then
    some (s.foldl (fun n c => 10 * n + (c.toNat - '0'.toNat)) 0)
  else none

/-- A number that the 64 bits of an `int` hold. -/
def asInt (n : ℤ) : Option ℤ := if -2 ^ 63 ≤ n ∧ n < 2 ^ 63 then some n else none

/-- `strconv.Atoi`: one sign at most, then digits. -/
def atoi (s : Bytes) : Option ℤ :=
  match s with
  | [] => none
  | c :: rest =>
    if c = '-'.toUInt8 then (parseDigits rest).bind fun n => asInt (-n)
    else if c = '+'.toUInt8 then (parseDigits rest).bind fun n => asInt n
    else (parseDigits s).bind fun n => asInt n

example : atoi (ascii "-07") = some (-7) := by decide

theorem digit_byte {d : ℕ} (h : d < 10) : isDigit (UInt8.ofNat (48 + d)) = true ∧
    (UInt8.ofNat (48 + d)).toNat - '0'.toNat = d := by
  revert d
  decide

/-- A padded number consists of the bytes of decimal digits. -/
theorem exists_digit_of_mem_pad {width n : ℕ} {c : UInt8} (h : c ∈ pad width n) :
    ∃ d < 10, c = UInt8.ofNat (48 + d) := by
  obtain ⟨d, hd, rfl⟩ := List.mem_map.mp h
  refine ⟨d, ?_, rfl⟩
  rcases List.mem_append.mp (List.mem_reverse.mp hd) with hd | hd
  · exact Nat.digits_lt_base (by norm_num) hd
  · rw [List.eq_of_mem_replicate hd]
    norm_num

theorem isDigit_of_mem_pad {width n : ℕ} {c : UInt8} (h : c ∈ pad width n) :
    isDigit c = true := by
  obtain ⟨d, hd, rfl⟩ := exists_digit_of_mem_pad h
  exact (digit_byte hd).1

theorem pad_ne_nil {width n : ℕ} (h : 0 < width) : pad width n ≠ [] := by
  intro hnil
  have hlen := congrArg List.length hnil
  simp only [pad, List.length_map, List.length_reverse, List.length_append, List.length_replicate,
    List.length_nil] at hlen
  omega

/-- Reading digits from the front is evaluating them from the back. -/
theorem foldl_digits (digits : List ℕ) (h : ∀ d ∈ digits, d < 10) :
    (digits.reverse.map fun d => UInt8.ofNat (48 + d)).foldl
      (fun n c => 10 * n + (c.toNat - '0'.toNat)) 0 = Nat.ofDigits 10 digits := by
  induction digits with
  | nil => rfl
  | cons d digits ih =>
    have hd := (digit_byte (h d (by simp))).2
    rw [List.reverse_cons, List.map_append, List.foldl_append,
      ih fun d' hd' => h d' (by simp [hd']), Nat.ofDigits_cons]
    simp only [List.map_cons, List.map_nil, List.foldl_cons, List.foldl_nil, hd]
    omega

/-- Printing with padding and reading back, also where the number outgrows it. -/
theorem parseDigits_pad {width n : ℕ} (h : 0 < width) : parseDigits (pad width n) = some n := by
  have hall : (pad width n).all isDigit = true :=
    List.all_eq_true.mpr fun c hc => isDigit_of_mem_pad hc
  have hdigits : ∀ d ∈ Nat.digits 10 n ++ List.replicate (width - (Nat.digits 10 n).length) 0,
      d < 10 := by
    intro d hd
    rcases List.mem_append.mp hd with hd | hd
    · exact Nat.digits_lt_base (by norm_num) hd
    · rw [List.eq_of_mem_replicate hd]
      norm_num
  rw [parseDigits, if_pos ⟨pad_ne_nil h, hall⟩, pad]
  rw [foldl_digits _ hdigits, Nat.ofDigits_append_replicate_zero, Nat.ofDigits_digits]

theorem pad_inj {width n m : ℕ} (h : 0 < width) : pad width n = pad width m ↔ n = m := by
  constructor
  · intro heq
    have hparse := congrArg parseDigits heq
    rwa [parseDigits_pad h, parseDigits_pad h, Option.some.injEq] at hparse
  · intro hsame
    subst hsame
    rfl

/-- The last digit stands at the end, also where the number outgrows the width. -/
theorem pad_succ (width n : ℕ) :
    pad (width + 1) n = pad width (n / 10) ++ [UInt8.ofNat (48 + n % 10)] := by
  rcases Nat.eq_zero_or_pos n with hzero | hpos
  · subst hzero
    have hzeros := List.replicate_succ' (n := width) (a := (48 : UInt8))
    simpa [pad, List.map_replicate] using hzeros
  · have hdigits : Nat.digits 10 n = n % 10 :: Nat.digits 10 (n / 10) :=
      Nat.digits_def' (by norm_num) hpos
    simp only [pad, hdigits, List.length_cons, List.cons_append, List.reverse_cons,
      List.map_append, List.map_cons, List.map_nil, Nat.add_sub_add_right]

/-- Texts of one length keep their order whatever follows them. -/
theorem append_lt_append_of_length {a b : Bytes} (hlen : a.length = b.length) (h : a < b)
    (s t : Bytes) : a ++ s < b ++ t := by
  induction a generalizing b with
  | nil =>
    cases b with
    | nil => exact absurd h (List.lt_irrefl _)
    | cons d b => simp at hlen
  | cons c a ih =>
    cases b with
    | nil => simp at hlen
    | cons d b =>
      rw [List.cons_append, List.cons_append]
      rw [List.cons_lt_cons_iff] at h ⊢
      obtain hlt | ⟨hc, htail⟩ := h
      · exact .inl hlt
      · exact .inr ⟨hc, ih (by simpa using hlen) htail⟩

theorem digit_lt_digit {d e : ℕ} (h : d < e) (he : e < 10) :
    UInt8.ofNat (48 + d) < UInt8.ofNat (48 + e) := by
  have hall : ∀ e < 10, ∀ d < e, UInt8.ofNat (48 + d) < UInt8.ofNat (48 + e) := by decide
  exact hall e he d h

/-- Within the width the order of the texts is the order of the numbers. -/
theorem pad_lt_pad {width n m : ℕ} (h : n < m) (hm : m < 10 ^ width) :
    pad width n < pad width m := by
  induction width generalizing n m with
  | zero => omega
  | succ width ih =>
    have hpow : 10 ^ (width + 1) = 10 * 10 ^ width := pow_succ' 10 width
    have hm' : m / 10 < 10 ^ width := by omega
    have hn' : n / 10 < 10 ^ width := by omega
    rw [pad_succ, pad_succ]
    rcases Nat.lt_or_ge (n / 10) (m / 10) with hlt | hge
    · exact append_lt_append_of_length ((length_pad hn').trans (length_pad hm').symm)
        (ih hlt hm') _ _
    · have hsame : n / 10 = m / 10 := by omega
      have hdigit : n % 10 < m % 10 := by omega
      rw [hsame]
      apply List.append_left_lt
      exact List.cons_lt_cons_iff.mpr (.inl (digit_lt_digit hdigit (by omega)))

theorem not_mem_pad {width n : ℕ} {c : UInt8} (h : isDigit c = false) : c ∉ pad width n := by
  intro hc
  simp [isDigit_of_mem_pad hc] at h

theorem not_mem_decimal {n : ℤ} {c : UInt8} (h : isDigit c = false) (hsign : c ≠ '-'.toUInt8) :
    c ∉ decimal n := by
  have hdash : c ∉ ascii "-" := by
    intro hc
    exact hsign (List.mem_singleton.mp hc)
  rw [decimal]
  split
  · exact fun hc => (List.mem_append.mp hc).elim hdash (not_mem_pad h)
  · exact not_mem_pad h

theorem decimal_inj {n m : ℤ} : decimal n = decimal m ↔ n = m := by
  have hsigned : ∀ a b : ℕ, ascii "-" ++ pad 1 a ≠ pad 1 b := by
    intro a b h
    have hmem : '-'.toUInt8 ∈ pad 1 b := by
      rw [← h]
      exact List.mem_append_left _ (by decide)
    exact not_mem_pad (by decide) hmem
  constructor
  · intro h
    simp only [decimal] at h
    split_ifs at h with hn hm hm
    · have habs := (pad_inj one_pos).mp (List.append_cancel_left h)
      omega
    · exact absurd h (hsigned _ _)
    · exact absurd h.symm (hsigned _ _)
    · have habs := (pad_inj one_pos).mp h
      omega
  · intro heq
    subst heq
    rfl

end R2Bench
