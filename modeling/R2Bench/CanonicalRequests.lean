import R2Bench.Signer

/-!
# What a signature covers

No field of a canonical request can imitate the text around it: the lines are free of
line feeds, an encoded path is read back byte by byte, and a time has fixed width. In a
prefix code no code word continues into another one, so that a text is read back from
its code words without separators.
-/

/-! ## Prefix codes -/

namespace PrefixCodes
variable {α β : Type*} {f : α → List β}

/-- Code words are not empty, and what follows one does not matter for reading it. -/
structure PrefixFree (f : α → List β) : Prop where
  ne_nil : ∀ a, f a ≠ []
  cancel : ∀ a b rest rest', f a ++ rest = f b ++ rest' → a = b ∧ rest = rest'

/-- Different code words of one length. -/
theorem prefixFree_of_length (n : ℕ) (hpos : 0 < n) (hlen : ∀ a, (f a).length = n)
    (hinj : Function.Injective f) : PrefixFree f where
  ne_nil a hnil := by
    have hn := hlen a
    rw [hnil, List.length_nil] at hn
    omega
  cancel a b rest rest' h := by
    obtain ⟨hword, hrest⟩ := List.append_inj h ((hlen a).trans (hlen b).symm)
    exact ⟨hinj hword, hrest⟩

theorem PrefixFree.flatMap_injective (hf : PrefixFree f) :
    Function.Injective fun text => List.flatMap f text := by
  have hno : ∀ a text, [] ≠ List.flatMap f (a :: text) := by
    intro a text h
    rw [List.flatMap_cons] at h
    exact hf.ne_nil a (List.append_eq_nil_iff.mp h.symm).1
  intro text
  induction text with
  | nil =>
    intro text' h
    cases text' with
    | nil => rfl
    | cons b text' => exact absurd h (hno b text')
  | cons a text ih =>
    intro text' h
    cases text' with
    | nil => exact absurd h.symm (hno a text)
    | cons b text' =>
      simp only [List.flatMap_cons] at h
      obtain ⟨hletter, hrest⟩ := hf.cancel a b _ _ h
      rw [hletter, ih hrest]

end PrefixCodes

namespace R2Bench
open Interleaving PrefixCodes

/-! ## Bytes in hexadecimal -/

theorem uint8_eq_of_halves {c d : UInt8} (hhi : c.toNat / 16 = d.toNat / 16)
    (hlo : c.toNat % 16 = d.toNat % 16) : c = d := by
  apply UInt8.toNat_inj.mp
  omega

theorem hexDigit_inj {a b : ℕ} (ha : a < 16) (hb : b < 16) (h : hexDigit a = hexDigit b) :
    a = b := by
  have hall : ∀ a < 16, ∀ b < 16, hexDigit a = hexDigit b → a = b := by decide
  exact hall a ha b hb h

def lowerhex : Bytes := ascii "0123456789abcdef"

/-- `hex.EncodeToString`. -/
def hexEncode (data : Bytes) : Bytes :=
  data.flatMap fun c => [lowerhex.getD (c.toNat / 16) 0, lowerhex.getD (c.toNat % 16) 0]

theorem lowerhex_inj {a b : ℕ} (ha : a < 16) (hb : b < 16)
    (h : lowerhex.getD a 0 = lowerhex.getD b 0) : a = b := by
  have hall : ∀ a < 16, ∀ b < 16, lowerhex.getD a 0 = lowerhex.getD b 0 → a = b := by decide
  exact hall a ha b hb h

theorem hexEncode_injective : Function.Injective hexEncode := by
  apply PrefixFree.flatMap_injective
  apply prefixFree_of_length 2 (by norm_num) (fun _ => rfl)
  intro c d h
  obtain ⟨hhi, htail⟩ := List.cons.inj h
  obtain ⟨hlo, -⟩ := List.cons.inj htail
  have hc := c.toNat_lt
  have hd := d.toNat_lt
  apply uint8_eq_of_halves
  · exact lowerhex_inj (by omega) (by omega) hhi
  · exact lowerhex_inj (by omega) (by omega) hlo

/-! ## Encoded paths -/

/-- The code word of a byte in a path. -/
def pathByte (c : UInt8) : Bytes :=
  if Unreserved c ∨ c = '/'.toUInt8 then [c]
  else ['%'.toUInt8, hexDigit (c.toNat / 16), hexDigit (c.toNat % 16)]

theorem percentEncode_eq (path : Bytes) : percentEncode path = path.flatMap pathByte := rfl

/-- A percent sign is never written for itself. -/
theorem percent_reserved : ¬ (Unreserved '%'.toUInt8 ∨ '%'.toUInt8 = '/'.toUInt8) := by decide

theorem pathByte_prefixFree : PrefixFree pathByte where
  ne_nil c := by
    unfold pathByte
    split <;> simp
  cancel c d rest rest' h := by
    unfold pathByte at h
    split_ifs at h with hc hd hd
    · exact List.cons.inj h
    · obtain ⟨hpercent, -⟩ := List.cons.inj h
      exact absurd (hpercent ▸ hc) percent_reserved
    · obtain ⟨hpercent, -⟩ := List.cons.inj h
      exact absurd (hpercent ▸ hd) percent_reserved
    · simp only [List.cons_append, List.nil_append, List.cons.injEq, true_and] at h
      obtain ⟨hhi, hlo, hrest⟩ := h
      have hclt := c.toNat_lt
      have hdlt := d.toNat_lt
      refine ⟨uint8_eq_of_halves ?_ ?_, hrest⟩
      · exact hexDigit_inj (by omega) (by omega) hhi
      · exact hexDigit_inj (by omega) (by omega) hlo

theorem percentEncode_injective : Function.Injective percentEncode := by
  intro path path' h
  rw [percentEncode_eq, percentEncode_eq] at h
  exact pathByte_prefixFree.flatMap_injective h

theorem newline_not_mem_percentEncode (path : Bytes) : '\n'.toUInt8 ∉ percentEncode path := by
  rw [percentEncode_eq_escape]
  exact not_mem_escape (by decide) (by decide) (by decide) path

/-- The empty path counts as `/`. -/
def rooted (path : Bytes) : Bytes := if path = [] then ascii "/" else path

theorem canonicalURI_eq (path : Bytes) : canonicalURI path = percentEncode (rooted path) := by
  unfold canonicalURI rooted
  split
  · rfl
  · rfl

/-! ## Times -/

/-- A time of day, in a year of four digits. -/
structure UtcTime.FourDigitYear (now : UtcTime) : Prop where
  year_nonneg : 0 ≤ now.year
  year_le : now.year ≤ 9999
  hour_lt : now.hour < 24
  minute_lt : now.minute < 60
  second_lt : now.second < 60

theorem pad_append_inj {width n m : ℕ} {rest rest' : Bytes} (hpos : 0 < width)
    (hn : n < 10 ^ width) (hm : m < 10 ^ width) (h : pad width n ++ rest = pad width m ++ rest') :
    n = m ∧ rest = rest' := by
  obtain ⟨hdigits, hrest⟩ := List.append_inj h ((length_pad hn).trans (length_pad hm).symm)
  exact ⟨(pad_inj hpos).mp hdigits, hrest⟩

section
variable {now now' : UtcTime}

theorem UtcTime.FourDigitYear.amzDate_eq (h : now.FourDigitYear) : now.amzDate =
    pad 4 now.year.toNat ++ (pad 2 now.month ++ (pad 2 now.day ++ (ascii "T" ++
      (pad 2 now.hour ++ (pad 2 now.minute ++ (pad 2 now.second ++ ascii "Z")))))) := by
  have hyear := h.year_nonneg
  rw [amzDate, formatYear, if_neg (by omega)]
  simp only [List.append_assoc]

theorem UtcTime.FourDigitYear.length_amzDate (h : now.FourDigitYear) :
    now.amzDate.length = 16 := by
  obtain ⟨hnonneg, hle, hhour, hminute, hsecond⟩ := h
  have hmonth := now.month_le
  have hday := now.day_le
  have hT : (ascii "T").length = 1 := rfl
  have hZ : (ascii "Z").length = 1 := rfl
  rw [UtcTime.FourDigitYear.amzDate_eq ⟨hnonneg, hle, hhour, hminute, hsecond⟩]
  simp only [List.length_append, hT, hZ]
  rw [length_pad (by omega), length_pad (by omega), length_pad (by omega), length_pad (by omega),
    length_pad (by omega), length_pad (by omega)]

/-- The fields have fixed widths, so they are read back one after the other. -/
theorem UtcTime.amzDate_inj (h : now.FourDigitYear) (h' : now'.FourDigitYear)
    (hdate : now.amzDate = now'.amzDate) : now = now' := by
  rw [h.amzDate_eq, h'.amzDate_eq] at hdate
  obtain ⟨hnonneg, hle, hhour, hminute, hsecond⟩ := h
  obtain ⟨hnonneg', hle', hhour', hminute', hsecond'⟩ := h'
  have hmonth := now.month_le
  have hmonth' := now'.month_le
  have hday := now.day_le
  have hday' := now'.day_le
  obtain ⟨hY, hdate⟩ := pad_append_inj (by norm_num) (by omega) (by omega) hdate
  obtain ⟨hM, hdate⟩ := pad_append_inj (by norm_num) (by omega) (by omega) hdate
  obtain ⟨hD, hdate⟩ := pad_append_inj (by norm_num) (by omega) (by omega) hdate
  have hdate := List.append_cancel_left hdate
  obtain ⟨hh, hdate⟩ := pad_append_inj (by norm_num) (by omega) (by omega) hdate
  obtain ⟨hm, hdate⟩ := pad_append_inj (by norm_num) (by omega) (by omega) hdate
  obtain ⟨hs, -⟩ := pad_append_inj (by norm_num) (by omega) (by omega) hdate
  have hyear : now.year = now'.year := by omega
  cases now
  cases now'
  rw [UtcTime.mk.injEq]
  exact ⟨hyear, hM, hD, hh, hm, hs⟩

theorem newline_not_mem_amzDate (h : now.FourDigitYear) : '\n'.toUInt8 ∉ now.amzDate := by
  have hpad : ∀ width n, '\n'.toUInt8 ∉ pad width n := fun _ _ => not_mem_pad (by decide)
  have hT : '\n'.toUInt8 ∉ ascii "T" := by decide
  have hZ : '\n'.toUInt8 ∉ ascii "Z" := by decide
  simp only [h.amzDate_eq, List.mem_append, hpad, hT, hZ, or_self, not_false_eq_true]

end

/-! ## The canonical request -/

/-- Lines without line feeds are read back from the text. -/
theorem joinLines_inj {lines lines' : List Bytes} (h : ∀ l ∈ lines, '\n'.toUInt8 ∉ l)
    (h' : ∀ l ∈ lines', '\n'.toUInt8 ∉ l) (hne : lines ≠ []) (hne' : lines' ≠ [])
    (hsame : joinLines lines = joinLines lines') : lines = lines' := by
  have hnewline : ascii "\n" = ['\n'.toUInt8] := rfl
  rw [joinLines, joinLines, hnewline] at hsame
  have hsplit := congrArg (List.splitOn '\n'.toUInt8) hsame
  rwa [List.splitOn_intercalate _ h hne, List.splitOn_intercalate _ h' hne'] at hsplit

def isHexDigit (c : UInt8) : Bool :=
  isDigit c ∨ ('a'.toUInt8 ≤ c ∧ c ≤ 'f'.toUInt8) ∨ ('A'.toUInt8 ≤ c ∧ c ≤ 'F'.toUInt8)

/-- A request that HTTP can carry, with a payload hash, in a year of four digits. -/
structure SignCall.OneLine (call : SignCall) : Prop where
  method : '\n'.toUInt8 ∉ call.method
  rawQuery : '\n'.toUInt8 ∉ call.rawQuery
  host : '\n'.toUInt8 ∉ call.effectiveHost
  payload_length : call.payloadSHA256.length = 64
  payload_hex : ∀ c ∈ call.payloadSHA256, isHexDigit c = true
  now : call.now.FourDigitYear

/-- The same request, payload and second. -/
structure SignCall.SameAs (call call' : SignCall) : Prop where
  method : call.method = call'.method
  path : rooted call.path = rooted call'.path
  rawQuery : call.rawQuery = call'.rawQuery
  host : call.effectiveHost = call'.effectiveHost
  payload : call.payloadSHA256 = call'.payloadSHA256
  now : call.now = call'.now

/-- The lines of the canonical request. -/
def SignCall.lines (call : SignCall) : List Bytes :=
  [call.method, canonicalURI call.path, call.rawQuery, ascii "host:" ++ call.effectiveHost,
    ascii "x-amz-content-sha256:" ++ call.payloadSHA256, ascii "x-amz-date:" ++ call.now.amzDate,
    [], signedHeaders, call.payloadSHA256]

section
variable {call call' : SignCall}

theorem SignCall.OneLine.newline_not_mem_payload (h : call.OneLine) :
    '\n'.toUInt8 ∉ call.payloadSHA256 := by
  intro hmem
  exact absurd (h.payload_hex _ hmem) (by decide)

theorem SignCall.OneLine.lines (h : call.OneLine) : ∀ l ∈ call.lines, '\n'.toUInt8 ∉ l := by
  have huri : '\n'.toUInt8 ∉ canonicalURI call.path := by
    rw [canonicalURI_eq]
    exact newline_not_mem_percentEncode _
  have hhost : '\n'.toUInt8 ∉ ascii "host:" := by decide
  have hsha : '\n'.toUInt8 ∉ ascii "x-amz-content-sha256:" := by decide
  have hdate : '\n'.toUInt8 ∉ ascii "x-amz-date:" := by decide
  have hsigned : '\n'.toUInt8 ∉ signedHeaders := by decide
  simp [SignCall.lines, h.method, huri, h.rawQuery, h.host, h.newline_not_mem_payload,
    newline_not_mem_amzDate h.now, hhost, hsha, hdate, hsigned]

theorem sameAs_of_canonicalRequest (h : call.OneLine) (h' : call'.OneLine)
    (hsame : canonicalRequest call = canonicalRequest call') : call.SameAs call' := by
  rw [canonicalRequest_eq, canonicalRequest_eq] at hsame
  have hlines := joinLines_inj h.lines h'.lines (by simp [SignCall.lines])
    (by simp [SignCall.lines]) hsame
  simp only [SignCall.lines, List.cons.injEq, List.append_cancel_left_eq, true_and, and_true]
    at hlines
  obtain ⟨hmethod, huri, hquery, hhost, hpayload, hdate, -⟩ := hlines
  rw [canonicalURI_eq, canonicalURI_eq] at huri
  exact ⟨hmethod, percentEncode_injective huri, hquery, hhost, hpayload,
    UtcTime.amzDate_inj h.now h'.now hdate⟩

theorem SignCall.SameAs.canonicalRequest_eq (h : call.SameAs call') :
    canonicalRequest call = canonicalRequest call' := by
  rw [R2Bench.canonicalRequest_eq, R2Bench.canonicalRequest_eq, canonicalURI_eq, canonicalURI_eq,
    h.method, h.path, h.rawQuery, h.host, h.payload, h.now]

end

/-! ## The signature -/

/-- The hash and the MAC do not collide, and the encoding is what it is. -/
structure Crypto.Ideal (crypto : Crypto) : Prop where
  sha256 : Function.Injective crypto.sha256
  hmac : ∀ key, Function.Injective (crypto.hmac key)
  hex : crypto.hex = hexEncode

section
variable {crypto : Crypto} {s : Signer} {call call' : SignCall}

theorem UtcTime.FourDigitYear.length_dateStamp {now : UtcTime} (h : now.FourDigitYear) :
    now.dateStamp.length = 8 := by
  rw [UtcTime.dateStamp, List.length_take, h.length_amzDate]
  rfl

theorem scope_eq_dateStamp (s : Signer) (call : SignCall) : scope s call =
    call.now.dateStamp ++ (ascii "/" ++ s.region ++ ascii "/" ++ s.service ++
      ascii "/aws4_request") := by
  simp only [scope, List.append_assoc]

theorem canonicalRequest_of_stringToSign (ideal : crypto.Ideal) (h : call.OneLine)
    (h' : call'.OneLine) (hsame : stringToSign crypto s call = stringToSign crypto s call') :
    canonicalRequest call = canonicalRequest call' := by
  simp only [stringToSign, List.flatten_cons, List.flatten_nil, List.append_nil,
    List.append_cancel_left_eq] at hsame
  have hlen := h.now.length_amzDate.trans h'.now.length_amzDate.symm
  obtain ⟨hdate, hrest⟩ := List.append_inj hsame hlen
  have hscope : scope s call = scope s call' := by
    rw [scope, scope, UtcTime.dateStamp, UtcTime.dateStamp, hdate]
  simp only [hscope, List.append_cancel_left_eq, ideal.hex] at hrest
  exact ideal.sha256 (hexEncode_injective hrest)

/-- The header shows the day, so equal headers come from one key. -/
theorem canonicalRequest_of_authorization (ideal : crypto.Ideal) (h : call.OneLine)
    (h' : call'.OneLine)
    (hsame : (authorize crypto s call (deriveKey crypto s call.now.dateStamp)).authorization =
      (authorize crypto s call' (deriveKey crypto s call'.now.dateStamp)).authorization) :
    canonicalRequest call = canonicalRequest call' := by
  simp only [authorize, List.flatten_cons, List.flatten_nil, List.append_nil,
    List.append_cancel_left_eq, scope_eq_dateStamp] at hsame
  rw [List.append_assoc call.now.dateStamp, List.append_assoc call'.now.dateStamp] at hsame
  have hlen := h.now.length_dateStamp.trans h'.now.length_dateStamp.symm
  obtain ⟨hday, hrest⟩ := List.append_inj hsame hlen
  simp only [hday, List.append_cancel_left_eq, ideal.hex] at hrest
  exact canonicalRequest_of_stringToSign ideal h h' (ideal.hmac _ (hexEncode_injective hrest))

/-- Two requests have one canonical request only if they are the same; and if neither
the hash nor the MAC collides, calls of `Sign` for different requests return different
headers, in any two histories of one signer. -/
theorem canonical_request_unambiguous (h : call.OneLine) (h' : call'.OneLine) :
    (canonicalRequest call = canonicalRequest call' ↔ call.SameAs call') ∧
    ∀ (crypto : Crypto) (s : Signer) (w w' : SignerHistory) (i j : ℕ) (out out' : SignedHeaders),
      crypto.Ideal → (signerSystem crypto s).FreeRun freshSigner w →
      (signerSystem crypto s).FreeRun freshSigner w' →
      w.threads[i]? = some ⟨call, some (.done out)⟩ →
      w'.threads[j]? = some ⟨call', some (.done out')⟩ →
      ¬ call.SameAs call' → out.authorization ≠ out'.authorization := by
  constructor
  · exact ⟨sameAs_of_canonicalRequest h h', SignCall.SameAs.canonicalRequest_eq⟩
  · intro crypto s w w' i j out out' ideal hw hw' hi hj hdiffer hsame
    apply hdiffer
    rw [sign_of_run crypto hw hi, sign_of_run crypto hw' hj] at hsame
    exact sameAs_of_canonicalRequest h h' (canonicalRequest_of_authorization ideal h h' hsame)

end

/-- Transparent functions in place of the hash and the MAC. -/
def clearCrypto : Crypto := ⟨id, fun key data => key ++ data, hexEncode⟩

theorem clearCrypto_ideal : clearCrypto.Ideal where
  sha256 := Function.injective_id
  hmac _ _ _ h := List.append_cancel_left h
  hex := rfl

theorem objectGet_oneLine (path : Bytes) : (objectGet path false).OneLine where
  method := (by decide : '\n'.toUInt8 ∉ ascii "GET")
  rawQuery := List.not_mem_nil
  host := (by decide : '\n'.toUInt8 ∉ ascii "h")
  payload_length := rfl
  payload_hex := (by decide +kernel : ∀ c ∈ EmptyPayloadSHA256, isHexDigit c = true)
  now :=
    { year_nonneg := (by decide : (0 : ℤ) ≤ 2026)
      year_le := (by decide : (2026 : ℤ) ≤ 9999)
      hour_lt := (by decide : 23 < 24)
      minute_lt := (by decide : 59 < 60)
      second_lt := (by decide : 59 < 60) }

/-- A path with a percent sign and the path that it might be taken for, signed by one signer. -/
theorem canonical_request_unambiguous_percent : ∃ (w : SignerHistory) (out out' : SignedHeaders),
    (signerSystem clearCrypto (newSigner (ascii "AK") (ascii "SK") (ascii "auto"))).FreeRun
      freshSigner w ∧
    w.threads[0]? = some ⟨objectGet (ascii "/b/%41") false, some (.done out)⟩ ∧
    w.threads[1]? = some ⟨objectGet (ascii "/b/A") false, some (.done out')⟩ ∧
    out.authorization ≠ out'.authorization := by
  obtain ⟨w, hw, hP⟩ := (signerSystem clearCrypto
    (newSigner (ascii "AK") (ascii "SK") (ascii "auto"))).exists_run_of_replay
      (w := freshSigner) (C := fun _ _ => True) (fun _ _ => true) (fun _ _ _ => trivial)
      [.arrive (objectGet (ascii "/b/%41") false), .arrive (objectGet (ascii "/b/A") false),
        .exec 0, .exec 0, .exec 1]
      (fun w => (returned? w 0 (objectGet (ascii "/b/%41") false)).isSome &&
        (returned? w 1 (objectGet (ascii "/b/A") false)).isSome) (by decide +kernel)
  obtain ⟨hfirst, hsecond⟩ := Bool.and_eq_true_iff.mp hP
  obtain ⟨out, hout⟩ := Option.isSome_iff_exists.mp hfirst
  obtain ⟨out', hout'⟩ := Option.isSome_iff_exists.mp hsecond
  have hi := of_returned? hout
  have hj := of_returned? hout'
  have hdiffer : ¬ (objectGet (ascii "/b/%41") false).SameAs (objectGet (ascii "/b/A") false) := by
    intro hsame
    exact absurd hsame.path (by decide)
  exact ⟨w, out, out', hw, hi, hj, (canonical_request_unambiguous (objectGet_oneLine _)
    (objectGet_oneLine _)).2 _ _ w w 0 1 out out' clearCrypto_ideal hw hw hi hj hdiffer⟩

end R2Bench
