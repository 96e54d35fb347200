import R2Bench.Memo
import R2Bench.PercentEncoding

/-!
# Request signing

`sign` as the signer assembles it, with the day's key behind a memo, against the
same computation from scratch. Texts are byte strings; the hash, the MAC and the
hex encoding are given functions. `check_r2_creds.py` is a third version.
-/
namespace R2Bench
open Interleaving

structure Crypto where
  sha256 : Bytes → Bytes
  hmac : Bytes → Bytes → Bytes
  hex : Bytes → Bytes

def EmptyPayloadSHA256 : Bytes :=
  ascii "e3b0c44298fc1c149afbf4c8996fb92427ae41e4649b934ca495991b7852b855"

def algorithm : Bytes := ascii "AWS4-HMAC-SHA256"

def signedHeaders : Bytes := ascii "host;x-amz-content-sha256;x-amz-date"

/-! ## Instants -/

/-- The fields of an instant in UTC. -/
structure UtcTime where
  year : ℤ
  month : ℕ
  day : ℕ
  hour : ℕ
  minute : ℕ
  second : ℕ
  month_le : month ≤ 12
  day_le : day ≤ 31
  deriving DecidableEq

/-- The year of a layout; a negative one has its sign in front. -/
def formatYear (year : ℤ) : Bytes :=
  if year < 0 then ascii "-" ++ pad 4 year.natAbs else pad 4 year.toNat

/-- `now.UTC().Format("20060102T150405Z")`. -/
def UtcTime.amzDate (now : UtcTime) : Bytes :=
  formatYear now.year ++ pad 2 now.month ++ pad 2 now.day ++ ascii "T" ++ pad 2 now.hour ++
    pad 2 now.minute ++ pad 2 now.second ++ ascii "Z"

def UtcTime.dateStamp (now : UtcTime) : Bytes := now.amzDate.take 8

theorem UtcTime.dateStamp_ne_nil (now : UtcTime) : now.dateStamp ≠ [] := by
  simp [dateStamp, amzDate, ascii]

/-! ## The canonical URI -/

def isUnreservedOrSlash (c : UInt8) : Bool :=
  ('A'.toUInt8 ≤ c ∧ c ≤ 'Z'.toUInt8) ∨ ('a'.toUInt8 ≤ c ∧ c ≤ 'z'.toUInt8) ∨
    ('0'.toUInt8 ≤ c ∧ c ≤ '9'.toUInt8) ∨ c = '-'.toUInt8 ∨ c = '_'.toUInt8 ∨ c = '.'.toUInt8 ∨
    c = '~'.toUInt8 ∨ c = '/'.toUInt8

def upperhex : Bytes := ascii "0123456789ABCDEF"

/-- What the loop writes for one byte. -/
def encodeByte (ch : UInt8) : Bytes :=
  if isUnreservedOrSlash ch then [ch]
  else ['%'.toUInt8, upperhex.getD (ch >>> 4).toNat 0, upperhex.getD (ch &&& 0x0f).toNat 0]

def uriEncodePath (path : Bytes) : Bytes :=
  if path = [] then ascii "/"
  else if path.all isUnreservedOrSlash then path
  else path.foldl (fun b ch => b ++ encodeByte ch) []

/-- Percent-encoding byte by byte, except for unreserved characters and slashes. -/
def percentEncode (path : Bytes) : Bytes :=
  path.flatMap fun c =>
    if Unreserved c ∨ c = '/'.toUInt8 then [c]
    else ['%'.toUInt8, hexDigit (c.toNat / 16), hexDigit (c.toNat % 16)]

theorem percentEncode_eq_escape (path : Bytes) :
    percentEncode path = escape (fun c => Unreserved c ∨ c = '/'.toUInt8) path := rfl

theorem isUnreservedOrSlash_iff (c : UInt8) :
    isUnreservedOrSlash c = true ↔ Unreserved c ∨ c = '/'.toUInt8 := by
  have hall : ∀ n : Fin 256, isUnreservedOrSlash (UInt8.ofNat n.val) = true ↔
      Unreserved (UInt8.ofNat n.val) ∨ UInt8.ofNat n.val = '/'.toUInt8 := by decide +kernel
  have hc := hall ⟨c.toNat, c.toNat_lt⟩
  rwa [UInt8.ofNat_toNat] at hc

theorem encodeByte_eq (c : UInt8) :
    encodeByte c = if Unreserved c ∨ c = '/'.toUInt8 then [c]
      else ['%'.toUInt8, hexDigit (c.toNat / 16), hexDigit (c.toNat % 16)] := by
  have hall : ∀ n : Fin 256,
      upperhex.getD (UInt8.ofNat n.val >>> 4).toNat 0 = hexDigit ((UInt8.ofNat n.val).toNat / 16) ∧
      upperhex.getD (UInt8.ofNat n.val &&& 0x0f).toNat 0 =
        hexDigit ((UInt8.ofNat n.val).toNat % 16) := by decide +kernel
  have hc := hall ⟨c.toNat, c.toNat_lt⟩
  rw [UInt8.ofNat_toNat] at hc
  simp only [encodeByte, isUnreservedOrSlash_iff, hc.1, hc.2]

theorem percentEncode_eq_self {path : Bytes}
    (h : ∀ c ∈ path, Unreserved c ∨ c = '/'.toUInt8) : percentEncode path = path := by
  induction path with
  | nil => rfl
  | cons c path ih =>
    rw [percentEncode, List.flatMap_cons, if_pos (h c List.mem_cons_self)]
    exact congrArg (c :: ·) (ih fun c hc => h c (List.mem_cons_of_mem _ hc))

/-- What the loop makes of a path, without the scan before it. -/
theorem foldl_encodeByte (path : Bytes) :
    path.foldl (fun b ch => b ++ encodeByte ch) [] = percentEncode path := by
  rw [← List.flatMap_eq_foldl]
  exact List.flatMap_congr fun c _ => encodeByte_eq c

/-- The fast path and the loop encode alike; only the empty path stands out. -/
theorem uriEncodePath_eq (path : Bytes) :
    uriEncodePath path = if path = [] then ascii "/" else percentEncode path := by
  unfold uriEncodePath
  split
  · rfl
  · split
    · next hall =>
      refine (percentEncode_eq_self fun c hc => ?_).symm
      exact (isUnreservedOrSlash_iff c).mp (List.all_eq_true.mp hall c hc)
    · exact foldl_encodeByte path

/-- The path is spelled with unreserved characters, slashes and escaped bytes; it is
read back; and the loop spells it in the same way where the scan finds nothing to do. -/
theorem path_encoding (path : Bytes) :
    Escaped (fun c => Unreserved c ∨ c = '/'.toUInt8) (uriEncodePath path) ∧
    percentDecode (uriEncodePath path) = some (if path = [] then ascii "/" else path) ∧
    (path ≠ [] → uriEncodePath path = path.foldl (fun b ch => b ++ encodeByte ch) []) ∧
    (path.all isUnreservedOrSlash = true →
      path.foldl (fun b ch => b ++ encodeByte ch) [] = path) := by
  have hpercent : ¬ (Unreserved '%'.toUInt8 ∨ '%'.toUInt8 = '/'.toUInt8) := by decide
  have hslash : Unreserved '/'.toUInt8 ∨ '/'.toUInt8 = '/'.toUInt8 := .inr rfl
  have hroot : ascii "/" = ['/'.toUInt8] := rfl
  rw [uriEncodePath_eq, foldl_encodeByte, hroot]
  refine ⟨?_, ?_, fun hne => if_neg hne, fun hall => ?_⟩
  · split_ifs
    · exact .plain hslash .nil
    · rw [percentEncode_eq_escape]
      exact escaped_escape path
  · split_ifs
    · exact percentDecode_plain (by decide) []
    · rw [percentEncode_eq_escape]
      exact percentDecode_escape hpercent path
  · apply percentEncode_eq_self
    intro c hc
    exact (isUnreservedOrSlash_iff c).mp (List.all_eq_true.mp hall c hc)

/-! ## Signing -/

/-- The immutable fields of a signer. -/
structure Signer where
  accessKey : Bytes
  secretKey : Bytes
  region : Bytes
  service : Bytes
  deriving DecidableEq

def newSigner (accessKey secretKey region : Bytes) : Signer :=
  ⟨accessKey, secretKey, region, ascii "s3"⟩

/-- The arguments of `Sign`: what it reads of the request, the payload hash and the
instant. -/
structure SignCall where
  method : Bytes
  /-- `req.Host`, empty when the URL decides. -/
  host : Bytes
  urlHost : Bytes
  path : Bytes
  rawQuery : Bytes
  payloadSHA256 : Bytes
  now : UtcTime
  deriving DecidableEq

/-- The headers that `Sign` sets. -/
structure SignedHeaders where
  amzDate : Bytes
  contentSHA256 : Bytes
  authorization : Bytes
  deriving DecidableEq

/-- The host header of the request. -/
def SignCall.effectiveHost (call : SignCall) : Bytes :=
  if call.host = [] then call.urlHost else call.host

section
variable (crypto : Crypto)

/-- The four steps of the key derivation. -/
def deriveKey (s : Signer) (dateStamp : Bytes) : Bytes :=
  let kDate := crypto.hmac (ascii "AWS4" ++ s.secretKey) dateStamp
  let kRegion := crypto.hmac kDate s.region
  let kService := crypto.hmac kRegion s.service
  crypto.hmac kService (ascii "aws4_request")

/-- The critical sections of the signer; the entry starts as the zero values. -/
abbrev KeyCache := Memo.Cell Bytes Bytes

abbrev SignerProg := Prog (Memo.Section Bytes) (Memo.Section.Result Bytes)

def signingKey (dateStamp : Bytes) : SignerProg Bytes := Memo.lookup dateStamp

/-- `cr`. -/
def canonicalRequest (call : SignCall) : Bytes :=
  List.flatten [call.method, ascii "\n", uriEncodePath call.path, ascii "\n", call.rawQuery,
    ascii "\nhost:", call.effectiveHost, ascii "\nx-amz-content-sha256:", call.payloadSHA256,
    ascii "\nx-amz-date:", call.now.amzDate, ascii "\n\n", signedHeaders, ascii "\n",
    call.payloadSHA256]

def scope (s : Signer) (call : SignCall) : Bytes :=
  call.now.dateStamp ++ ascii "/" ++ s.region ++ ascii "/" ++ s.service ++ ascii "/aws4_request"

/-- `sts`. -/
def stringToSign (s : Signer) (call : SignCall) : Bytes :=
  List.flatten [algorithm, ascii "\n", call.now.amzDate, ascii "\n", scope s call, ascii "\n",
    crypto.hex (crypto.sha256 (canonicalRequest call))]

/-- The headers, once the signing key is there. -/
def authorize (s : Signer) (call : SignCall) (key : Bytes) : SignedHeaders :=
  { amzDate := call.now.amzDate
    contentSHA256 := call.payloadSHA256
    authorization := List.flatten [algorithm, ascii " Credential=", s.accessKey, ascii "/",
      scope s call, ascii ", SignedHeaders=", signedHeaders, ascii ", Signature=",
      crypto.hex (crypto.hmac key (stringToSign crypto s call))] }

def sign (s : Signer) (call : SignCall) : SignerProg SignedHeaders := do
  let key ← signingKey call.now.dateStamp
  return authorize crypto s call key

/-- One signer and any number of callers of `sign`. -/
def signerSystem (s : Signer) :
    System (Memo.Section Bytes) (Memo.Section.Result Bytes) KeyCache SignCall SignedHeaders
      Empty where
  exec := Memo.Section.exec (deriveKey crypto s)
  handler := sign crypto s
  drift e := e.elim

/-- Everything that happened to a signer so far. -/
abbrev SignerHistory :=
  Pool (Memo.Section Bytes) (Memo.Section.Result Bytes) KeyCache SignCall SignedHeaders

/-- A new signer: both fields of the cache have their zero values. -/
def freshSigner : SignerHistory := ⟨⟨[], []⟩, []⟩

theorem signerSystem_eq (s : Signer) : signerSystem crypto s =
    Memo.system (deriveKey crypto s) (fun call => call.now.dateStamp) (authorize crypto s) := rfl

/-- Under any interleaving a call returns what its own day's key gives. -/
theorem sign_of_run {s : Signer} {w : SignerHistory}
    (h : (signerSystem crypto s).FreeRun freshSigner w) {i : ℕ} {call : SignCall}
    {out : SignedHeaders} (hi : w.threads[i]? = some ⟨call, some (.done out)⟩) :
    out = authorize crypto s call (deriveKey crypto s call.now.dateStamp) := by
  rw [signerSystem_eq] at h
  exact Memo.answer_of_run _ [] _ _ (fun call => call.now.dateStamp_ne_nil) h hi

end

/-! ## From scratch -/

/-- Lines joined by line feeds. -/
def joinLines (lines : List Bytes) : Bytes := (ascii "\n").intercalate lines

section
variable (crypto : Crypto) (accessKey secretKey region : Bytes)

/-- The authorization for a canonical URI, with no cache: texts are joined from
lines and the key is a fold. -/
def plainAuthorization (canonicalURI : Bytes) (call : SignCall) : Bytes :=
  let amzDate := call.now.amzDate
  let canonical := joinLines [call.method, canonicalURI, call.rawQuery,
    ascii "host:" ++ call.effectiveHost, ascii "x-amz-content-sha256:" ++ call.payloadSHA256,
    ascii "x-amz-date:" ++ amzDate, [], signedHeaders, call.payloadSHA256]
  let scope := (ascii "/").intercalate
    [call.now.dateStamp, region, ascii "s3", ascii "aws4_request"]
  let toSign := joinLines [algorithm, amzDate, scope, crypto.hex (crypto.sha256 canonical)]
  let key := [call.now.dateStamp, region, ascii "s3", ascii "aws4_request"].foldl crypto.hmac
    (ascii "AWS4" ++ secretKey)
  algorithm ++ ascii " Credential=" ++ accessKey ++ ascii "/" ++ scope ++
    ascii ", SignedHeaders=" ++ signedHeaders ++ ascii ", Signature=" ++
    crypto.hex (crypto.hmac key toSign)

/-- Plain SigV4, for a given canonical URI of each path. -/
def plainSign (canonicalURI : Bytes → Bytes) (call : SignCall) : SignedHeaders :=
  { amzDate := call.now.amzDate
    contentSHA256 := call.payloadSHA256
    authorization :=
      plainAuthorization crypto accessKey secretKey region (canonicalURI call.path) call }

/-- The absolute path, encoded; `/` when there is none. -/
def canonicalURI (path : Bytes) : Bytes := if path = [] then ascii "/" else percentEncode path

theorem canonicalRequest_eq (call : SignCall) : canonicalRequest call =
    joinLines [call.method, canonicalURI call.path, call.rawQuery,
      ascii "host:" ++ call.effectiveHost, ascii "x-amz-content-sha256:" ++ call.payloadSHA256,
      ascii "x-amz-date:" ++ call.now.amzDate, [], signedHeaders, call.payloadSHA256] := by
  have huri : uriEncodePath call.path = canonicalURI call.path := uriEncodePath_eq _
  have hhost : ascii "\nhost:" = ascii "\n" ++ ascii "host:" := rfl
  have hsha : ascii "\nx-amz-content-sha256:" = ascii "\n" ++ ascii "x-amz-content-sha256:" := rfl
  have hdate : ascii "\nx-amz-date:" = ascii "\n" ++ ascii "x-amz-date:" := rfl
  have hblank : ascii "\n\n" = ascii "\n" ++ ascii "\n" := rfl
  simp [canonicalRequest, joinLines, List.intercalate, huri, hhost, hsha, hdate, hblank]

theorem scope_eq (call : SignCall) : scope (newSigner accessKey secretKey region) call =
    (ascii "/").intercalate [call.now.dateStamp, region, ascii "s3", ascii "aws4_request"] := by
  have hslash : ascii "/aws4_request" = ascii "/" ++ ascii "aws4_request" := rfl
  simp [scope, newSigner, List.intercalate, hslash]

theorem stringToSign_eq (call : SignCall) :
    stringToSign crypto (newSigner accessKey secretKey region) call =
      joinLines [algorithm, call.now.amzDate,
        scope (newSigner accessKey secretKey region) call,
        crypto.hex (crypto.sha256 (canonicalRequest call))] := by
  simp [stringToSign, joinLines, List.intercalate]

/-- The assembled texts are the joined ones. -/
theorem authorize_eq (call : SignCall) :
    authorize crypto (newSigner accessKey secretKey region) call
        (deriveKey crypto (newSigner accessKey secretKey region) call.now.dateStamp) =
      plainSign crypto accessKey secretKey region canonicalURI call := by
  simp only [authorize, plainSign, plainAuthorization, stringToSign_eq, canonicalRequest_eq,
    scope_eq, SignedHeaders.mk.injEq, true_and]
  simp only [List.flatten_cons, List.flatten_nil, List.append_nil, List.append_assoc]
  rfl

end

/-! ## The credentials check -/

/-- `signed_get` of `check_r2_creds.py`, for the region and service it fixes. The
years of a `datetime` have four digits. -/
def signedGet (crypto : Crypto) (host path query ak sk : Bytes) (now : UtcTime) : SignedHeaders :=
  let datestamp := pad 4 now.year.toNat ++ pad 2 now.month ++ pad 2 now.day
  let amzdate := datestamp ++ ascii "T" ++ pad 2 now.hour ++ pad 2 now.minute ++
    pad 2 now.second ++ ascii "Z"
  let payload_hash := crypto.hex (crypto.sha256 [])
  let canonical := ascii "GET\n" ++ path ++ ascii "\n" ++ query ++ ascii "\nhost:" ++ host ++
    ascii "\nx-amz-content-sha256:" ++ payload_hash ++ ascii "\nx-amz-date:" ++ amzdate ++
    ascii "\n\n" ++ signedHeaders ++ ascii "\n" ++ payload_hash
  let scope := datestamp ++ ascii "/auto/s3/aws4_request"
  let to_sign := ascii "AWS4-HMAC-SHA256\n" ++ amzdate ++ ascii "\n" ++ scope ++ ascii "\n" ++
    crypto.hex (crypto.sha256 canonical)
  let k := [ascii "auto", ascii "s3", ascii "aws4_request"].foldl crypto.hmac
    (crypto.hmac (ascii "AWS4" ++ sk) datestamp)
  { amzDate := amzdate
    contentSHA256 := payload_hash
    authorization := ascii "AWS4-HMAC-SHA256 Credential=" ++ ak ++ ascii "/" ++ scope ++
      ascii ", SignedHeaders=" ++ signedHeaders ++ ascii ", Signature=" ++
      crypto.hex (crypto.hmac k to_sign) }

/-- The calls of the agent that the credentials check makes as well: an empty GET
of a path that needs no encoding, in a year that a `datetime` can have. -/
structure PlainGet (call : SignCall) : Prop where
  method : call.method = ascii "GET"
  payload : call.payloadSHA256 = EmptyPayloadSHA256
  path_ne : call.path ≠ []
  path : ∀ c ∈ call.path, Unreserved c ∨ c = '/'.toUInt8
  year_pos : 1 ≤ call.now.year
  year_le : call.now.year ≤ 9999

/-- In those years the first eight bytes are the date. -/
theorem dateStamp_eq {now : UtcTime} (hpos : 1 ≤ now.year) (hle : now.year ≤ 9999) :
    now.dateStamp = pad 4 now.year.toNat ++ pad 2 now.month ++ pad 2 now.day := by
  have hm := now.month_le
  have hd := now.day_le
  have hlen : (pad 4 now.year.toNat ++ pad 2 now.month ++ pad 2 now.day).length = 8 := by
    rw [List.length_append, List.length_append, length_pad (by omega), length_pad (by omega),
      length_pad (by omega)]
  rw [UtcTime.dateStamp, UtcTime.amzDate, formatYear, if_neg (by omega)]
  simp only [List.append_assoc]
  rw [← List.append_assoc (pad 2 now.month), ← List.append_assoc (pad 4 now.year.toNat),
    ← List.append_assoc (pad 4 now.year.toNat), List.take_left' hlen]

theorem plainSign_eq_signedGet (crypto : Crypto) (accessKey secretKey : Bytes) {call : SignCall}
    (h : PlainGet call) (hempty : crypto.hex (crypto.sha256 []) = EmptyPayloadSHA256) :
    plainSign crypto accessKey secretKey (ascii "auto") canonicalURI call =
      signedGet crypto call.effectiveHost call.path call.rawQuery accessKey secretKey
        call.now := by
  have hpos := h.year_pos
  have hstamp := dateStamp_eq h.year_pos h.year_le
  have hdate : call.now.amzDate = pad 4 call.now.year.toNat ++ pad 2 call.now.month ++
      pad 2 call.now.day ++ ascii "T" ++ pad 2 call.now.hour ++ pad 2 call.now.minute ++
      pad 2 call.now.second ++ ascii "Z" := by
    rw [UtcTime.amzDate, formatYear, if_neg (by omega)]
  have huri : canonicalURI call.path = call.path := by
    rw [canonicalURI, if_neg h.path_ne, percentEncode_eq_self h.path]
  have hget : ascii "GET\n" = ascii "GET" ++ ascii "\n" := rfl
  have hhost : ascii "\nhost:" = ascii "\n" ++ ascii "host:" := rfl
  have hsha : ascii "\nx-amz-content-sha256:" = ascii "\n" ++ ascii "x-amz-content-sha256:" := rfl
  have hxdate : ascii "\nx-amz-date:" = ascii "\n" ++ ascii "x-amz-date:" := rfl
  have hblank : ascii "\n\n" = ascii "\n" ++ ascii "\n" := rfl
  have hscope : ascii "/auto/s3/aws4_request" =
      ascii "/" ++ ascii "auto" ++ ascii "/" ++ ascii "s3" ++ ascii "/" ++
        ascii "aws4_request" := rfl
  have halg : ascii "AWS4-HMAC-SHA256\n" = algorithm ++ ascii "\n" := rfl
  have hcred : ascii "AWS4-HMAC-SHA256 Credential=" = algorithm ++ ascii " Credential=" := rfl
  simp only [plainSign, plainAuthorization, signedGet, huri, hstamp, hdate, h.method, h.payload,
    hempty, joinLines, hget, hhost, hsha, hxdate, hblank, hscope, halg, hcred]
  simp [List.intercalate]

/-- Every call of `Sign` gets the headers of plain SigV4 for its own request and
instant, whatever the other calls do; those are the headers of the credentials
check where it makes the same request. -/
theorem cached_signing (crypto : Crypto) (accessKey secretKey region : Bytes)
    {w : SignerHistory}
    (h : (signerSystem crypto (newSigner accessKey secretKey region)).FreeRun freshSigner w)
    {i : ℕ} {call : SignCall} {out : SignedHeaders}
    (hi : w.threads[i]? = some ⟨call, some (.done out)⟩) :
    out = plainSign crypto accessKey secretKey region canonicalURI call ∧
    (region = ascii "auto" → PlainGet call →
      crypto.hex (crypto.sha256 []) = EmptyPayloadSHA256 →
      out = signedGet crypto call.effectiveHost call.path call.rawQuery accessKey secretKey
        call.now) := by
  have hout : out = plainSign crypto accessKey secretKey region canonicalURI call :=
    (sign_of_run crypto h hi).trans (authorize_eq crypto accessKey secretKey region call)
  refine ⟨hout, ?_⟩
  rintro rfl hget hempty
  rw [hout, plainSign_eq_signedGet crypto accessKey secretKey hget hempty]

/-- Transparent functions in place of the hash, the MAC and the encoding. -/
def plainCrypto : Crypto :=
  { sha256 := fun data => if data = [] then EmptyPayloadSHA256 else data
    hmac := fun key data => key ++ data
    hex := id }

/-- A GET of an object at one second before midnight or one second after. -/
def objectGet (path : Bytes) (afterMidnight : Bool) : SignCall :=
  { method := ascii "GET", host := [], urlHost := ascii "h", path, rawQuery := []
    payloadSHA256 := EmptyPayloadSHA256
    now := ⟨2026, 8, if afterMidnight then 21 else 20, if afterMidnight then 0 else 23,
      if afterMidnight then 0 else 59, if afterMidnight then 0 else 59, by decide,
      by split <;> decide⟩ }

/-- The headers that call `i` has returned, when it is this call. -/
def returned? (w : SignerHistory) (i : ℕ) (call : SignCall) : Option SignedHeaders :=
  match w.threads[i]? with
  | some ⟨call', some (.done out)⟩ => if call' = call then some out else none
  | _ => none

theorem of_returned? {w : SignerHistory} {i : ℕ} {call : SignCall} {out : SignedHeaders}
    (h : returned? w i call = some out) : w.threads[i]? = some ⟨call, some (.done out)⟩ := by
  unfold returned? at h
  split at h
  · next call' out' hi =>
    split_ifs at h with hcall
    obtain rfl := Option.some.inj h
    rw [hi, hcall]
  · cases h

/-- Two concurrent calls of one path around midnight: both miss, and the one of the
new day fills the entry first. -/
def aroundMidnight (path : Bytes) : List (Action SignCall Empty) :=
  [.arrive (objectGet path false), .arrive (objectGet path true), .exec 0, .exec 1, .exec 1,
    .exec 0]

theorem cached_signing_midnight : ∃ w out,
    (signerSystem plainCrypto (newSigner (ascii "AK") (ascii "SK") (ascii "auto"))).FreeRun
      freshSigner w ∧
    w.threads[0]? = some ⟨objectGet (ascii "/b/k") false, some (.done out)⟩ ∧
    out = plainSign plainCrypto (ascii "AK") (ascii "SK") (ascii "auto") canonicalURI
      (objectGet (ascii "/b/k") false) ∧
    out = signedGet plainCrypto (ascii "h") (ascii "/b/k") [] (ascii "AK") (ascii "SK")
      (objectGet (ascii "/b/k") false).now := by
  obtain ⟨w, hw, hP⟩ := (signerSystem plainCrypto
    (newSigner (ascii "AK") (ascii "SK") (ascii "auto"))).exists_run_of_replay
      (w := freshSigner) (C := fun _ _ => True) (fun _ _ => true) (fun _ _ _ => trivial)
      (aroundMidnight (ascii "/b/k"))
      (fun w => (returned? w 0 (objectGet (ascii "/b/k") false)).isSome) (by decide +kernel)
  obtain ⟨out, hout⟩ := Option.isSome_iff_exists.mp hP
  have hi := of_returned? hout
  obtain ⟨hplain, hget⟩ := cached_signing plainCrypto (ascii "AK") (ascii "SK") (ascii "auto") hw hi
  exact ⟨w, out, hw, hi, hplain, hget rfl
    ⟨rfl, rfl, by decide, by decide +kernel, by decide, by decide⟩ rfl⟩

/-- For an empty path the code signs `/`, where the encoded path is empty. -/
theorem cached_signing_empty_path :
    ¬ ∀ (crypto : Crypto) (accessKey secretKey region : Bytes) (w : SignerHistory) (i : ℕ)
      (call : SignCall) (out : SignedHeaders),
      (signerSystem crypto (newSigner accessKey secretKey region)).FreeRun freshSigner w →
      w.threads[i]? = some ⟨call, some (.done out)⟩ →
      out = plainSign crypto accessKey secretKey region percentEncode call := by
  intro hclaim
  obtain ⟨w, hw, hP⟩ := (signerSystem plainCrypto
    (newSigner (ascii "AK") (ascii "SK") (ascii "auto"))).exists_run_of_replay
      (w := freshSigner) (C := fun _ _ => True) (fun _ _ => true) (fun _ _ _ => trivial)
      (aroundMidnight []) (fun w => (returned? w 0 (objectGet [] false)).isSome)
      (by decide +kernel)
  obtain ⟨out, hout⟩ := Option.isSome_iff_exists.mp hP
  have hi := of_returned? hout
  have hcode := (sign_of_run plainCrypto hw hi).trans
    (authorize_eq plainCrypto (ascii "AK") (ascii "SK") (ascii "auto") (objectGet [] false))
  have hplain := hclaim _ _ _ _ w 0 _ out hw hi
  have hne : plainSign plainCrypto (ascii "AK") (ascii "SK") (ascii "auto") canonicalURI
      (objectGet [] false) ≠ plainSign plainCrypto (ascii "AK") (ascii "SK") (ascii "auto")
        percentEncode (objectGet [] false) := by decide +kernel
  exact hne (hcode.symm.trans hplain)

end R2Bench
