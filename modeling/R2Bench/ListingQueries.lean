import R2Bench.CanonicalRequests
import R2Bench.QueryStrings

/-!
# The query of a listing

`listPage` writes its query by hand, and the signer takes it as it is. It is already
in canonical form, and nothing in a prefix or a token can be taken for a separator.
-/
namespace R2Bench

/-! ## Escaping a value -/

/-- `neturl.QueryEscape` on one byte: a space becomes a plus sign. -/
def neturlQueryEscapeByte (c : UInt8) : Bytes :=
  if c = ' '.toUInt8 then ['+'.toUInt8] else escapeByte Unreserved c

def neturlQueryEscape (v : Bytes) : Bytes := v.flatMap neturlQueryEscapeByte

/-- `strings.ReplaceAll` where the text to be replaced is one byte. -/
def replaceAll (old : UInt8) (new text : Bytes) : Bytes :=
  text.flatMap fun c => if c = old then new else [c]

def queryEscape (v : Bytes) : Bytes := replaceAll '+'.toUInt8 (ascii "%20") (neturlQueryEscape v)

theorem replaceAll_eq_self {old : UInt8} {new text : Bytes} (h : old ∉ text) :
    replaceAll old new text = text := by
  induction text with
  | nil => rfl
  | cons c text ih =>
    have hhead : c ≠ old := by
      intro he
      subst he
      exact h List.mem_cons_self
    have htail := ih fun hmem => h (List.mem_cons_of_mem _ hmem)
    rw [replaceAll] at htail ⊢
    rw [List.flatMap_cons, if_neg hhead, htail]
    rfl

/-- Only the plus signs that stand for spaces are there to be replaced: a plus sign of
the value has been escaped before. -/
theorem replaceAll_neturlQueryEscapeByte (c : UInt8) :
    replaceAll '+'.toUInt8 (ascii "%20") (neturlQueryEscapeByte c) = escapeByte Unreserved c := by
  rw [neturlQueryEscapeByte]
  split_ifs with hspace
  · subst hspace
    decide
  · apply replaceAll_eq_self
    have hplus : '+'.toUInt8 ∉ escape Unreserved [c] :=
      not_mem_escape (by decide) (by decide) (by decide) [c]
    simpa [escape] using hplus

/-- Every value is escaped as the canonical form has it. -/
theorem queryEscape_eq (v : Bytes) : queryEscape v = escape Unreserved v := by
  rw [queryEscape, replaceAll, neturlQueryEscape, List.flatMap_assoc]
  exact List.flatMap_congr fun c _ => replaceAll_neturlQueryEscapeByte c

example : queryEscape (ascii "a b+c/d=") = ascii "a%20b%2Bc%2Fd%3D" := by decide +kernel

/-! ## The query -/

/-- The query that `listPage` builds. -/
def listQuery (keyPrefix token : Bytes) : Bytes :=
  let q := ascii "list-type=2&max-keys=1000&prefix=" ++ queryEscape keyPrefix
  if token ≠ [] then ascii "continuation-token=" ++ queryEscape token ++ ascii "&" ++ q else q

/-- What the query asks for. -/
def listParams (keyPrefix token : Bytes) : List (Bytes × Bytes) :=
  (if token = [] then [] else [(ascii "continuation-token", token)]) ++
    [(ascii "list-type", ascii "2"), (ascii "max-keys", ascii "1000"), (ascii "prefix", keyPrefix)]

/-- The request that `listPage` signs, for a host and a path out of the endpoint and
the bucket. -/
def listCall (host path keyPrefix token : Bytes) (now : UtcTime) : SignCall where
  method := ascii "GET"
  host := host
  urlHost := host
  path := path
  rawQuery := listQuery keyPrefix token
  payloadSHA256 := EmptyPayloadSHA256
  now := now

theorem listParams_ne_nil (keyPrefix token : Bytes) : listParams keyPrefix token ≠ [] := by
  simp [listParams]

theorem listParams_ascending (keyPrefix token : Bytes) :
    (listParams keyPrefix token).Pairwise fun p q => p.1 < q.1 := by
  have hct : ascii "continuation-token" < ascii "list-type" := by decide
  have hcm : ascii "continuation-token" < ascii "max-keys" := by decide
  have hcp : ascii "continuation-token" < ascii "prefix" := by decide
  have htm : ascii "list-type" < ascii "max-keys" := by decide
  have htp : ascii "list-type" < ascii "prefix" := by decide
  have hmp : ascii "max-keys" < ascii "prefix" := by decide
  rw [listParams]
  split_ifs
  · simp [htm, htp, hmp]
  · simp [hct, hcm, hcp, htm, htp, hmp]

/-- The fixed parts of the query are the fields that they look like. -/
theorem listQuery_eq (keyPrefix token : Bytes) :
    listQuery keyPrefix token = joinQuery (listParams keyPrefix token) := by
  have htype : queryField (ascii "list-type", ascii "2") = ascii "list-type=2" := by
    decide +kernel
  have hkeys : queryField (ascii "max-keys", ascii "1000") = ascii "max-keys=1000" := by
    decide +kernel
  have hname : escape Unreserved (ascii "prefix") = ascii "prefix" := by decide +kernel
  have hcont : escape Unreserved (ascii "continuation-token") = ascii "continuation-token" := by
    decide +kernel
  have hhead : ascii "list-type=2&max-keys=1000&prefix=" = ascii "list-type=2" ++
      '&'.toUInt8 :: (ascii "max-keys=1000" ++ '&'.toUInt8 :: (ascii "prefix" ++ ['='.toUInt8])) :=
    rfl
  have hcall : ascii "continuation-token=" = ascii "continuation-token" ++ ['='.toUInt8] := rfl
  have hamp : ascii "&" = ['&'.toUInt8] := rfl
  have hq : ascii "list-type=2&max-keys=1000&prefix=" ++ queryEscape keyPrefix = joinQuery
      [(ascii "list-type", ascii "2"), (ascii "max-keys", ascii "1000"),
        (ascii "prefix", keyPrefix)] := by
    rw [joinQuery, List.map_cons, List.map_cons, List.map_cons, List.map_nil, htype, hkeys,
      queryField, hname, hhead, queryEscape_eq]
    simp [List.intercalate_cons_cons]
  rw [listQuery, listParams, hq]
  by_cases htoken : token = []
  · rw [if_neg (not_not.mpr htoken), if_pos htoken, List.nil_append]
  · rw [if_pos htoken, if_neg htoken, queryEscape_eq, hcall, hamp]
    simp [joinQuery, List.intercalate_cons_cons, queryField, hcont]

/-- Whatever bytes the prefix and the token consist of, the query is the canonical one
of its parameters, it shows no plus sign, the parameters are read back from it, and it
is a line of the text that is signed. -/
theorem listQuery_canonical (keyPrefix token : Bytes) :
    (∀ params : List (Bytes × Bytes), params.Perm (listParams keyPrefix token) →
      listQuery keyPrefix token = canonicalQuery params) ∧
    '+'.toUInt8 ∉ listQuery keyPrefix token ∧
    parseQuery (listQuery keyPrefix token) = some (listParams keyPrefix token) ∧
    ∀ (host path : Bytes) (now : UtcTime),
      canonicalRequest (listCall host path keyPrefix token now) =
        joinLines (listCall host path keyPrefix token now).lines ∧
      (listCall host path keyPrefix token now).lines[2]? =
        some (canonicalQuery (listParams keyPrefix token)) := by
  have hcanonical : ∀ params : List (Bytes × Bytes),
      params.Perm (listParams keyPrefix token) →
      listQuery keyPrefix token = canonicalQuery params := by
    intro params hperm
    rw [canonicalQuery_eq hperm (listParams_ascending keyPrefix token), listQuery_eq]
  refine ⟨hcanonical, ?_, ?_, ?_⟩
  · rw [listQuery_eq]
    apply not_mem_joinQuery _ (by decide)
    intro p
    exact not_mem_queryField (by decide) (by decide) (by decide) (by decide) p
  · rw [listQuery_eq]
    exact parseQuery_joinQuery (listParams_ne_nil keyPrefix token)
  · intro host path now
    constructor
    · exact canonicalRequest_eq _
    · exact congrArg some (hcanonical _ (List.Perm.refl _))

end R2Bench
