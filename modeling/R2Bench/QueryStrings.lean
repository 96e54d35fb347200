import R2Bench.PercentEncoding

/-!
# Query strings

Parameters as fields with an ampersand between them. In canonical form the names
ascend in byte order and both sides of a field are escaped, so that the separators
are those of the text and nothing else.
-/
namespace R2Bench

/-- `name=value`. -/
def queryField (p : Bytes × Bytes) : Bytes :=
  escape Unreserved p.1 ++ '='.toUInt8 :: escape Unreserved p.2

def joinQuery (params : List (Bytes × Bytes)) : Bytes :=
  ['&'.toUInt8].intercalate (params.map queryField)

def byName (p q : Bytes × Bytes) : Bool := ¬ q.1 < p.1

/-- The canonical query string of SigV4. -/
def canonicalQuery (params : List (Bytes × Bytes)) : Bytes := joinQuery (params.mergeSort byName)

/-- Cut at the first equals sign, and decode. -/
def parseField (field : Bytes) : Option (Bytes × Bytes) := do
  let name ← percentDecode (field.takeWhile (· ≠ '='.toUInt8))
  let value ← percentDecode (field.dropWhile (· ≠ '='.toUInt8)).tail
  return (name, value)

def parseQuery (query : Bytes) : Option (List (Bytes × Bytes)) :=
  (query.splitOn '&'.toUInt8).mapM parseField

/-! ## Reading back -/

theorem not_mem_queryField {d : UInt8} (hsafe : ¬ Unreserved d) (hhex : isUpperHex d = false)
    (hpercent : d ≠ '%'.toUInt8) (hequals : d ≠ '='.toUInt8) (p : Bytes × Bytes) :
    d ∉ queryField p := by
  have hname := not_mem_escape hsafe hhex hpercent p.1
  have hvalue := not_mem_escape hsafe hhex hpercent p.2
  simp [queryField, hname, hvalue, hequals]

theorem parseField_queryField (p : Bytes × Bytes) : parseField (queryField p) = some p := by
  have hpercent : ¬ Unreserved '%'.toUInt8 := by decide
  have hname : ∀ c ∈ escape Unreserved p.1, decide (c ≠ '='.toUInt8) = true := by
    intro c hc
    have hne : c ≠ '='.toUInt8 := by
      intro he
      subst he
      exact not_mem_escape (by decide) (by decide) (by decide) p.1 hc
    exact decide_eq_true hne
  rw [parseField, queryField, List.takeWhile_append_of_pos hname,
    List.dropWhile_append_of_pos hname]
  simp [percentDecode_escape hpercent]

/-- A query is read back as it was joined, whatever its names and values contain. -/
theorem parseQuery_joinQuery {params : List (Bytes × Bytes)} (h : params ≠ []) :
    parseQuery (joinQuery params) = some params := by
  have hfields : ∀ field ∈ params.map queryField, '&'.toUInt8 ∉ field := by
    intro field hfield
    obtain ⟨p, -, rfl⟩ := List.mem_map.mp hfield
    exact not_mem_queryField (by decide) (by decide) (by decide) (by decide) p
  rw [parseQuery, joinQuery, List.splitOn_intercalate _ hfields (by simpa using h)]
  clear h hfields
  induction params with
  | nil => rfl
  | cons p params ih => simp [parseField_queryField, ih]

theorem not_mem_joinQuery {d : UInt8} (hfields : ∀ p, d ∉ queryField p)
    (hampersand : d ≠ '&'.toUInt8) (params : List (Bytes × Bytes)) : d ∉ joinQuery params := by
  rw [joinQuery]
  induction params with
  | nil => simp
  | cons p params ih =>
    cases params with
    | nil => simpa using hfields p
    | cons q params =>
      rw [List.map_cons, List.map_cons, List.intercalate_cons_cons]
      simpa [hfields p, hampersand] using ih

/-! ## The canonical order -/

theorem byName_iff (p q : Bytes × Bytes) : byName p q = true ↔ p.1 ≤ q.1 := by
  rw [byName, decide_eq_true_iff, List.not_lt]

/-- Where the names ascend the order of the parameters does not matter. -/
theorem canonicalQuery_eq {params sorted : List (Bytes × Bytes)} (hperm : params.Perm sorted)
    (hsorted : sorted.Pairwise fun p q => p.1 < q.1) :
    canonicalQuery params = joinQuery sorted := by
  have hmerge : (params.mergeSort byName).Pairwise fun p q => byName p q = true := by
    apply List.pairwise_mergeSort
    · intro p q r hpq hqr
      rw [byName_iff] at hpq hqr ⊢
      exact List.le_trans hpq hqr
    · intro p q
      rw [Bool.or_eq_true, byName_iff, byName_iff]
      exact List.le_total p.1 q.1
  have hle : sorted.Pairwise fun p q => byName p q = true :=
    hsorted.imp fun hlt => (byName_iff _ _).mpr (List.le_of_lt hlt)
  have hnames : (sorted.map Prod.fst).Nodup := by
    rw [List.Nodup, List.pairwise_map]
    apply hsorted.imp
    intro p q hlt heq
    rw [heq] at hlt
    exact List.lt_irrefl _ hlt
  have hall := (List.mergeSort_perm params byName).trans hperm
  have hsame : params.mergeSort byName = sorted := by
    apply hall.eq_of_pairwise _ hmerge hle
    intro p q hp hq hpq hqp
    rw [byName_iff] at hpq hqp
    exact List.inj_on_of_nodup_map hnames (hall.subset hp) hq (List.le_antisymm hpq hqp)
  rw [canonicalQuery, hsame]

end R2Bench
