import R2Bench.ByteStrings

/-!
# The bucket and key layout

The agent, the seeder and the Terraform module all follow this scheme.
-/
namespace R2Bench

structure Naming where
  bucketPrefix : Bytes
  bucketCount : ℤ
  keyPrefix : Bytes
  keyspace : ℤ
  deriving DecidableEq

namespace Naming

def bucketName (n : Naming) (i : ℕ) : Bytes := n.bucketPrefix ++ pad 2 i

def objectKey (n : Naming) (i : ℕ) : Bytes := n.keyPrefix ++ pad 8 i

/-- The seeder writes this key once a bucket is fully populated. -/
def sentinelKey (n : Naming) : Bytes := n.keyPrefix ++ ascii "_seed_complete"

/-- The shape a bucket was seeded with. -/
def sentinelBody (n : Naming) (objectSize : ℤ) : Bytes :=
  ascii "keyspace=" ++ decimal n.keyspace ++ ascii "\nobject_size=" ++ decimal objectSize ++
    ascii "\nkey_prefix=" ++ n.keyPrefix ++ ascii "\n"

/-- No object is taken for a sentinel, whatever the prefixes of the two. -/
theorem objectKey_ne_sentinelKey (n m : Naming) (i : ℕ) : n.objectKey i ≠ m.sentinelKey := by
  intro h
  have hlast := congrArg List.getLast? h
  rw [objectKey, sentinelKey, List.getLast?_append_of_ne_nil _ (pad_ne_nil (by norm_num)),
    List.getLast?_append_of_ne_nil _ (by decide)] at hlast
  have hmem : 'e'.toUInt8 ∈ pad 8 i := List.mem_of_getLast? hlast
  exact not_mem_pad (by decide) hmem

/-- A name is read back from the text, since what stands between bucket and key is no digit;
and within the padding names ascend as their numbers do. -/
theorem names_identify (n : Naming) :
    (∀ b b' k k' : ℕ, n.bucketName b ++ ascii "/" ++ n.objectKey k =
      n.bucketName b' ++ ascii "/" ++ n.objectKey k' → b = b' ∧ k = k') ∧
    (∀ k : ℕ, n.objectKey k ≠ n.sentinelKey) ∧
    (∀ k k' : ℕ, k < k' → k' < 10 ^ 8 → n.objectKey k < n.objectKey k') ∧
    (∀ b b' : ℕ, b < b' → b' < 100 → n.bucketName b < n.bucketName b') := by
  refine ⟨?_, fun k => objectKey_ne_sentinelKey n n k, ?_, ?_⟩
  · intro b b' k k' h
    simp only [bucketName, objectKey, List.append_assoc, List.append_cancel_left_eq] at h
    have hslash : ∀ i, '/'.toUInt8 ∉ pad 2 i := fun i => not_mem_pad (by decide)
    obtain ⟨hb, hrest⟩ := field_inj (hslash b) (hslash b') h
    have hk : pad 8 k = pad 8 k' := List.append_cancel_left (List.append_cancel_left hrest)
    exact ⟨(pad_inj (by norm_num)).mp hb, (pad_inj (by norm_num)).mp hk⟩
  · intro k k' hlt hle
    exact List.append_left_lt (pad_lt_pad hlt hle)
  · intro b b' hlt hle
    exact List.append_left_lt (pad_lt_pad hlt hle)

/-- The body spells out the shape: each number ends at its newline, and the
prefix, which may contain any byte, comes last. -/
theorem shape_of_sentinelBody {n m : Naming} {size size' : ℤ}
    (h : n.sentinelBody size = m.sentinelBody size') :
    n.keyspace = m.keyspace ∧ size = size' ∧ n.keyPrefix = m.keyPrefix := by
  have hnewline : ∀ k : ℤ, '\n'.toUInt8 ∉ decimal k := fun k =>
    not_mem_decimal (by decide) (by decide)
  simp only [sentinelBody, List.append_assoc, List.append_cancel_left_eq] at h
  obtain ⟨hkeyspace, h⟩ := field_inj (hnewline _) (hnewline _) h
  obtain ⟨hsize, h⟩ := field_inj (hnewline _) (hnewline _) (List.append_cancel_left h)
  have hprefix := List.append_cancel_right (List.append_cancel_left h)
  exact ⟨decimal_inj.mp hkeyspace, decimal_inj.mp hsize, hprefix⟩

end Naming

/-- `%s/%s/%s`, as both programs address an object. -/
def objectURL (endpoint bucket key : Bytes) : Bytes :=
  endpoint ++ ascii "/" ++ bucket ++ ascii "/" ++ key

end R2Bench
