import R2Bench.Naming

/-!
# What a sentinel promises

The buckets as a store of bodies by bucket name and key, the key being the one that R2
keeps the object under. A sentinel is truthful when every object of the shape it records
is there at the recorded size.
-/
namespace R2Bench

abbrev Contents := Bytes → Option Bytes

abbrev Store := Bytes → Contents

def Store.put (s : Store) (bucket key body : Bytes) : Store :=
  Function.update s bucket (Function.update (s bucket) key (some body))

theorem Store.put_apply (s : Store) (bucket key body name k : Bytes) :
    s.put bucket key body name k =
      if name = bucket ∧ k = key then some body else s name k := by
  by_cases hname : name = bucket
  · subst hname
    by_cases hk : k = key
    · simp [put, hk]
    · simp [put, hk]
  · simp [put, hname]

namespace Contents

/-- The object is there at this size. -/
def HasObject (c : Contents) (n : Naming) (objectSize : ℤ) (k : ℕ) : Prop :=
  ∃ body, c (n.objectKey k) = some body ∧ body.length = objectSize

/-- Every object of the shape is there. -/
def Holds (c : Contents) (n : Naming) (objectSize : ℤ) : Prop :=
  ∀ k : ℕ, k < n.keyspace → c.HasObject n objectSize k

/-- The sentinel of this shape is in place. -/
def Promises (c : Contents) (n : Naming) (objectSize : ℤ) : Prop :=
  c n.sentinelKey = some (n.sentinelBody objectSize)

def Truthful (c : Contents) : Prop := ∀ n objectSize, c.Promises n objectSize → c.Holds n objectSize

end Contents

namespace Store
variable (s : Store) (bucket : Bytes)

def Truthful : Prop := ∀ name, (s name).Truthful

/-- An object written over a promise keeps it if it has the promised size. -/
def Respects (n : Naming) (objectSize : ℤ) (k : ℕ) : Prop :=
  ∀ m promised, (s bucket).Promises m promised → ∀ i : ℕ, i < m.keyspace →
    m.objectKey i = n.objectKey k → promised = objectSize

variable {s bucket} {n : Naming} {objectSize : ℤ} {k : ℕ} {body : Bytes}

theorem promises_put_object {name : Bytes} {m : Naming} {promised : ℤ} :
    (s.put bucket (n.objectKey k) body name).Promises m promised ↔
      (s name).Promises m promised := by
  have hne : m.sentinelKey ≠ n.objectKey k := (n.objectKey_ne_sentinelKey m k).symm
  simp [Contents.Promises, put_apply, hne]

theorem hasObject_put_sentinel {name : Bytes} {m : Naming} {size : ℤ} {i : ℕ} :
    (s.put bucket n.sentinelKey body name).HasObject m size i ↔ (s name).HasObject m size i := by
  simp [Contents.HasObject, put_apply, m.objectKey_ne_sentinelKey n i]

/-- The object that was written is there. -/
theorem hasObject_put_self (h : body.length = objectSize) :
    (s.put bucket (n.objectKey k) body bucket).HasObject n objectSize k :=
  ⟨body, by simp [put_apply], h⟩

/-- Objects of one size do not spoil each other. -/
theorem hasObject_put_object {name : Bytes} {m : Naming} {i : ℕ} (h : body.length = objectSize)
    (hi : (s name).HasObject m objectSize i) :
    (s.put bucket (n.objectKey k) body name).HasObject m objectSize i := by
  obtain ⟨old, hold, hlen⟩ := hi
  by_cases hsame : name = bucket ∧ m.objectKey i = n.objectKey k
  · exact ⟨body, by simp [put_apply, hsame], h⟩
  · exact ⟨old, by rwa [put_apply, if_neg hsame], hlen⟩

/-- Writing an object keeps the sentinels truthful exactly when it has the size
that those over it promise. -/
theorem truthful_put_object_iff (hs : s.Truthful) (h : body.length = objectSize) :
    (s.put bucket (n.objectKey k) body).Truthful ↔ s.Respects bucket n objectSize k := by
  constructor
  · intro htruth m promised hpromise i hi hkey
    obtain ⟨found, hfound, hlen⟩ :=
      htruth bucket m promised (promises_put_object.mpr hpromise) i hi
    rw [put_apply, if_pos ⟨rfl, hkey⟩, Option.some.injEq] at hfound
    rw [← hlen, ← hfound, h]
  · intro hrespects name m promised hpromise i hi
    rw [promises_put_object] at hpromise
    obtain ⟨old, hold, hlen⟩ := hs name m promised hpromise i hi
    by_cases hsame : name = bucket ∧ m.objectKey i = n.objectKey k
    · obtain ⟨rfl, hkey⟩ := hsame
      refine ⟨body, by simp [put_apply, hkey], ?_⟩
      rw [h, hrespects m promised hpromise i hi hkey]
    · exact ⟨old, by rwa [put_apply, if_neg hsame], hlen⟩

/-- Writing a sentinel keeps the sentinels truthful exactly when the bucket holds
the shape it records. -/
theorem truthful_put_sentinel_iff (hs : s.Truthful) :
    (s.put bucket n.sentinelKey (n.sentinelBody objectSize)).Truthful ↔
      (s bucket).Holds n objectSize := by
  constructor
  · intro htruth i hi
    have hpromise : (s.put bucket n.sentinelKey (n.sentinelBody objectSize) bucket).Promises
        n objectSize := by simp [Contents.Promises, put_apply]
    exact hasObject_put_sentinel.mp (htruth bucket n objectSize hpromise i hi)
  · intro hholds name m promised hpromise i hi
    rw [hasObject_put_sentinel]
    rw [Contents.Promises, put_apply] at hpromise
    split_ifs at hpromise with hsame
    · obtain ⟨rfl, hkey⟩ := hsame
      obtain ⟨hkeyspace, rfl, hprefix⟩ :=
        Naming.shape_of_sentinelBody (Option.some.inj hpromise)
      obtain ⟨found, hfound, hlen⟩ := hholds i (by omega)
      exact ⟨found, by rwa [Naming.objectKey, ← hprefix], hlen⟩
    · exact hs name m promised hpromise i hi

end Store
end R2Bench
