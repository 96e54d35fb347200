import R2Bench.Naming

/-!
# What the environment configures

The agent and the seeder read one set of `R2_*` variables, through one package,
so that both address the same objects. Each checks and normalises what it read
by itself; only the seeder trims the endpoint.
-/
namespace R2Bench

/-- `os.Getenv`: the empty text where a variable is unset. -/
abbrev Environ := String → Bytes

namespace Environ
variable (env : Environ)

def string (key : String) (default : Bytes) : Bytes :=
  if env key ≠ [] then env key else default

/-- A text that is no number falls back to the default, as an empty one does. -/
def int (key : String) (default : ℤ) : ℤ :=
  if env key = [] then default else (atoi (env key)).getD default

/-- `time.Duration(n) * time.Second`, in nanoseconds of an `int64`. -/
def seconds (key : String) (default : ℤ) : ℤ :=
  (env.int key default * 1000000000).bmod (2 ^ 64)

end Environ

/-! ## The agent -/

structure Config where
  endpoint : Bytes
  accessKey : Bytes
  secretKey : Bytes
  region : Bytes
  bucketPrefix : Bytes
  bucketCount : ℤ
  keyPrefix : Bytes
  keyspace : ℤ
  controlPlaneURL : Bytes
  agentToken : Bytes
  agentID : Bytes
  agentRegion : Bytes
  accessClientID : Bytes
  accessClientSecret : Bytes
  maxWorkers : ℤ
  maxIdlePerHost : ℤ
  idleConnTimeout : ℤ
  pollInterval : ℤ
  metricsInterval : ℤ
  requestTimeout : ℤ
  bucketCount_pos : 0 < bucketCount
  keyspace_pos : 0 < keyspace
  access_together : accessClientID = [] ↔ accessClientSecret = []

/-- What the process takes from its host: the id it falls back to, and the order
in which a map is walked, which Go leaves open. -/
structure Host where
  defaultAgentID : Bytes
  walk : List (String × Bytes) → List (String × Bytes)
  walk_perm (entries : List (String × Bytes)) : (walk entries).Perm entries

def requiredVariables (env : Environ) : List (String × Bytes) :=
  [("R2_ENDPOINT", env "R2_ENDPOINT"), ("R2_ACCESS_KEY_ID", env "R2_ACCESS_KEY_ID"),
    ("R2_SECRET_ACCESS_KEY", env "R2_SECRET_ACCESS_KEY"),
    ("CONTROL_PLANE_URL", trimSlashes (env "CONTROL_PLANE_URL")),
    ("AGENT_TOKEN", env "AGENT_TOKEN")]

def Host.missing (host : Host) (env : Environ) : List String :=
  ((host.walk (requiredVariables env)).filter fun entry => entry.2 = []).map Prod.fst

theorem Host.missing_eq_nil_iff (host : Host) (env : Environ) :
    host.missing env = [] ↔ ∀ entry ∈ requiredVariables env, entry.2 ≠ [] := by
  rw [missing, List.map_eq_nil_iff, List.filter_eq_nil_iff]
  constructor
  · intro h entry hentry
    simpa using h entry ((host.walk_perm _).mem_iff.mpr hentry)
  · intro h entry hentry
    simpa using h entry ((host.walk_perm _).mem_iff.mp hentry)

def loadConfig (host : Host) (env : Environ) : Except Bytes Config :=
  let bucketCount := env.int "R2_BUCKET_COUNT" 25
  let keyspace := env.int "R2_KEYSPACE" 40000
  let accessClientID := env "CF_ACCESS_CLIENT_ID"
  let accessClientSecret := env "CF_ACCESS_CLIENT_SECRET"
  if host.missing env ≠ [] then
    .error (ascii "missing required environment variables: " ++
      ascii (", ".intercalate (host.missing env)))
  else if hcount : bucketCount ≤ 0 then
    .error (ascii "R2_BUCKET_COUNT must be > 0, got " ++ decimal bucketCount)
  else if hkeyspace : keyspace ≤ 0 then
    .error (ascii "R2_KEYSPACE must be > 0, got " ++ decimal keyspace)
  else if haccess : (accessClientID = []) ≠ (accessClientSecret = []) then
    .error (ascii ("CF_ACCESS_CLIENT_ID and CF_ACCESS_CLIENT_SECRET must be set together, " ++
      "or both left empty"))
  else
    .ok
      { endpoint := env "R2_ENDPOINT"
        accessKey := env "R2_ACCESS_KEY_ID"
        secretKey := env "R2_SECRET_ACCESS_KEY"
        region := env.string "R2_REGION" (ascii "auto")
        bucketPrefix := env.string "R2_BUCKET_PREFIX" (ascii "r2bench-")
        bucketCount := bucketCount
        keyPrefix := env.string "R2_KEY_PREFIX" (ascii "obj/")
        keyspace := keyspace
        controlPlaneURL := trimSlashes (env "CONTROL_PLANE_URL")
        agentToken := env "AGENT_TOKEN"
        agentID := env.string "AGENT_ID" host.defaultAgentID
        agentRegion := env.string "AGENT_REGION" (ascii "unknown")
        accessClientID := accessClientID
        accessClientSecret := accessClientSecret
        maxWorkers := env.int "MAX_WORKERS" 2048
        maxIdlePerHost := env.int "MAX_IDLE_CONNS_PER_HOST" 4096
        idleConnTimeout := env.seconds "IDLE_CONN_TIMEOUT_SECONDS" 0
        pollInterval := env.seconds "POLL_INTERVAL_SECONDS" 5
        metricsInterval := env.seconds "METRICS_INTERVAL_SECONDS" 10
        requestTimeout := env.seconds "REQUEST_TIMEOUT_SECONDS" 30
        bucketCount_pos := not_le.mp hcount
        keyspace_pos := not_le.mp hkeyspace
        access_together := by simpa using haccess }

/-- Which environments are accepted does not depend on the host. -/
theorem loadConfig_accepts_iff (host : Host) (env : Environ) :
    (∃ c, loadConfig host env = .ok c) ↔
      (∀ entry ∈ requiredVariables env, entry.2 ≠ []) ∧ 0 < env.int "R2_BUCKET_COUNT" 25 ∧
        0 < env.int "R2_KEYSPACE" 40000 ∧
        (env "CF_ACCESS_CLIENT_ID" = [] ↔ env "CF_ACCESS_CLIENT_SECRET" = []) := by
  rw [← host.missing_eq_nil_iff]
  simp only [loadConfig]
  constructor
  · rintro ⟨c, hc⟩
    split_ifs at hc with hmissing hcount hkeyspace haccess
    exact ⟨not_not.mp hmissing, not_le.mp hcount, not_le.mp hkeyspace, by simpa using haccess⟩
  · rintro ⟨hmissing, hcount, hkeyspace, haccess⟩
    rw [if_neg (not_not.mpr hmissing), dif_neg (not_le.mpr hcount), dif_neg (not_le.mpr hkeyspace),
      dif_neg (not_not.mpr (propext haccess))]
    exact ⟨_, rfl⟩

namespace Config

def naming (c : Config) : Naming := ⟨c.bucketPrefix, c.bucketCount, c.keyPrefix, c.keyspace⟩

/-- The URL that `fetch` requests. -/
def fetchURL (c : Config) (bucketIdx keyIdx : ℕ) : Bytes :=
  objectURL c.endpoint (c.naming.bucketName bucketIdx) (c.naming.objectKey keyIdx)

/-- The objects that `Warmup` fetches, one for each connection. -/
def warmupDraws (c : Config) (conns : ℤ) : List (ℕ × ℕ) :=
  (List.range conns.toNat).map fun i => (i % c.bucketCount.toNat, i % c.keyspace.toNat)

/-- An index pair that the agent can fetch: a worker draws each index at random
below its bound, a warmup connection takes its own number modulo both. -/
inductive Draws (c : Config) : ℕ → ℕ → Prop
  | worker {bucket key : ℕ} (hbucket : bucket < c.bucketCount) (hkey : key < c.keyspace) :
      Draws c bucket key
  | warmup {bucket key : ℕ} (conns : ℤ) (h : (bucket, key) ∈ c.warmupDraws conns) :
      Draws c bucket key

theorem draws_iff (c : Config) (bucket key : ℕ) :
    c.Draws bucket key ↔ bucket < c.bucketCount ∧ key < c.keyspace := by
  have hcount := c.bucketCount_pos
  have hkeyspace := c.keyspace_pos
  constructor
  · intro h
    cases h with
    | worker hbucket hkey => exact ⟨hbucket, hkey⟩
    | warmup conns h =>
      obtain ⟨i, -, hi⟩ := List.mem_map.mp h
      obtain ⟨rfl, rfl⟩ := Prod.mk.inj hi
      have hb := Nat.mod_lt i (show 0 < c.bucketCount.toNat by omega)
      have hk := Nat.mod_lt i (show 0 < c.keyspace.toNat by omega)
      omega
  · rintro ⟨hbucket, hkey⟩
    exact .worker hbucket hkey

end Config

/-! ## The seeder -/

structure Flags where
  force : Bool
  repair : Bool
  dryRun : Bool

structure Options where
  endpoint : Bytes
  bucketPrefix : Bytes
  bucketCount : ℤ
  keyPrefix : Bytes
  keyspace : ℤ
  objectSize : ℤ
  concurrency : ℤ
  region : Bytes
  flags : Flags
  bucketCount_pos : 0 < bucketCount
  keyspace_pos : 0 < keyspace
  objectSize_pos : 0 < objectSize
  concurrency_pos : 0 < concurrency

/-- The options that `main` settles on when only switches are given. -/
def seederOptions (flags : Flags) (env : Environ) : Except Bytes Options :=
  let endpoint := env "R2_ENDPOINT"
  let bucketCount := env.int "R2_BUCKET_COUNT" 25
  let keyspace := env.int "R2_KEYSPACE" 40000
  let objectSize := env.int "R2_OBJECT_SIZE" 1536
  let concurrency := env.int "SEEDER_CONCURRENCY" 256
  if endpoint = [] ∨ env "R2_ACCESS_KEY_ID" = [] ∨ env "R2_SECRET_ACCESS_KEY" = [] then
    .error (ascii ("R2_ENDPOINT (or -endpoint), R2_ACCESS_KEY_ID and R2_SECRET_ACCESS_KEY " ++
      "are required"))
  else if h : bucketCount ≤ 0 ∨ keyspace ≤ 0 ∨ objectSize ≤ 0 ∨ concurrency ≤ 0 then
    .error (ascii "-bucket-count, -keyspace, -object-size and -concurrency must all be > 0")
  else
    .ok
      { endpoint := trimSlashes endpoint
        bucketPrefix := env.string "R2_BUCKET_PREFIX" (ascii "r2bench-")
        bucketCount := bucketCount
        keyPrefix := env.string "R2_KEY_PREFIX" (ascii "obj/")
        keyspace := keyspace
        objectSize := objectSize
        concurrency := concurrency
        region := env.string "R2_REGION" (ascii "auto")
        flags := flags
        bucketCount_pos := by omega
        keyspace_pos := by omega
        objectSize_pos := by omega
        concurrency_pos := by omega }

namespace Options

def naming (o : Options) : Naming := ⟨o.bucketPrefix, o.bucketCount, o.keyPrefix, o.keyspace⟩

/-- The URL that `put` writes to. -/
def putURL (o : Options) (bucketIdx : ℕ) (key : Bytes) : Bytes :=
  objectURL o.endpoint (o.naming.bucketName bucketIdx) key

/-- The jobs of a run without `-repair`: every key of every bucket that is to be
seeded. -/
def plan (o : Options) (buckets : List ℕ) : List (ℕ × ℕ) :=
  buckets.flatMap fun b => (List.range o.keyspace.toNat).map fun k => (b, k)

/-- The plan when no bucket is skipped. -/
def fullPlan (o : Options) : List (ℕ × ℕ) := o.plan (List.range o.bucketCount.toNat)

theorem mem_plan {o : Options} {buckets : List ℕ} {b k : ℕ} :
    (b, k) ∈ o.plan buckets ↔ b ∈ buckets ∧ k < o.keyspace := by
  simp only [plan, List.mem_flatMap, List.mem_map, List.mem_range, Prod.mk.injEq]
  constructor
  · rintro ⟨_, hb, _, hk, rfl, rfl⟩
    exact ⟨hb, by omega⟩
  · rintro ⟨hb, hk⟩
    exact ⟨b, hb, k, by omega, rfl, rfl⟩

theorem mem_fullPlan {o : Options} {b k : ℕ} :
    (b, k) ∈ o.fullPlan ↔ b < o.bucketCount ∧ k < o.keyspace := by
  rw [fullPlan, mem_plan, List.mem_range]
  exact and_congr_left' (by omega)

end Options

/-! ## One environment for both -/

/-- The layout that an environment fixes. -/
def Environ.layout (env : Environ) : Naming :=
  ⟨env.string "R2_BUCKET_PREFIX" (ascii "r2bench-"), env.int "R2_BUCKET_COUNT" 25,
    env.string "R2_KEY_PREFIX" (ascii "obj/"), env.int "R2_KEYSPACE" 40000⟩

theorem loadConfig_layout {host : Host} {env : Environ} {c : Config}
    (h : loadConfig host env = .ok c) : c.endpoint = env "R2_ENDPOINT" ∧ c.naming = env.layout := by
  simp only [loadConfig] at h
  split_ifs at h
  injection h with h
  subst h
  exact ⟨rfl, rfl⟩

theorem seederOptions_layout {flags : Flags} {env : Environ} {o : Options}
    (h : seederOptions flags env = .ok o) :
    o.endpoint = trimSlashes (env "R2_ENDPOINT") ∧ o.naming = env.layout := by
  simp only [seederOptions] at h
  split_ifs at h
  injection h with h
  subst h
  exact ⟨rfl, rfl⟩

/-- Two programs with one layout cover the same index pairs. -/
theorem Config.draws_iff_mem_fullPlan {c : Config} {o : Options} (h : c.naming = o.naming)
    (bucket key : ℕ) : c.Draws bucket key ↔ (bucket, key) ∈ o.fullPlan := by
  have hcount : c.bucketCount = o.bucketCount := congrArg Naming.bucketCount h
  have hkeyspace : c.keyspace = o.keyspace := congrArg Naming.keyspace h
  rw [c.draws_iff, Options.mem_fullPlan, hcount, hkeyspace]

/-- What the agent fetches is what the seeder wrote, if and only if the endpoint
has no slash at its end: the seeder drops it and the agent keeps it. -/
theorem agent_reads_seeded_iff {host : Host} {flags : Flags} {env : Environ} {c : Config}
    {o : Options} (hagent : loadConfig host env = .ok c)
    (hseeder : seederOptions flags env = .ok o) :
    (∀ bucket key, c.Draws bucket key →
      c.fetchURL bucket key = o.putURL bucket (o.naming.objectKey key) ∧
        (bucket, key) ∈ o.fullPlan) ↔
      (env "R2_ENDPOINT").getLast? ≠ some '/'.toUInt8 := by
  obtain ⟨hendpoint, hnaming⟩ := loadConfig_layout hagent
  obtain ⟨htrimmed, hlayout⟩ := seederOptions_layout hseeder
  have hsame : c.naming = o.naming := hnaming.trans hlayout.symm
  have hurl : ∀ bucket key, c.fetchURL bucket key = o.putURL bucket (o.naming.objectKey key) ↔
      (env "R2_ENDPOINT").getLast? ≠ some '/'.toUInt8 := by
    intro bucket key
    simp only [Config.fetchURL, Options.putURL, objectURL, hendpoint, htrimmed, hsame,
      List.append_assoc]
    exact trimSlashes_append_inj _ _
  constructor
  · intro h
    have hfirst : c.Draws 0 0 := .worker c.bucketCount_pos c.keyspace_pos
    exact (hurl 0 0).mp (h 0 0 hfirst).1
  · intro h bucket key hdrawn
    exact ⟨(hurl bucket key).mpr h, (c.draws_iff_mem_fullPlan hsame bucket key).mp hdrawn⟩

/-- The variables that have no default, and nothing else. -/
def bareEnvironment (endpoint : Bytes) : Environ := fun key =>
  if key = "R2_ENDPOINT" then endpoint
  else if key = "CONTROL_PLANE_URL" then ascii "https://plane"
  else if key ∈ ["R2_ACCESS_KEY_ID", "R2_SECRET_ACCESS_KEY", "AGENT_TOKEN"] then ascii "x"
  else []

def plainHost : Host := ⟨ascii "agent", id, fun _ => .refl _⟩

def noSwitches : Flags := ⟨false, false, false⟩

theorem agent_reads_seeded_bare :
    ∃ c o, loadConfig plainHost (bareEnvironment (ascii "https://r2")) = .ok c ∧
      seederOptions noSwitches (bareEnvironment (ascii "https://r2")) = .ok o ∧
      ∀ bucket key, c.Draws bucket key →
        c.fetchURL bucket key = o.putURL bucket (o.naming.objectKey key) ∧
          (bucket, key) ∈ o.fullPlan := by
  obtain ⟨c, hc⟩ : ∃ c, loadConfig plainHost (bareEnvironment (ascii "https://r2")) = .ok c :=
    ⟨_, rfl⟩
  obtain ⟨o, ho⟩ : ∃ o, seederOptions noSwitches (bareEnvironment (ascii "https://r2")) = .ok o :=
    ⟨_, rfl⟩
  exact ⟨c, o, hc, ho, (agent_reads_seeded_iff hc ho).mpr (by decide)⟩

/-- One slash at the end of `R2_ENDPOINT`: the first object is written under
`https://r2/r2bench-00/` and looked for under `https://r2//r2bench-00/`. -/
theorem agent_misses_seeded : ¬ ∀ (host : Host) (flags : Flags) (env : Environ) (c : Config)
    (o : Options), loadConfig host env = .ok c → seederOptions flags env = .ok o →
      ∀ bucket key, c.Draws bucket key →
        c.fetchURL bucket key = o.putURL bucket (o.naming.objectKey key) ∧
          (bucket, key) ∈ o.fullPlan := by
  intro h
  have hurl := (h plainHost noSwitches (bareEnvironment (ascii "https://r2/")) _ _ rfl rfl 0 0
    (.worker (by decide) (by decide))).1
  revert hurl
  decide

end R2Bench
