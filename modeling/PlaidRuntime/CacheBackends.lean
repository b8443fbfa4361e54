import PlaidRuntime.BoundedMap
import PlaidRuntime.StepMachine

/-!
# The cache of a rule

Two backends keep the entries of each module (`cache/in_memory/mod.rs`, `cache/redis/mod.rs`
with its script `eviction.redis`). Both are run under a ghost that remembers what was put last
and what has been evicted since.
-/
namespace PlaidRuntime.CacheBackends
open BoundedMap StepMachine

inductive CacheError
  | cacheInitError (e : String)
  | noCacheConfigured
  | cacheAccessError (e : String)
  | putError (e : String)
  | getError (e : String)
  deriving DecidableEq, Repr

def CacheError.display : CacheError → String
  | .cacheInitError e => "Error while initializing cache: " ++ e
  | .noCacheConfigured => "No cache system configuration could be found"
  | .cacheAccessError e => "Could not access cache: " ++ e
  | .putError e => "Error while inserting into the cache: " ++ e
  | .getError e => "Error while getting from the cache: " ++ e

structure LimitedAmount where
  default : ℕ
  logType : AList fun _ : String => ℕ
  moduleOverrides : AList fun _ : String => ℕ

/-- The limit of a module: its override, else the amount of its log type, else the default. -/
def LimitedAmount.limit (c : LimitedAmount) (module logtype : String) : ℕ :=
  (c.moduleOverrides.lookup module).getD ((c.logType.lookup logtype).getD c.default)

structure LimitedAmount.Positive (c : LimitedAmount) : Prop where
  default : 0 < c.default
  logType : ∀ t n, c.logType.lookup t = some n → 0 < n
  moduleOverrides : ∀ m n, c.moduleOverrides.lookup m = some n → 0 < n

abbrev Content := Map String String

/-- The log types of the loaded modules. -/
abbrev Modules := AList fun _ : String => String

section inMemory

structure LruCache where
  capacity : ℕ
  content : Content

/-- One cache for each loaded module. -/
abbrev InMemoryCache := String → Option LruCache

def capacityOf (c : LimitedAmount) (module logtype : String) : ℕ :=
  let capacity := c.default
  let capacity := match c.logType.lookup logtype with
    | some v => v
    | none => capacity
  match c.moduleOverrides.lookup module with
  | some v => v
  | none => capacity

/-- A capacity of zero is refused by `NonZeroUsize` with a panic. -/
def InMemoryCache.new (modulesAndLogtypes : Modules) (c : LimitedAmount) : Option InMemoryCache :=
  if modulesAndLogtypes.entries.all fun e => capacityOf c e.1 e.2 ≠ 0 then
    some fun module => (modulesAndLogtypes.lookup module).map fun logtype =>
      ⟨capacityOf c module logtype, ∅⟩
  else none

def InMemoryCache.put (s : InMemoryCache) (ns key value : String) :
    Except CacheError (Option String) × InMemoryCache :=
  match s ns with
  | none => (.error (.cacheAccessError ("Cache not found for module " ++ ns)), s)
  | some c => (.ok (c.content.lookup key),
      Function.update s ns (some { c with content := putRecent c.capacity c.content key value }))

def InMemoryCache.get (s : InMemoryCache) (ns key : String) :
    Except CacheError (Option String) × InMemoryCache :=
  match s ns with
  | none => (.error (.cacheAccessError ("Cache not found for module " ++ ns)), s)
  | some c => (.ok (c.content.lookup key),
      Function.update s ns (some { c with content := touch c.content key }))

end inMemory

section redis

/-- A hash for each namespace. -/
abbrev Hashes := String → Content

inductive EvictionPolicy
  | noEviction
  | randomEviction
  deriving DecidableEq, Repr

structure RedisCache where
  evictionPolicy : EvictionPolicy
  maxCapacity : LimitedAmount

def maxEntries (c : LimitedAmount) (ns : String) : ℕ :=
  (c.moduleOverrides.lookup ns).getD c.default

/-- The script; `pick` is the field that `HRANDFIELD` returns. -/
def evictionScript (h : Content) (fld val : String) (max : ℕ) (pick : Option String) :
    Option (Option String × Content) :=
  (putEvicting max h pick fld val).map fun h' => (h.lookup fld, h')

def RedisCache.put (r : RedisCache) (s : Hashes) (ns key value : String) (pick : Option String) :
    Option (Except CacheError (Option String) × Hashes) :=
  match r.evictionPolicy with
  | .noEviction => some (.ok ((s ns).lookup key), Function.update s ns ((s ns).insert key value))
  | .randomEviction =>
    (evictionScript (s ns) key value (maxEntries r.maxCapacity ns) pick).map fun reply =>
      (.ok reply.1, Function.update s ns reply.2)

def RedisCache.get (s : Hashes) (ns key : String) : Except CacheError (Option String) :=
  .ok ((s ns).lookup key)

end redis

/-- What the runs of a backend are made of. -/
structure Backend where
  State : Type
  put : State → (ns key value : String) → (pick : Option String) →
    Option (Except CacheError (Option String) × State)
  get : State → (ns key : String) → Except CacheError (Option String) × State
  held : State → String → Content

def inMemory : Backend where
  State := InMemoryCache
  put s ns key value _ := some (s.put ns key value)
  get s ns key := s.get ns key
  held s ns := ((s ns).map LruCache.content).getD ∅

def redis (r : RedisCache) : Backend where
  State := Hashes
  put s ns key value pick := r.put s ns key value pick
  get s ns key := (RedisCache.get s ns key, s)
  held s ns := s ns

inductive Op
  | put (ns key value : String) (pick : Option String)
  | get (ns key : String)

def Op.module : Op → String
  | .put ns _ _ _ => ns
  | .get ns _ => ns

/-- The backend with a memory of the value put last under each key, and of what has been evicted
since then. -/
structure Tracked (b : Backend) where
  state : b.State
  last : String → String → Option String
  evicted : String → String → Bool

def Tracked.fresh (b : Backend) (s : b.State) : Tracked b := ⟨s, fun _ _ => none, fun _ _ => false⟩

section tracking
variable {b : Backend}

def Tracked.afterPut (t : Tracked b) (ns key value : String) (s' : b.State) : Tracked b where
  state := s'
  last := Function.update t.last ns (Function.update (t.last ns) key (some value))
  evicted := Function.update t.evicted ns fun k =>
    if k = key then false
    else t.evicted ns k ||
      (((b.held t.state ns).lookup k).isSome && ((b.held s' ns).lookup k).isNone)

def step (t : Tracked b) : Op → Option (Tracked b)
  | .put ns key value pick => (b.put t.state ns key value pick).map fun r =>
      t.afterPut ns key value r.2
  | .get ns key => some { t with state := (b.get t.state ns key).2 }

/-- No loaded module exceeds its limit. -/
def Within (b : Backend) (loaded : String → Prop) (limit : String → ℕ) (s : b.State) : Prop :=
  ∀ m, loaded m → size (b.held s m) ≤ limit m

/-- A put returns what was held before, a get what was put last unless that was evicted, and
every module stays within its limit. -/
def Faithful (loaded : String → Prop) (limit : String → ℕ) (t : Tracked b) : Op → Prop
  | .put ns key value pick => ∀ r s', b.put t.state ns key value pick = some (r, s') →
      r = .ok ((b.held t.state ns).lookup key) ∧ Within b loaded limit s'
  | .get ns key => ∀ r s', b.get t.state ns key = (r, s') →
      r = .ok (if t.evicted ns key then none else t.last ns key) ∧ Within b loaded limit s'

/-- What a backend owes: its operations read and write one content for each module, and the
invariant keeps the contents within the limits. -/
structure Serves (b : Backend) (Inv : b.State → Prop) (loaded : String → Prop) (limit : String → ℕ) :
    Prop where
  put : ∀ s ns key value pick r s', Inv s → loaded ns → b.put s ns key value pick = some (r, s') →
    r = .ok ((b.held s ns).lookup key) ∧ Written (b.held s ns) (b.held s' ns) key value ∧
    (∀ m, m ≠ ns → b.held s' m = b.held s m) ∧ Inv s'
  get : ∀ s ns key r s', Inv s → loaded ns → b.get s ns key = (r, s') →
    r = .ok ((b.held s ns).lookup key) ∧
    (∀ m k, (b.held s' m).lookup k = (b.held s m).lookup k) ∧ Inv s'
  within : ∀ s, Inv s → Within b loaded limit s

/-- The ghost explains the contents. -/
structure Explains (t : Tracked b) : Prop where
  held : ∀ m k, (b.held t.state m).lookup k = if t.evicted m k then none else t.last m k

theorem explains_afterPut {t : Tracked b} {ns key value : String} {s' : b.State} (h : Explains t)
    (hw : Written (b.held t.state ns) (b.held s' ns) key value)
    (hothers : ∀ m, m ≠ ns → b.held s' m = b.held t.state m) :
    Explains (t.afterPut ns key value s') := by
  constructor
  intro m k
  simp only [Tracked.afterPut]
  by_cases hm : m = ns
  · subst hm
    simp only [Function.update_self]
    by_cases hk : k = key
    · subst hk
      simp [hw.written]
    · simp only [hk, if_false, Function.update_of_ne hk]
      have hold := h.held m k
      rcases hw.others k hk with hsame | hgone
      · rw [hsame]
        cases hl : (b.held t.state m).lookup k with
        | none =>
          rw [hl] at hold
          simp only [Option.isSome_none, Bool.false_and, Bool.or_false]
          exact hold
        | some v =>
          rw [hl] at hold
          simp only [Option.isNone_some, Bool.and_false, Bool.or_false]
          exact hold
      · rw [hgone]
        cases hl : (b.held t.state m).lookup k with
        | none =>
          rw [hl] at hold
          simp only [Option.isSome_none, Bool.false_and, Bool.or_false]
          exact hold
        | some v => simp
  · simp only [Function.update_of_ne hm, hothers m hm]
    exact h.held m k

/-- A backend that does what it owes is faithful in every run of the loaded modules. -/
theorem Serves.along {Inv : b.State → Prop} {loaded : String → Prop} {limit : String → ℕ}
    (hb : Serves b Inv loaded limit) {t : Tracked b} (hi : Inv t.state) (he : Explains t)
    {ops : List Op} (hops : ∀ op ∈ ops, loaded op.module) :
    Along step (Faithful loaded limit) t ops := by
  induction ops generalizing t with
  | nil => trivial
  | cons op ops ih =>
    have hrest := fun op' h' => hops op' (List.mem_cons_of_mem op h')
    cases op with
    | put ns key value pick =>
      have hloaded : loaded ns := hops _ List.mem_cons_self
      constructor
      · intro r s' hput
        obtain ⟨hr, -, -, hi'⟩ := hb.put _ _ _ _ _ _ _ hi hloaded hput
        exact ⟨hr, hb.within s' hi'⟩
      · intro t' ht
        obtain ⟨⟨r, s'⟩, hput, rfl⟩ := Option.map_eq_some_iff.mp ht
        obtain ⟨-, hw, hothers, hi'⟩ := hb.put _ _ _ _ _ _ _ hi hloaded hput
        exact ih hi' (explains_afterPut he hw hothers) hrest
    | get ns key =>
      have hloaded : loaded ns := hops _ List.mem_cons_self
      constructor
      · intro r s' hget
        obtain ⟨hr, -, hi'⟩ := hb.get _ _ _ _ _ hi hloaded hget
        refine ⟨?_, hb.within s' hi'⟩
        rw [hr, he.held ns key]
      · intro t' ht
        cases ht
        obtain ⟨-, hsame, hi'⟩ := hb.get _ ns key _ _ hi hloaded rfl
        exact ih hi' ⟨fun m k => (hsame m k).trans (he.held m k)⟩ hrest

theorem explains_fresh {s : b.State} (h : ∀ m, b.held s m = ∅) : Explains (.fresh b s) := by
  constructor
  intro m k
  simp [Tracked.fresh, h m]

end tracking

section backends
variable {c : LimitedAmount} {ms : Modules}

def Loaded (ms : Modules) (m : String) : Prop := ∃ t, ms.lookup m = some t

/-- The limit of a loaded module. -/
def limitOf (c : LimitedAmount) (ms : Modules) (m : String) : ℕ :=
  c.limit m ((ms.lookup m).getD "")

theorem capacityOf_eq_limit (m t : String) : capacityOf c m t = c.limit m t := by
  unfold capacityOf LimitedAmount.limit
  cases c.moduleOverrides.lookup m <;> cases c.logType.lookup t <;> rfl

theorem limit_pos (hc : c.Positive) (m t : String) : 0 < c.limit m t := by
  unfold LimitedAmount.limit
  cases ho : c.moduleOverrides.lookup m with
  | some n => exact hc.moduleOverrides m n ho
  | none =>
    cases hl : c.logType.lookup t with
    | some n => exact hc.logType t n hl
    | none => exact hc.default

theorem maxEntries_pos (hc : c.Positive) (m : String) : 0 < maxEntries c m := by
  unfold maxEntries
  cases ho : c.moduleOverrides.lookup m with
  | some n => exact hc.moduleOverrides m n ho
  | none => exact hc.default

/-- Every loaded module has a cache of its capacity, and no other module has one. -/
structure Allotted (c : LimitedAmount) (ms : Modules) (s : InMemoryCache) : Prop where
  loaded : ∀ m t, ms.lookup m = some t →
    ∃ lru, s m = some lru ∧ lru.capacity = c.limit m t ∧ size lru.content ≤ c.limit m t

theorem inMemory_new (hc : c.Positive) : ∃ s, InMemoryCache.new ms c = some s ∧ Allotted c ms s ∧
    ∀ m, inMemory.held s m = ∅ := by
  have hpos : (ms.entries.all fun e => capacityOf c e.1 e.2 ≠ 0) = true := by
    rw [List.all_eq_true]
    intro e _
    have := limit_pos hc e.1 e.2
    rw [capacityOf_eq_limit]
    simp only [decide_eq_true_eq]
    omega
  refine ⟨_, if_pos hpos, ⟨?_⟩, ?_⟩
  · intro m t ht
    refine ⟨⟨capacityOf c m t, ∅⟩, by simp [ht], capacityOf_eq_limit m t, ?_⟩
    exact Nat.zero_le _
  · intro m
    cases hm : ms.lookup m <;> simp [inMemory, hm]

theorem Allotted.set {s : InMemoryCache} {ns t : String} {lru : LruCache} (h : Allotted c ms s)
    (ht : ms.lookup ns = some t) (hcap : lru.capacity = c.limit ns t)
    (hsize : size lru.content ≤ c.limit ns t) :
    Allotted c ms (Function.update s ns (some lru)) := by
  constructor
  intro m t' ht'
  by_cases hm : m = ns
  · subst hm
    rw [ht] at ht'
    cases ht'
    exact ⟨lru, Function.update_self _ _ _, hcap, hsize⟩
  · rw [Function.update_of_ne hm]
    exact h.loaded m t' ht'

theorem inMemory_held_set (s : InMemoryCache) (ns : String) (lru : LruCache) (m : String) :
    inMemory.held (Function.update s ns (some lru) : InMemoryCache) m =
      if m = ns then lru.content else inMemory.held s m := by
  by_cases hm : m = ns
  · subst hm
    simp [inMemory]
  · simp [inMemory, hm]

theorem inMemory_held {s : InMemoryCache} {ns : String} {lru : LruCache} (hs : s ns = some lru) :
    inMemory.held s ns = lru.content := by
  simp [inMemory, hs]

theorem inMemory_serves (hc : c.Positive) :
    Serves inMemory (Allotted c ms) (Loaded ms) (limitOf c ms) := by
  constructor
  case put =>
    rintro (s : InMemoryCache) ns key value pick r (s' : InMemoryCache) hi ⟨t, ht⟩ hput
    obtain ⟨lru, hs, hcap, hsize⟩ := hi.loaded ns t ht
    have hstep : s.put ns key value = (r, s') := Option.some.inj hput
    simp only [InMemoryCache.put, hs] at hstep
    cases hstep
    have hpos : 0 < lru.capacity := by
      rw [hcap]
      exact limit_pos hc ns t
    rw [inMemory_held hs]
    refine ⟨rfl, ?_, ?_, hi.set ht hcap ?_⟩
    · rw [inMemory_held_set, if_pos rfl]
      exact written_putRecent hpos _ _ _
    · intro m hm
      rw [inMemory_held_set, if_neg hm]
    · rw [← hcap]
      exact size_keepFirst_le _ _
  case get =>
    rintro (s : InMemoryCache) ns key r (s' : InMemoryCache) hi ⟨t, ht⟩ hget
    obtain ⟨lru, hs, hcap, hsize⟩ := hi.loaded ns t ht
    have hstep : s.get ns key = (r, s') := hget
    simp only [InMemoryCache.get, hs] at hstep
    cases hstep
    refine ⟨by rw [inMemory_held hs], ?_, hi.set ht hcap ?_⟩
    · intro m k
      rw [inMemory_held_set]
      split_ifs with hm
      · rw [hm, inMemory_held hs, lookup_touch]
      · rfl
    · rw [size_touch]
      exact hsize
  case within =>
    rintro (s : InMemoryCache) hi m ⟨t, ht⟩
    obtain ⟨lru, hs, -, hsize⟩ := hi.loaded m t ht
    rw [inMemory_held hs, limitOf, ht]
    exact hsize

/-- The cache under random eviction. -/
def evicting (c : LimitedAmount) : RedisCache := ⟨.randomEviction, c⟩

theorem redis_put {s s' : Hashes} {ns key value : String} {pick : Option String}
    {r : Except CacheError (Option String)}
    (h : (evicting c).put s ns key value pick = some (r, s')) :
    ∃ h', putEvicting (maxEntries c ns) (s ns) pick key value = some h' ∧
      r = .ok ((s ns).lookup key) ∧ s' = Function.update s ns h' := by
  simp only [RedisCache.put, evicting, evictionScript, Option.map_map, Option.map_eq_some_iff,
    Function.comp_apply, Prod.mk.injEq] at h
  obtain ⟨h', hput, hr, hs⟩ := h
  exact ⟨h', hput, hr.symm, hs.symm⟩

/-- Redis keeps every module within the number the script is given. -/
theorem redis_serves {loaded : String → Prop} {limit : String → ℕ} (hc : c.Positive)
    (hlimit : ∀ m, loaded m → maxEntries c m ≤ limit m) :
    Serves (redis (evicting c)) (fun s => ∀ m, size (s m) ≤ maxEntries c m) loaded limit := by
  constructor
  case put =>
    rintro (s : Hashes) ns key value pick r (s' : Hashes) hi _ hput
    obtain ⟨h', hh, rfl, rfl⟩ := redis_put hput
    refine ⟨rfl, ?_, fun m hm => Function.update_of_ne hm _ _, fun m => ?_⟩
    · simp only [redis, Function.update_self]
      exact written_putEvicting hh
    · by_cases hm : m = ns
      · subst hm
        rw [Function.update_self]
        exact size_putEvicting_le (maxEntries_pos hc m) (hi m) hh
      · rw [Function.update_of_ne hm]
        exact hi m
  case get =>
    intro s ns key r s' hi _ hget
    cases hget
    exact ⟨rfl, fun _ _ => rfl, hi⟩
  case within => exact fun s hi m hm => (hi m).trans (hlimit m hm)

/-- The operations of loaded modules. -/
def Calls (ms : Modules) (ops : List Op) : Prop := ∀ op ∈ ops, Loaded ms op.module

/-- In every run from empty caches the backend does what a bounded cache does. -/
def FaithfulFrom (b : Backend) (c : LimitedAmount) (ms : Modules) (s : b.State) : Prop :=
  ∀ ops, Calls ms ops → Along step (Faithful (Loaded ms) (limitOf c ms)) (.fresh b s) ops

/-- No loaded module without an override has a log type with an amount below the default. -/
def LogTypesNotBelowDefault (c : LimitedAmount) (ms : Modules) : Prop :=
  ∀ m t amount, ms.lookup m = some t → c.moduleOverrides.lookup m = none →
    c.logType.lookup t = some amount → c.default ≤ amount

theorem maxEntries_le (h : LogTypesNotBelowDefault c ms) {m : String} (hm : Loaded ms m) :
    maxEntries c m ≤ limitOf c ms m := by
  obtain ⟨t, ht⟩ := hm
  rw [limitOf, ht, Option.getD_some, maxEntries, LimitedAmount.limit]
  cases ho : c.moduleOverrides.lookup m with
  | some n => exact le_refl _
  | none =>
    cases hl : c.logType.lookup t with
    | none => exact le_refl _
    | some amount => exact h m t amount ht ho hl

def keyOf (i : ℕ) : String := String.ofList (List.replicate i 'k')

theorem keyOf_injective {i j : ℕ} (h : keyOf i = keyOf j) : i = j := by
  have hlist := congrArg (fun s : String => s.toList.length) h
  simpa [keyOf] using hlist

/-- Puts under `n` different keys. -/
def fill (m : String) (n : ℕ) : List Op := (List.range n).map fun i => .put m (keyOf i) "" none

theorem fill_calls {m : String} (hm : Loaded ms m) (n : ℕ) : Calls ms (fill m n) := by
  intro op hop
  obtain ⟨i, -, rfl⟩ := List.mem_map.mp hop
  exact hm

theorem fill_succ (m : String) (n : ℕ) : fill m (n + 1) = fill m n ++ [.put m (keyOf n) "" none] := by
  simp [fill, List.range_succ]

/-- As long as Redis sees no reason to evict, every new key is held. -/
theorem run_fill {m : String} {n : ℕ} (hn : n ≤ maxEntries c m) :
    ∃ t : Tracked (redis (evicting c)),
      run step (.fresh (redis (evicting c)) fun _ => ∅) (fill m n) = some t ∧
      size ((redis (evicting c)).held t.state m) = n ∧
      ∀ i, n ≤ i → keyOf i ∉ (redis (evicting c)).held t.state m := by
  induction n with
  | zero => exact ⟨_, rfl, rfl, fun i _ => AList.notMem_empty _⟩
  | succ n ih =>
    obtain ⟨t, ht, hsize, hfresh⟩ := ih (by omega)
    have hput : putEvicting (maxEntries c m) (t.state m) none (keyOf n) "" =
        some ((t.state m).insert (keyOf n) "") :=
      putEvicting_of_lt (lt_of_eq_of_lt hsize (by omega))
    have hstep : (redis (evicting c)).put t.state m (keyOf n) "" none =
        some (.ok ((t.state m).lookup (keyOf n)),
          (Function.update t.state m ((t.state m).insert (keyOf n) "") : Hashes)) := by
      simp [redis, RedisCache.put, evicting, evictionScript, hput]
    refine ⟨_, by rw [fill_succ, run_append, ht, Option.bind_some, run, step, hstep]; rfl, ?_, ?_⟩
    · simp only [Tracked.afterPut, redis, Function.update_self]
      exact (size_insert_of_notMem (hfresh n (le_refl n)) "").trans (congrArg (· + 1) hsize)
    · intro i hi
      simp only [Tracked.afterPut, redis, Function.update_self, AList.mem_insert, not_or]
      refine ⟨fun h => ?_, hfresh i (by omega)⟩
      have := keyOf_injective h
      omega

/-- With a log type below the default, a module can hold one entry more than it may. -/
theorem redis_exceeds {m t : String} {amount : ℕ} (ht : ms.lookup m = some t)
    (ho : c.moduleOverrides.lookup m = none) (hl : c.logType.lookup t = some amount)
    (hlt : amount < c.default) :
    ¬ FaithfulFrom (redis (evicting c)) c ms fun _ => ∅ := by
  intro h
  have hmax : maxEntries c m = c.default := by rw [maxEntries, ho, Option.getD_none]
  have hlimit : limitOf c ms m = amount := by
    rw [limitOf, ht, Option.getD_some, LimitedAmount.limit, ho, hl]
    rfl
  obtain ⟨t₁, hrun, -, -⟩ := @run_fill c m amount (by omega)
  obtain ⟨t₂, hrun', hsize, -⟩ := @run_fill c m (amount + 1) (by omega)
  have halong := h _ (fill_calls ⟨t, ht⟩ (amount + 1))
  rw [fill_succ] at halong hrun'
  rw [run_append, hrun, Option.bind_some] at hrun'
  obtain ⟨t₃, hstep, hdone⟩ := Option.bind_eq_some_iff.mp hrun'
  cases hdone
  obtain ⟨⟨r, s'⟩, hput, rfl⟩ := Option.map_eq_some_iff.mp hstep
  have hover := (halong.next hrun r s' hput).2 m ⟨t, ht⟩
  rw [hlimit] at hover
  have hheld : size ((redis (evicting c)).held s' m) = amount + 1 := hsize
  omega

/-- For every configuration and every assignment of log types the in-memory cache is a cache
within the limits; the one in Redis is, if and only if no log type that counts lies below the
default. -/
theorem cache_limits_iff (hc : c.Positive) (ms : Modules) :
    (∃ s, InMemoryCache.new ms c = some s ∧ FaithfulFrom inMemory c ms s) ∧
    (FaithfulFrom (redis (evicting c)) c ms (fun _ => ∅) ↔ LogTypesNotBelowDefault c ms) := by
  constructor
  · obtain ⟨s, hs, hi, hempty⟩ := @inMemory_new c ms hc
    exact ⟨s, hs, fun ops hops => (inMemory_serves hc).along hi (explains_fresh hempty) hops⟩
  · constructor
    · intro h m t amount ht ho hl
      by_contra hlt
      exact redis_exceeds ht ho hl (Nat.lt_of_not_le hlt) h
    · intro h ops hops
      have hserves := @redis_serves c (Loaded ms) (limitOf c ms) hc fun m hm => maxEntries_le h hm
      exact hserves.along (fun m => Nat.zero_le _) (explains_fresh fun _ => rfl) hops

end backends

section instances

/-- Two entries by default and `amount` for the log type "audit". -/
def auditLimit (amount : ℕ) : LimitedAmount where
  default := 2
  logType := AList.singleton "audit" amount
  moduleOverrides := ∅

def auditModules : Modules := AList.singleton "audit.wasm" "audit"

theorem auditLimit_positive {amount : ℕ} (h : 0 < amount) : (auditLimit amount).Positive := by
  refine ⟨Nat.two_pos, fun t n hl => ?_, fun m n hl => by cases hl⟩
  have hmem : t ∈ (auditLimit amount).logType := AList.lookup_isSome.mp (by rw [hl]; rfl)
  obtain rfl : t = "audit" := by simpa [auditLimit, AList.mem_keys] using hmem
  have hn : some amount = some n := hl
  cases hn
  exact h

/-- The log type allows one entry, and Redis holds two. -/
theorem redis_ignores_log_type :
    (auditLimit 1).Positive ∧ limitOf (auditLimit 1) auditModules "audit.wasm" = 1 ∧
    ¬ FaithfulFrom (redis (evicting (auditLimit 1))) (auditLimit 1) auditModules fun _ => ∅ :=
  ⟨auditLimit_positive (by decide), rfl,
    @redis_exceeds (auditLimit 1) auditModules "audit.wasm" "audit" 1 rfl rfl rfl (by decide)⟩

/-- A log type that allows more than the default does no harm. -/
theorem generous_log_type_faithful :
    FaithfulFrom (redis (evicting (auditLimit 3))) (auditLimit 3) auditModules fun _ => ∅ := by
  refine (cache_limits_iff (auditLimit_positive (by decide)) auditModules).2.mpr ?_
  intro m t amount ht _ hl
  have hmem : t ∈ (auditLimit 3).logType := AList.lookup_isSome.mp (by rw [hl]; rfl)
  obtain rfl : t = "audit" := by simpa [auditLimit, AList.mem_keys] using hmem
  have hn : some 3 = some amount := hl
  cases hn
  decide

end instances
end PlaidRuntime.CacheBackends
