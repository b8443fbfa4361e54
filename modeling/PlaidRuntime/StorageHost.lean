import PlaidRuntime.StorageProvider

/-!
# Storage host functions

The functions a rule calls to reach the storage (`functions/storage.rs`), as programs over
the backend calls and over the counters of used bytes. A counter is an
`Arc<RwLock<u64>>`; `Loc` names these locations.
-/
namespace PlaidRuntime.StorageHost
open EffectProgram MachineWord GuestMemory StorageProvider

inductive LimitValue
  | unlimited
  | limited (value : ℕ)
  deriving DecidableEq, Repr

variable {Loc T : Type}

structure PlaidModule (Loc : Type) where
  name : String
  pageLimit : UInt32
  storageCurrent : Loc
  storageLimit : LimitValue

structure SharedDbConfig where
  sizeLimit : LimitValue
  r : List String
  rw : List String

structure SharedDb (Loc : Type) where
  config : SharedDbConfig
  usedStorage : Loc

/-- The database itself is part of the shared state, see `HostState`. -/
structure Storage (Loc : Type) where
  sharedDbs : Option (AList fun _ : String => SharedDb Loc)

structure Env (Loc : Type) where
  module : PlaidModule Loc
  storage : Option (Storage Loc)
  memory : Option MemoryView

inductive HostRequest (Loc : Type)
  | backend (b : BackendRequest)
  | lock (counter : Loc)
  | unlock (counter : Loc)
  | readCounter (counter : Loc)
  | writeCounter (counter : Loc) (value : ℕ)
  | subU64 (a b : ℕ)
  | fetchPage (ns : String) (first : Option String)
  | populate (counter : Loc) (bytes : ℕ)

/-- Taking a lock answers `false` when it is poisoned. -/
abbrev HostReply : HostRequest Loc → Type
  | .backend b => BackendReply b
  | .lock _ => Bool
  | .unlock _ => Unit
  | .readCounter _ => ℕ
  | .writeCounter _ _ => Unit
  | .subU64 _ _ => ℕ
  | .fetchPage _ _ => Except StorageError (Listing × Option String)
  | .populate _ _ => Unit

abbrev HostProg (Loc : Type) := Prog (HostRequest Loc) HostReply

structure HostState (Loc T : Type) where
  store : Store
  counter : Loc → ℕ
  holder : Loc → Option T
  poisoned : Loc → Bool

/-- Locks block until they are free; everything but an exchange with the backend has one outcome.
Until the load has returned nobody else reaches a counter, so that populating it never waits. -/
def hostReply [DecidableEq Loc] (t : T) (s : HostState Loc T) :
    (e : HostRequest Loc) → Outcome → Option (HostReply e × HostState Loc T)
  | .backend b, o => (backendReply s.store b o).map fun r => (r.1, { s with store := r.2 })
  | .lock c, .ok =>
    if s.poisoned c then some (false, s)
    else match s.holder c with
      | none => some (true, { s with holder := Function.update s.holder c (some t) })
      | some _ => none
  | .unlock c, .ok => some ((), { s with holder := Function.update s.holder c none })
  | .readCounter c, .ok => some (s.counter c, s)
  | .writeCounter c v, .ok => some ((), { s with counter := Function.update s.counter c v })
  | .subU64 a b, .ok => some (MachineWord.subU64 a b, s)
  | .fetchPage ns first, .okPage items last =>
    if isPage (s.store ns) first items last then some (.ok (items, last), s) else none
  | .fetchPage _ _, .fails e => some (.error e, s)
  | .populate c bytes, .ok => some ((), { s with counter := Function.update s.counter c bytes })
  | _, _ => none

def fetchPage (ns : String) (first : Option String) :
    HostProg Loc (Except StorageError (Listing × Option String)) :=
  .perform (HostRequest.fetchPage ns first)

def populate (counter : Loc) (bytes : ℕ) : HostProg Loc Unit :=
  .perform (HostRequest.populate counter bytes)

/-- The loop of `fetch_all` over the pages of a namespace, which may run out of `requests`. A
backend that does not cut its listings answers with one page. -/
def fetchAll (ns : String) : (requests : ℕ) → Option String → Listing →
    HostProg Loc (Option (Except StorageError Listing))
  | 0, _, _ => return none
  | requests + 1, first, output => do
    match ← fetchPage ns first with
    | .error e => return some (.error e)
    | .ok (items, none) => return some (.ok (output ++ items))
    | .ok (items, some last) => fetchAll ns requests (some last) (output ++ items)

/-- What `populate_storage_sizes` does with the listing. -/
def storeSize (counter : Loc) :
    Option (Except StorageError Listing) → HostProg Loc (Option (Except StorageError Unit))
  | none => return none
  | some (.error e) => return some (.error e)
  | some (.ok all) => do
    populate counter (getNamespaceByteSize all)
    return some (.ok ())

/-- `populate_storage_sizes` for one module; a failing lookup drops the module. -/
def populateStorageSize (ns : String) (counter : Loc) (requests : ℕ) :
    HostProg Loc (Option (Except StorageError Unit)) := do
  let all ← fetchAll ns requests none []
  storeSize counter all

def storageInsert (ns key : String) (value : Bytes) :
    HostProg Loc (Except StorageError (Option Bytes)) :=
  .perform (HostRequest.backend (.insert ns key value))

def storageGet (ns key : String) : HostProg Loc (Except StorageError (Option Bytes)) :=
  .perform (HostRequest.backend (.get ns key))

def storageDelete (ns key : String) : HostProg Loc (Except StorageError (Option Bytes)) :=
  .perform (HostRequest.backend (.delete ns key))

def storageListKeys (ns : String) (keyPrefix : Option String) :
    HostProg Loc (Except StorageError (List String)) :=
  .perform (HostRequest.backend (.listKeys ns keyPrefix))

def lock (c : Loc) : HostProg Loc Bool := .perform (HostRequest.lock c)
def unlock (c : Loc) : HostProg Loc Unit := .perform (HostRequest.unlock c)
def readCounter (c : Loc) : HostProg Loc ℕ := .perform (HostRequest.readCounter c)
def writeCounter (c : Loc) (v : ℕ) : HostProg Loc Unit := .perform (HostRequest.writeCounter c v)
def checkedSub (a b : ℕ) : HostProg Loc ℕ := .perform (HostRequest.subU64 a b)

/-- The previous value goes back to the guest, an absent one as length zero. -/
def previousValue (m : MemoryView) (buffer len : UInt32)
    (result : Except StorageError (Option Bytes)) : HostResult :=
  match result with
  | .ok (some data) => writeBack m data buffer len
  | .ok none => ⟨.ok 0, some m⟩
  | .error _ => fail .internalApiError (some m)

/-- Once the storage has answered, only the way back into the guest can fail. -/
theorem previousValue_ok_ret {m : MemoryView} {buffer len : UInt32} {data : Option Bytes}
    {e : FunctionErrors} (h : (previousValue m buffer len (.ok data)).ret = .error e) :
    e = .returnBufferTooSmall ∨ e = .couldNotGetAdequateMemory := by
  cases data with
  | none => cases h
  | some d => exact writeBack_ret_ne m d buffer len h

/-- Bytes that an insert under `key` would replace. -/
def existingDataSize (key : String) (data : Option Bytes) : ℕ :=
  match data with
  | none => 0
  | some d => addU64 d.length key.utf8ByteSize

def insertCommon (ns key : String) (value : Bytes) (m : MemoryView) (buffer len : UInt32)
    (storageLimit : LimitValue) (counter : Loc) : HostProg Loc HostResult :=
  match storageLimit with
  | .unlimited => do
    let result ← storageInsert ns key value
    return previousValue m buffer len result
  | .limited limit => do
    if ← lock counter then
      match ← storageGet ns key with
      | .error _ =>
        unlock counter
        return fail .internalApiError (some m)
      | .ok data =>
        let current ← readCounter counter
        let wouldBeUsedStorage ← checkedSub
          (addU64 (addU64 current key.utf8ByteSize) value.length) (existingDataSize key data)
        if limit < wouldBeUsedStorage then
          unlock counter
          return fail .storageLimitReached (some m)
        else
          match ← storageInsert ns key value with
          | .ok previous =>
            writeCounter counter wouldBeUsedStorage
            unlock counter
            return previousValue m buffer len (.ok previous)
          | .error e =>
            unlock counter
            return previousValue m buffer len (.error e)
    else return fail .internalApiError (some m)

def getCommon (ns key : String) (m : MemoryView) (buffer len : UInt32) :
    HostProg Loc HostResult := do
  let result ← storageGet ns key
  return previousValue m buffer len result

/-- `keysToJson` is `serde_json::to_string` on the listed keys. -/
def listKeysCommon (keysToJson : List String → Option String) (ns keyPrefix : String)
    (m : MemoryView) (buffer len : UInt32) : HostProg Loc HostResult := do
  match ← storageListKeys ns (some keyPrefix) with
  | .ok keys =>
    match keysToJson keys with
    | some json => return writeBack m json.toUTF8.toList buffer len
    | none => return fail .errorCouldNotSerialize (some m)
  | .error _ => return fail .internalApiError (some m)

/-- A call with an empty buffer only asks for the size and deletes nothing. -/
def deleteCommon (ns key : String) (m : MemoryView) (buffer len : UInt32)
    (storageLimit : LimitValue) (counter : Loc) : HostProg Loc HostResult :=
  if len = 0 then do
    let result ← storageGet ns key
    return previousValue m buffer len result
  else match storageLimit with
    | .unlimited => do
      let result ← storageDelete ns key
      return previousValue m buffer len result
    | .limited _ => do
      if ← lock counter then
        match ← storageDelete ns key with
        | .ok (some data) =>
          let current ← readCounter counter
          let withoutKey ← checkedSub current key.utf8ByteSize
          let used ← checkedSub withoutKey data.length
          writeCounter counter used
          unlock counter
          return previousValue m buffer len (.ok (some data))
        | result =>
          unlock counter
          return previousValue m buffer len result
      else return fail .internalApiError (some m)

/-- Guest arguments that do not decode end every storage call alike. -/
def withString (env : Env Loc) (m : MemoryView) (buffer len : UInt32)
    (k : String → HostProg Loc HostResult) : HostProg Loc HostResult :=
  match safelyGetString m buffer len with
  | .ok s => k s
  | .error _ => return fail .parametersNotUtf8 env.memory

def withMemory (env : Env Loc) (m : MemoryView) (buffer len : UInt32)
    (k : Bytes → HostProg Loc HostResult) : HostProg Loc HostResult :=
  match safelyGetMemory m buffer len (calculateMaxBufferSize env.module.pageLimit) with
  | .ok b => k b
  | .error _ => return fail .parametersNotUtf8 env.memory

/-- The prologue of the functions on a rule's own namespace. -/
def privateCall (env : Env Loc) (k : MemoryView → HostProg Loc HostResult) :
    HostProg Loc HostResult :=
  match env.storage with
  | none => return fail .apiNotConfigured env.memory
  | some _ =>
    match env.memory with
    | none => return fail .couldNotGetAdequateMemory env.memory
    | some m => k m

/-- The prologue of the functions on shared databases. -/
def sharedCall (env : Env Loc)
    (k : (AList fun _ : String => SharedDb Loc) → MemoryView → HostProg Loc HostResult) :
    HostProg Loc HostResult :=
  match env.storage with
  | none => return fail .apiNotConfigured env.memory
  | some storage =>
    match storage.sharedDbs with
    | none => return fail .operationNotAllowed env.memory
    | some sharedDbs =>
      match env.memory with
      | none => return fail .couldNotGetAdequateMemory env.memory
      | some m => k sharedDbs m

def canWrite (env : Env Loc) (db : SharedDb Loc) : Bool := db.config.rw.contains env.module.name

def canRead (env : Env Loc) (db : SharedDb Loc) : Bool :=
  db.config.r.contains env.module.name || db.config.rw.contains env.module.name

/-- Go on with the shared database when the rule may use it. -/
def withDb (env : Env Loc) (sharedDbs : AList fun _ : String => SharedDb Loc) (ns : String)
    (permitted : SharedDb Loc → Bool) (k : SharedDb Loc → HostProg Loc HostResult) :
    HostProg Loc HostResult :=
  match sharedDbs.lookup ns with
  | none => return fail .operationNotAllowed env.memory
  | some db => if permitted db then k db else return fail .operationNotAllowed env.memory

section accepted
variable {module : PlaidModule Loc} {storage : Storage Loc} {env : Env Loc} {m : MemoryView}
  {buffer len : UInt32} {dbs : AList fun _ : String => SharedDb Loc}

theorem privateCall_some {k : MemoryView → HostProg Loc HostResult} :
    privateCall ⟨module, some storage, some m⟩ k = k m :=
  rfl

theorem sharedCall_some
    {k : (AList fun _ : String => SharedDb Loc) → MemoryView → HostProg Loc HostResult}
    (h : storage.sharedDbs = some dbs) :
    sharedCall ⟨module, some storage, some m⟩ k = k dbs m := by
  simp only [sharedCall, h]

theorem withString_ok {k : String → HostProg Loc HostResult} {s : String}
    (h : safelyGetString m buffer len = .ok s) : withString env m buffer len k = k s := by
  rw [withString, h]

theorem withMemory_ok (env : Env Loc) {k : Bytes → HostProg Loc HostResult} {b : Bytes}
    (h : safelyGetMemory m buffer len (calculateMaxBufferSize env.module.pageLimit) = .ok b) :
    withMemory env m buffer len k = k b := by
  rw [withMemory, h]

theorem withMemory_cases (env : Env Loc) (k : Bytes → HostProg Loc HostResult) :
    (∃ b, safelyGetMemory m buffer len (calculateMaxBufferSize env.module.pageLimit) = .ok b ∧
      withMemory env m buffer len k = k b) ∨
    withMemory env m buffer len k = .done (fail .parametersNotUtf8 env.memory) := by
  cases h : safelyGetMemory m buffer len (calculateMaxBufferSize env.module.pageLimit) with
  | ok b => exact .inl ⟨b, rfl, withMemory_ok env h⟩
  | error e =>
    right
    rw [withMemory, h]
    rfl

variable {ns : String} {permitted : SharedDb Loc → Bool} {k : SharedDb Loc → HostProg Loc HostResult}

theorem withDb_permitted {db : SharedDb Loc} (h : dbs.lookup ns = some db)
    (hp : permitted db = true) : withDb env dbs ns permitted k = k db := by
  simp only [withDb, h]
  rw [if_pos hp]

theorem withDb_refused (h : ∀ db, dbs.lookup ns = some db → permitted db = false) :
    withDb env dbs ns permitted k = .done (fail .operationNotAllowed env.memory) := by
  rw [withDb]
  cases hlookup : dbs.lookup ns with
  | none => rfl
  | some db => exact if_neg (by simp [h db hlookup])

end accepted

def insert (env : Env Loc) (keyBuf keyLen valueBuf valueLen dataBuf dataLen : UInt32) :
    HostProg Loc HostResult :=
  privateCall env fun m =>
  withString env m keyBuf keyLen fun key =>
  withMemory env m valueBuf valueLen fun value =>
  insertCommon env.module.name key value m dataBuf dataLen env.module.storageLimit
    env.module.storageCurrent

def insertShared (env : Env Loc)
    (nsBuf nsLen keyBuf keyLen valueBuf valueLen dataBuf dataLen : UInt32) :
    HostProg Loc HostResult :=
  sharedCall env fun sharedDbs m =>
  withString env m nsBuf nsLen fun ns =>
  withDb env sharedDbs ns (canWrite env) fun db =>
  withString env m keyBuf keyLen fun key =>
  withMemory env m valueBuf valueLen fun value =>
  insertCommon ns key value m dataBuf dataLen db.config.sizeLimit db.usedStorage

def get (env : Env Loc) (keyBuf keyLen dataBuf dataLen : UInt32) : HostProg Loc HostResult :=
  privateCall env fun m =>
  withString env m keyBuf keyLen fun key =>
  getCommon env.module.name key m dataBuf dataLen

def getShared (env : Env Loc) (nsBuf nsLen keyBuf keyLen dataBuf dataLen : UInt32) :
    HostProg Loc HostResult :=
  sharedCall env fun sharedDbs m =>
  withString env m nsBuf nsLen fun ns =>
  withDb env sharedDbs ns (canRead env) fun _ =>
  withString env m keyBuf keyLen fun key =>
  getCommon ns key m dataBuf dataLen

def listKeys (keysToJson : List String → Option String) (env : Env Loc)
    (prefixBuf prefixLen dataBuf dataLen : UInt32) : HostProg Loc HostResult :=
  privateCall env fun m =>
  withString env m prefixBuf prefixLen fun keyPrefix =>
  listKeysCommon keysToJson env.module.name keyPrefix m dataBuf dataLen

def listKeysShared (keysToJson : List String → Option String) (env : Env Loc)
    (nsBuf nsLen prefixBuf prefixLen dataBuf dataLen : UInt32) : HostProg Loc HostResult :=
  sharedCall env fun sharedDbs m =>
  withString env m nsBuf nsLen fun ns =>
  withDb env sharedDbs ns (canRead env) fun _ =>
  withString env m prefixBuf prefixLen fun keyPrefix =>
  listKeysCommon keysToJson ns keyPrefix m dataBuf dataLen

def delete (env : Env Loc) (keyBuf keyLen dataBuf dataLen : UInt32) : HostProg Loc HostResult :=
  privateCall env fun m =>
  withString env m keyBuf keyLen fun key =>
  deleteCommon env.module.name key m dataBuf dataLen env.module.storageLimit
    env.module.storageCurrent

/-- Unlike the other shared functions this one decodes the key before it checks the
permission. -/
def deleteShared (env : Env Loc) (nsBuf nsLen keyBuf keyLen dataBuf dataLen : UInt32) :
    HostProg Loc HostResult :=
  sharedCall env fun sharedDbs m =>
  withString env m nsBuf nsLen fun ns =>
  withString env m keyBuf keyLen fun key =>
  withDb env sharedDbs ns (canWrite env) fun db =>
  deleteCommon ns key m dataBuf dataLen db.config.sizeLimit db.usedStorage

/-- Requests that look at the namespaces of `look`, change those of `change` and use only the
counters that meter the latter. -/
def Confined (look change : String → Prop) (meters : String → Loc → Prop) : HostRequest Loc → Prop
  | .backend (.insert n _ _) => change n
  | .backend (.delete n _) => change n
  | .backend (.get n _) => look n
  | .backend (.listKeys n _) => look n
  | .backend (.fetchAll n _) => look n
  | .lock c => ∃ n, change n ∧ meters n c
  | .unlock c => ∃ n, change n ∧ meters n c
  | .readCounter c => ∃ n, change n ∧ meters n c
  | .writeCounter c _ => ∃ n, change n ∧ meters n c
  | .subU64 _ _ => True
  | .fetchPage _ _ => False
  | .populate _ _ => False

section confined
variable {look change : String → Prop} {meters : String → Loc → Prop} {ns key : String} {loc : Loc}
  {m : MemoryView} {buffer len : UInt32} {limit : LimitValue}

theorem insertCommon_confined {value : Bytes} (hl : look ns) (hc : change ns)
    (hm : meters ns loc) : (insertCommon ns key value m buffer len limit loc).Uses
      (Confined look change meters) := by
  cases limit with
  | unlimited => exact ⟨hc, fun _ => trivial⟩
  | limited L =>
    have hloc : ∃ n, change n ∧ meters n loc := ⟨ns, hc, hm⟩
    refine ⟨hloc, fun locked => ?_⟩
    cases locked with
    | false => trivial
    | true =>
      refine ⟨hl, fun existing => ?_⟩
      cases existing with
      | error e => exact ⟨hloc, fun _ => trivial⟩
      | ok data =>
        refine ⟨hloc, fun current => ⟨trivial, fun would => ?_⟩⟩
        simp only [Prog.bind]
        split
        · exact ⟨hloc, fun _ => trivial⟩
        · refine ⟨hc, fun result => ?_⟩
          cases result with
          | error e => exact ⟨hloc, fun _ => trivial⟩
          | ok previous => exact ⟨hloc, fun _ => ⟨hloc, fun _ => trivial⟩⟩

theorem deleteCommon_confined (hl : look ns) (hc : change ns) (hm : meters ns loc) :
    (deleteCommon ns key m buffer len limit loc).Uses (Confined look change meters) := by
  have hloc : ∃ n, change n ∧ meters n loc := ⟨ns, hc, hm⟩
  unfold deleteCommon
  split
  · exact ⟨hl, fun _ => trivial⟩
  cases limit with
  | unlimited => exact ⟨hc, fun _ => trivial⟩
  | limited L =>
    refine ⟨hloc, fun locked => ?_⟩
    cases locked with
    | false => trivial
    | true =>
      refine ⟨hc, fun result => ?_⟩
      match result with
      | .error e => exact ⟨hloc, fun _ => trivial⟩
      | .ok none => exact ⟨hloc, fun _ => trivial⟩
      | .ok (some data) =>
        exact ⟨hloc, fun _ => ⟨trivial, fun _ => ⟨trivial, fun _ => ⟨hloc, fun _ =>
          ⟨hloc, fun _ => trivial⟩⟩⟩⟩⟩

theorem getCommon_confined (hl : look ns) :
    (getCommon ns key m buffer len).Uses (Confined look change meters) :=
  ⟨hl, fun _ => trivial⟩

theorem listKeysCommon_confined {keysToJson : List String → Option String} {keyPrefix : String}
    (hl : look ns) : (listKeysCommon keysToJson ns keyPrefix m buffer len).Uses
      (Confined look change meters) := by
  refine ⟨hl, fun r => ?_⟩
  cases r with
  | error e => trivial
  | ok keys =>
    simp only [Prog.bind]
    split <;> trivial

end confined

-- The prologues issue no request of their own.
section prologue
variable {P : HostRequest Loc → Prop} {env : Env Loc} {m : MemoryView} {buffer len : UInt32}

theorem privateCall_uses {k : MemoryView → HostProg Loc HostResult} (h : ∀ m, (k m).Uses P) :
    (privateCall env k).Uses P := by
  unfold privateCall
  split
  · trivial
  · split
    · trivial
    · exact h _

theorem sharedCall_uses
    {k : (AList fun _ : String => SharedDb Loc) → MemoryView → HostProg Loc HostResult}
    (h : ∀ st dbs m, env.storage = some st → st.sharedDbs = some dbs → (k dbs m).Uses P) :
    (sharedCall env k).Uses P := by
  unfold sharedCall
  split
  · trivial
  · split
    · trivial
    · split
      · trivial
      · exact h _ _ _ ‹_› ‹_›

theorem withString_uses {k : String → HostProg Loc HostResult} (h : ∀ s, (k s).Uses P) :
    (withString env m buffer len k).Uses P := by
  unfold withString
  split
  · exact h _
  · trivial

theorem withMemory_uses {k : Bytes → HostProg Loc HostResult} (h : ∀ b, (k b).Uses P) :
    (withMemory env m buffer len k).Uses P := by
  obtain ⟨b, -, heq⟩ | heq := withMemory_cases env k
  · rw [heq]
    exact h b
  · rw [heq]
    trivial

theorem withDb_uses {dbs : AList fun _ : String => SharedDb Loc} {ns : String}
    {permitted : SharedDb Loc → Bool} {k : SharedDb Loc → HostProg Loc HostResult}
    (h : ∀ db, dbs.lookup ns = some db → permitted db = true → (k db).Uses P) :
    (withDb env dbs ns permitted k).Uses P := by
  unfold withDb
  split
  · trivial
  · split
    · exact h _ ‹_› ‹_›
    · trivial

end prologue
end PlaidRuntime.StorageHost
