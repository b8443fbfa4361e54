import PlaidRuntime.StorageHost

/-!
# A running instance and the storage calls of its rules

An instance has its loaded modules and its shared databases, each with a counter of its
own. Module names end in `.wasm` and names of shared databases do not, so a namespace
belongs to at most one of the two kinds (`loader/utils.rs`, `storage/mod.rs`).
-/
namespace PlaidRuntime.StorageInstance
open EffectProgram MachineWord GuestMemory StorageProvider StorageHost

def isWasm (name : String) : Bool := ".wasm".toList.isSuffixOf name.toList

inductive CounterName
  | module (name : String)
  | sharedDb (name : String)
  deriving DecidableEq, Repr

/-- The loader allocates one counter for each module, `init_shared_db` one for each shared
database. -/
structure Instance (Loc : Type) where
  modules : AList fun _ : String => PlaidModule Loc
  storage : Option (Storage Loc)
  counterOf : CounterName → Loc
  counterOf_injective : Function.Injective counterOf
  module_wasm : ∀ name ∈ modules, isWasm name = true
  module_named : ∀ name m, modules.lookup name = some m →
    m.name = name ∧ m.storageCurrent = counterOf (.module name)
  db_not_wasm : ∀ st dbs, storage = some st → st.sharedDbs = some dbs →
    ∀ name ∈ dbs, isWasm name = false
  db_counter : ∀ st dbs, storage = some st → st.sharedDbs = some dbs →
    ∀ name db, dbs.lookup name = some db → db.usedStorage = counterOf (.sharedDb name)

inductive HostFunction
  | insert (keyBuf keyLen valueBuf valueLen dataBuf dataLen : UInt32)
  | insertShared (nsBuf nsLen keyBuf keyLen valueBuf valueLen dataBuf dataLen : UInt32)
  | get (keyBuf keyLen dataBuf dataLen : UInt32)
  | getShared (nsBuf nsLen keyBuf keyLen dataBuf dataLen : UInt32)
  | listKeys (prefixBuf prefixLen dataBuf dataLen : UInt32)
  | listKeysShared (nsBuf nsLen prefixBuf prefixLen dataBuf dataLen : UInt32)
  | delete (keyBuf keyLen dataBuf dataLen : UInt32)
  | deleteShared (nsBuf nsLen keyBuf keyLen dataBuf dataLen : UInt32)
  deriving DecidableEq

variable {Loc : Type}

/-- A storage call made by a loaded module with the given guest memory. -/
structure HostCall (inst : Instance Loc) where
  module : PlaidModule Loc
  loaded : inst.modules.lookup module.name = some module
  memory : Option MemoryView
  function : HostFunction

namespace HostCall
variable {inst : Instance Loc}

def env (c : HostCall inst) : Env Loc := ⟨c.module, inst.storage, c.memory⟩

def code (keysToJson : List String → Option String) (c : HostCall inst) : HostProg Loc HostResult :=
  match c.function with
  | .insert kb kl vb vl db dl => StorageHost.insert c.env kb kl vb vl db dl
  | .insertShared nb nl kb kl vb vl db dl => insertShared c.env nb nl kb kl vb vl db dl
  | .get kb kl db dl => StorageHost.get c.env kb kl db dl
  | .getShared nb nl kb kl db dl => getShared c.env nb nl kb kl db dl
  | .listKeys pb pl db dl => listKeys keysToJson c.env pb pl db dl
  | .listKeysShared nb nl pb pl db dl => listKeysShared keysToJson c.env nb nl pb pl db dl
  | .delete kb kl db dl => delete c.env kb kl db dl
  | .deleteShared nb nl kb kl db dl => deleteShared c.env nb nl kb kl db dl

def guestString (c : HostCall inst) (buffer len : UInt32) : Option String :=
  c.memory.bind fun m => (safelyGetString m buffer len).toOption

def guestBytes (c : HostCall inst) (buffer len : UInt32) : Option Bytes :=
  c.memory.bind fun m =>
    (safelyGetMemory m buffer len (calculateMaxBufferSize c.module.pageLimit)).toOption

/-- The namespace an inserting or deleting call is about. -/
def target (c : HostCall inst) : Option String :=
  match c.function with
  | .insert _ _ _ _ _ _ => some c.module.name
  | .delete _ _ _ _ => some c.module.name
  | .insertShared nb nl _ _ _ _ _ _ => c.guestString nb nl
  | .deleteShared nb nl _ _ _ _ => c.guestString nb nl
  | _ => none

def isInsert (c : HostCall inst) : Bool :=
  match c.function with
  | .insert _ _ _ _ _ _ => true
  | .insertShared _ _ _ _ _ _ _ _ => true
  | _ => false

/-- Bytes of the key and the value an inserting call brings. -/
def insertBytes (c : HostCall inst) : ℕ :=
  match c.function with
  | .insert kb kl vb vl _ _ =>
    ((c.guestString kb kl).elim 0 String.utf8ByteSize) + ((c.guestBytes vb vl).elim 0 List.length)
  | .insertShared _ _ kb kl vb vl _ _ =>
    ((c.guestString kb kl).elim 0 String.utf8ByteSize) + ((c.guestBytes vb vl).elim 0 List.length)
  | _ => 0

end HostCall

namespace Instance
variable (inst : Instance Loc)

/-- The namespace `ns` is metered by the counter `loc` under `limit`. -/
def Owns (ns : String) (loc : Loc) (limit : LimitValue) : Prop :=
  (∃ m, inst.modules.lookup ns = some m ∧ loc = m.storageCurrent ∧ limit = m.storageLimit) ∨
  ∃ st dbs db, inst.storage = some st ∧ st.sharedDbs = some dbs ∧ dbs.lookup ns = some db ∧
    loc = db.usedStorage ∧ limit = db.config.sizeLimit

variable {inst}

theorem Owns.counter {ns : String} {loc : Loc} {limit : LimitValue} (h : inst.Owns ns loc limit) :
    loc = inst.counterOf (.module ns) ∧ isWasm ns = true ∨
      loc = inst.counterOf (.sharedDb ns) ∧ isWasm ns = false := by
  rcases h with ⟨m, hm, rfl, _⟩ | ⟨st, dbs, db, hst, hdbs, hdb, rfl, _⟩
  · refine Or.inl ⟨(inst.module_named ns m hm).2, inst.module_wasm ns ?_⟩
    exact AList.lookup_isSome.mp (by simp [hm])
  · refine Or.inr ⟨inst.db_counter st dbs hst hdbs ns db hdb, inst.db_not_wasm st dbs hst hdbs ns ?_⟩
    exact AList.lookup_isSome.mp (by simp [hdb])

/-- A counter meters one namespace only. -/
theorem Owns.namespace_unique {ns ns' : String} {loc : Loc} {limit limit' : LimitValue}
    (h : inst.Owns ns loc limit) (h' : inst.Owns ns' loc limit') : ns = ns' := by
  rcases h.counter with ⟨he, _⟩ | ⟨he, _⟩ <;> rcases h'.counter with ⟨he', _⟩ | ⟨he', _⟩ <;>
    have hc := inst.counterOf_injective (he.symm.trans he')
  · exact CounterName.module.inj hc
  · cases hc
  · cases hc
  · exact CounterName.sharedDb.inj hc

/-- A namespace has one counter and one limit. -/
theorem Owns.counter_unique {ns : String} {loc loc' : Loc} {limit limit' : LimitValue}
    (h : inst.Owns ns loc limit) (h' : inst.Owns ns loc' limit') : loc = loc' ∧ limit = limit' := by
  have hw := h.counter
  have hw' := h'.counter
  rcases h with ⟨m, hm, rfl, rfl⟩ | ⟨st, dbs, db, hst, hdbs, hdb, rfl, rfl⟩ <;>
    rcases h' with ⟨m', hm', rfl, rfl⟩ | ⟨st', dbs', db', hst', hdbs', hdb', rfl, rfl⟩
  · simp_all
  · have h1 := inst.module_wasm ns (AList.lookup_isSome.mp (by simp [hm]))
    have h2 := inst.db_not_wasm st' dbs' hst' hdbs' ns (AList.lookup_isSome.mp (by simp [hdb']))
    simp [h1] at h2
  · have h1 := inst.module_wasm ns (AList.lookup_isSome.mp (by simp [hm']))
    have h2 := inst.db_not_wasm st dbs hst hdbs ns (AList.lookup_isSome.mp (by simp [hdb]))
    simp [h1] at h2
  · simp_all

end Instance

/-- What the code of a storage call can be: an immediate refusal, or one of the four common
functions on a namespace the caller may use. -/
inductive Shape {inst : Instance Loc} (keysToJson : List String → Option String)
    (c : HostCall inst) : HostProg Loc HostResult → Prop
  | refused (e : FunctionErrors) (he : e ≠ .storageLimitReached ∧ e ≠ .internalApiError)
      (m : Option MemoryView) : Shape keysToJson c (.done (fail e m))
  | insert {ns key : String} {value : Bytes} {m : MemoryView} {buffer len : UInt32}
      {limit : LimitValue} {loc : Loc} (owns : inst.Owns ns loc limit)
      (target : c.target = some ns) (isInsert : c.isInsert = true)
      (bytes : c.insertBytes = key.utf8ByteSize + value.length) :
      Shape keysToJson c (insertCommon ns key value m buffer len limit loc)
  | delete {ns key : String} {m : MemoryView} {buffer len : UInt32}
      {limit : LimitValue} {loc : Loc} (owns : inst.Owns ns loc limit)
      (target : c.target = some ns) (isInsert : c.isInsert = false) :
      Shape keysToJson c (deleteCommon ns key m buffer len limit loc)
  | get {ns key : String} {m : MemoryView} {buffer len : UInt32} (target : c.target = none) :
      Shape keysToJson c (getCommon ns key m buffer len)
  | list {ns keyPrefix : String} {m : MemoryView} {buffer len : UInt32} (target : c.target = none) :
      Shape keysToJson c (listKeysCommon keysToJson ns keyPrefix m buffer len)

section shape
variable {inst : Instance Loc} {keysToJson : List String → Option String} {c : HostCall inst}

theorem Shape.privateCall {k : MemoryView → HostProg Loc HostResult}
    (h : ∀ m, c.memory = some m → Shape keysToJson c (k m)) :
    Shape keysToJson c (privateCall c.env k) := by
  unfold StorageHost.privateCall
  split
  · exact .refused _ (by decide) _
  · split
    · exact .refused _ (by decide) _
    · exact h _ ‹_›

theorem Shape.sharedCall
    {k : (AList fun _ : String => SharedDb Loc) → MemoryView → HostProg Loc HostResult}
    (h : ∀ st dbs m, inst.storage = some st → st.sharedDbs = some dbs → c.memory = some m →
      Shape keysToJson c (k dbs m)) : Shape keysToJson c (sharedCall c.env k) := by
  unfold StorageHost.sharedCall
  split
  · exact .refused _ (by decide) _
  · split
    · exact .refused _ (by decide) _
    · split
      · exact .refused _ (by decide) _
      · exact h _ _ _ ‹_› ‹_› ‹_›

theorem Shape.withString {m : MemoryView} {buffer len : UInt32}
    {k : String → HostProg Loc HostResult} (hm : c.memory = some m)
    (h : ∀ s, c.guestString buffer len = some s → Shape keysToJson c (k s)) :
    Shape keysToJson c (withString c.env m buffer len k) := by
  unfold StorageHost.withString
  split
  · rename_i s hs
    exact h s (by simp only [HostCall.guestString, hm, Option.bind_some, hs]; rfl)
  · exact .refused _ (by decide) _

theorem Shape.withMemory {m : MemoryView} {buffer len : UInt32}
    {k : Bytes → HostProg Loc HostResult} (hm : c.memory = some m)
    (h : ∀ b, c.guestBytes buffer len = some b → Shape keysToJson c (k b)) :
    Shape keysToJson c (withMemory c.env m buffer len k) := by
  have hmodule : c.env.module = c.module := rfl
  obtain ⟨b, hb, heq⟩ | heq := withMemory_cases c.env k
  · rw [heq]
    rw [hmodule] at hb
    have hbytes : c.guestBytes buffer len = some b := by
      rw [HostCall.guestBytes, hm, Option.bind_some, hb, Except.toOption]
    exact h b hbytes
  · rw [heq]
    exact .refused _ (by decide) _

theorem Shape.withDb {dbs : AList fun _ : String => SharedDb Loc} {ns : String}
    {permitted : SharedDb Loc → Bool} {k : SharedDb Loc → HostProg Loc HostResult}
    (h : ∀ db, dbs.lookup ns = some db → Shape keysToJson c (k db)) :
    Shape keysToJson c (withDb c.env dbs ns permitted k) := by
  unfold StorageHost.withDb
  split
  · exact .refused _ (by decide) _
  · split
    · exact h _ ‹_›
    · exact .refused _ (by decide) _

/-- Every storage call has one of these shapes. -/
theorem HostCall.shape (keysToJson : List String → Option String) (c : HostCall inst) :
    Shape keysToJson c (c.code keysToJson) := by
  have own : inst.Owns c.module.name c.module.storageCurrent c.module.storageLimit :=
    Or.inl ⟨c.module, c.loaded, rfl, rfl⟩
  unfold HostCall.code
  cases hf : c.function with
  | insert kb kl vb vl db dl =>
    refine .privateCall fun m hm => .withString hm fun key hk => .withMemory hm fun value hv => ?_
    exact .insert own (by simp [target, env, hf]) (by simp [isInsert, hf])
      (by simp [insertBytes, hf, hk, hv])
  | insertShared nb nl kb kl vb vl db dl =>
    refine .sharedCall fun st dbs m hst hdbs hm => .withString hm fun ns hns => .withDb fun db hdb =>
      .withString hm fun key hk => .withMemory hm fun value hv => ?_
    exact .insert (Or.inr ⟨st, dbs, db, hst, hdbs, hdb, rfl, rfl⟩) (by simp [target, hf, hns])
      (by simp [isInsert, hf]) (by simp [insertBytes, hf, hk, hv])
  | get kb kl db dl =>
    refine .privateCall fun m hm => .withString hm fun key _ => ?_
    exact .get (by simp [target, hf])
  | getShared nb nl kb kl db dl =>
    refine .sharedCall fun st dbs m _ _ hm => .withString hm fun ns _ => .withDb fun db _ =>
      .withString hm fun key _ => ?_
    exact .get (by simp [target, hf])
  | listKeys pb pl db dl =>
    refine .privateCall fun m hm => .withString hm fun keyPrefix _ => ?_
    exact .list (by simp [target, hf])
  | listKeysShared nb nl pb pl db dl =>
    refine .sharedCall fun st dbs m _ _ hm => .withString hm fun ns _ => .withDb fun db _ =>
      .withString hm fun keyPrefix _ => ?_
    exact .list (by simp [target, hf])
  | delete kb kl db dl =>
    refine .privateCall fun m hm => .withString hm fun key _ => ?_
    exact .delete own (by simp [target, env, hf]) (by simp [isInsert, hf])
  | deleteShared nb nl kb kl db dl =>
    refine .sharedCall fun st dbs m hst hdbs hm => .withString hm fun ns hns =>
      .withString hm fun key _ => .withDb fun db hdb => ?_
    exact .delete (Or.inr ⟨st, dbs, db, hst, hdbs, hdb, rfl, rfl⟩) (by simp [target, hf, hns])
      (by simp [isInsert, hf])

end shape
end PlaidRuntime.StorageInstance
