import PlaidRuntime.StepMachine
import PlaidRuntime.StorageHost

/-!
# The storage functions of the standard library for rules

A rule reaches the storage through `plaid-stl` (`plaid-stl/src/plaid/storage.rs`). Each
function calls the host twice: once with an empty buffer to learn a size, and again with a
buffer of that size.
-/
namespace PlaidRuntime.StlStorage
open EffectProgram StepMachine MachineWord GuestMemory StorageProvider StorageHost

inductive PlaidFunctionError
  | apiNotConfigured
  | returnBufferTooSmall
  | errorCouldNotSerialize
  | internalApiError
  | parametersNotUtf8
  | invalidPointer
  | cacheDisabled
  | couldNotGetAdequateMemory
  | failedToWriteGuestMemory
  | storageLimitReached
  | testMode
  | operationNotAllowed
  | sharedDbError
  | timeoutElapsed
  | unknown
  | failedToLogBack
  | logbackBudgetExhausted
  deriving DecidableEq, Repr

/-- `From<i32>`. -/
def PlaidFunctionError.ofCode (code : ℤ) : PlaidFunctionError :=
  if code = -1 then .apiNotConfigured
  else if code = -2 then .returnBufferTooSmall
  else if code = -3 then .errorCouldNotSerialize
  else if code = -4 then .internalApiError
  else if code = -5 then .parametersNotUtf8
  else if code = -6 then .invalidPointer
  else if code = -7 then .cacheDisabled
  else if code = -8 then .couldNotGetAdequateMemory
  else if code = -9 then .failedToWriteGuestMemory
  else if code = -10 then .storageLimitReached
  else if code = -11 then .testMode
  else if code = -12 then .operationNotAllowed
  else if code = -13 then .sharedDbError
  else if code = -14 then .timeoutElapsed
  else if code = -15 then .failedToLogBack
  else if code = -16 then .logbackBudgetExhausted
  else .unknown

/-- The guest's memory at a host call: the arguments lie where the pointers say, and the
buffer has `n` zeroed bytes. The functions on a rule's own namespace pass no `ns`. -/
structure Frame (ns key value : Bytes) (n : ℕ) where
  memory : MemoryView
  nsPtr : UInt32
  keyPtr : UInt32
  valuePtr : UInt32
  dataPtr : UInt32
  ns_at : memory.read nsPtr.toNat ns.length = some ns
  key_at : memory.read keyPtr.toNat key.length = some key
  value_at : memory.read valuePtr.toNat value.length = some value
  data_at : memory.read dataPtr.toNat n = some (List.replicate n 0)

/-- The guest's side of one call: its memory at the first host call, and at the second one
for each buffer size. A slice has at most `isize::MAX` bytes. -/
structure Guest (ns key : String) (value : Bytes) where
  ns_fits : ns.utf8ByteSize < 2 ^ 31
  key_fits : key.utf8ByteSize < 2 ^ 31
  value_fits : value.length < 2 ^ 31
  probe : Frame (asBytes ns) (asBytes key) value 0
  second : (n : ℕ) → Frame (asBytes ns) (asBytes key) value n

theorem read_append (before bytes after : Bytes) :
    MemoryView.read ⟨before ++ (bytes ++ after)⟩ before.length bytes.length = some bytes := by
  simp [MemoryView.read]

/-- A memory that holds just the arguments and the buffer, one after the other. -/
def Frame.packed (ns key value : Bytes) (h : ns.length + key.length + value.length < 2 ^ 31) (n : ℕ) :
    Frame ns key value n where
  memory := ⟨ns ++ (key ++ (value ++ List.replicate n 0))⟩
  nsPtr := 0
  keyPtr := UInt32.ofNat ns.length
  valuePtr := UInt32.ofNat (ns.length + key.length)
  dataPtr := UInt32.ofNat (ns.length + key.length + value.length)
  ns_at := read_append [] ns _
  key_at := by
    rw [toNat_ofNat_u32 (by omega)]
    exact read_append ns key _
  value_at := by
    rw [toNat_ofNat_u32 (by omega)]
    simpa using read_append (ns ++ key) value (List.replicate n 0)
  data_at := by
    rw [toNat_ofNat_u32 h]
    simpa [Nat.add_assoc] using read_append (ns ++ key ++ value) (List.replicate n 0) []

def Guest.packed (ns key : String) (value : Bytes)
    (h : ns.utf8ByteSize + key.utf8ByteSize + value.length < 2 ^ 31) : Guest ns key value where
  ns_fits := by omega
  key_fits := by omega
  value_fits := by omega
  probe := .packed _ _ _ h 0
  second := .packed _ _ _ h

def lenOf (s : String) : UInt32 := UInt32.ofNat s.utf8ByteSize

/-- The value a library function returns, beside the codes it got from the host. -/
structure StlReturn where
  bufferSize : ℤ
  copiedSize : Option ℤ
  result : Except PlaidFunctionError Bytes
  deriving DecidableEq

/-- The bytes a vector at `ptr` holds when the host call has returned. -/
def bytesAt (r : HostResult) (ptr : UInt32) (n : ℕ) : Bytes :=
  (r.memory.bind fun m => m.read ptr.toNat n).getD []

variable {Loc T : Type}

/-- The body the storage functions share. -/
def probeThen (probe : HostProg Loc HostResult) (second : ℕ → HostProg Loc HostResult)
    (dataPtr : ℕ → UInt32) : HostProg Loc StlReturn := do
  let probed ← probe
  let bufferSize := probed.i32
  if bufferSize < 0 then return ⟨bufferSize, none, .error (.ofCode bufferSize)⟩
  else do
    let copied ← second bufferSize.toNat
    if copied.i32 = bufferSize then
      return ⟨bufferSize, some copied.i32,
        .ok (bytesAt copied (dataPtr bufferSize.toNat) bufferSize.toNat)⟩
    else return ⟨bufferSize, some copied.i32, .error .returnBufferTooSmall⟩

section functions
variable (module : PlaidModule Loc) (storage : Option (Storage Loc)) {ns key : String} {value : Bytes}
  (g : Guest ns key value)

def insert : HostProg Loc StlReturn :=
  probeThen
    (StorageHost.get ⟨module, storage, some g.probe.memory⟩ g.probe.keyPtr (lenOf key)
      g.probe.dataPtr 0)
    (fun n => StorageHost.insert ⟨module, storage, some (g.second n).memory⟩ (g.second n).keyPtr
      (lenOf key) (g.second n).valuePtr (UInt32.ofNat value.length) (g.second n).dataPtr
      (UInt32.ofNat n))
    fun n => (g.second n).dataPtr

def insertShared : HostProg Loc StlReturn :=
  probeThen
    (StorageHost.getShared ⟨module, storage, some g.probe.memory⟩ g.probe.nsPtr (lenOf ns)
      g.probe.keyPtr (lenOf key) g.probe.dataPtr 0)
    (fun n => StorageHost.insertShared ⟨module, storage, some (g.second n).memory⟩ (g.second n).nsPtr
      (lenOf ns) (g.second n).keyPtr (lenOf key) (g.second n).valuePtr (UInt32.ofNat value.length)
      (g.second n).dataPtr (UInt32.ofNat n))
    fun n => (g.second n).dataPtr

def get : HostProg Loc StlReturn :=
  probeThen
    (StorageHost.get ⟨module, storage, some g.probe.memory⟩ g.probe.keyPtr (lenOf key)
      g.probe.dataPtr 0)
    (fun n => StorageHost.get ⟨module, storage, some (g.second n).memory⟩ (g.second n).keyPtr
      (lenOf key) (g.second n).dataPtr (UInt32.ofNat n))
    fun n => (g.second n).dataPtr

def delete : HostProg Loc StlReturn :=
  probeThen
    (StorageHost.delete ⟨module, storage, some g.probe.memory⟩ g.probe.keyPtr (lenOf key)
      g.probe.dataPtr 0)
    (fun n => StorageHost.delete ⟨module, storage, some (g.second n).memory⟩ (g.second n).keyPtr
      (lenOf key) (g.second n).dataPtr (UInt32.ofNat n))
    fun n => (g.second n).dataPtr

end functions

section frame
variable {ns key : String} {value : Bytes} {n : ℕ}

theorem toNat_lenOf {s : String} (h : s.utf8ByteSize < 2 ^ 31) : (lenOf s).toNat = (asBytes s).length := by
  rw [lenOf, length_asBytes, toNat_ofNat_u32 h]

theorem Frame.key_string (f : Frame (asBytes ns) (asBytes key) value n)
    (h : key.utf8ByteSize < 2 ^ 31) : safelyGetString f.memory f.keyPtr (lenOf key) = .ok key := by
  apply safelyGetString_of_read
  rw [toNat_lenOf h]
  exact f.key_at

theorem Frame.ns_string (f : Frame (asBytes ns) (asBytes key) value n)
    (h : ns.utf8ByteSize < 2 ^ 31) : safelyGetString f.memory f.nsPtr (lenOf ns) = .ok ns := by
  apply safelyGetString_of_read
  rw [toNat_lenOf h]
  exact f.ns_at

variable {Loc : Type} {module : PlaidModule Loc} {st : Storage Loc}

theorem Frame.get_eq (f : Frame (asBytes ns) (asBytes key) value n) (h : key.utf8ByteSize < 2 ^ 31)
    (len : UInt32) : StorageHost.get ⟨module, some st, some f.memory⟩ f.keyPtr (lenOf key) f.dataPtr len =
      getCommon module.name key f.memory f.dataPtr len := by
  rw [StorageHost.get, privateCall_some, withString_ok (f.key_string h)]

theorem Frame.delete_eq (f : Frame (asBytes ns) (asBytes key) value n) (h : key.utf8ByteSize < 2 ^ 31)
    (len : UInt32) : StorageHost.delete ⟨module, some st, some f.memory⟩ f.keyPtr (lenOf key) f.dataPtr len =
      deleteCommon module.name key f.memory f.dataPtr len module.storageLimit module.storageCurrent := by
  rw [StorageHost.delete, privateCall_some, withString_ok (f.key_string h)]

theorem Frame.value_bytes (f : Frame (asBytes ns) (asBytes key) value n) {limit : ℕ}
    (h : value.length < 2 ^ 31) (hl : value.length ≤ limit) :
    safelyGetMemory f.memory f.valuePtr (UInt32.ofNat value.length) limit = .ok value := by
  simp only [safelyGetMemory, toNat_ofNat_u32 h, f.value_at]
  rw [if_neg (by omega)]

theorem Frame.insert_eq (f : Frame (asBytes ns) (asBytes key) value n) (h : key.utf8ByteSize < 2 ^ 31)
    (hv : value.length < 2 ^ 31) (hl : value.length ≤ calculateMaxBufferSize module.pageLimit)
    (len : UInt32) : StorageHost.insert ⟨module, some st, some f.memory⟩ f.keyPtr (lenOf key) f.valuePtr
      (UInt32.ofNat value.length) f.dataPtr len =
      insertCommon module.name key value f.memory f.dataPtr len module.storageLimit
        module.storageCurrent := by
  rw [StorageHost.insert, privateCall_some, withString_ok (f.key_string h),
    withMemory_ok ⟨module, some st, some f.memory⟩ (f.value_bytes hv hl)]

section shared
variable {dbs : AList fun _ : String => SharedDb Loc} {db : SharedDb Loc}
  (f : Frame (asBytes ns) (asBytes key) value n)

/-- A module that may not read the database, or a database that is not there, ends the call. -/
theorem Frame.getShared_refused (hns : ns.utf8ByteSize < 2 ^ 31) (hdbs : st.sharedDbs = some dbs)
    (hdb : ∀ db, dbs.lookup ns = some db → canRead ⟨module, some st, some f.memory⟩ db = false)
    (len : UInt32) : StorageHost.getShared ⟨module, some st, some f.memory⟩ f.nsPtr (lenOf ns) f.keyPtr
      (lenOf key) f.dataPtr len = .done (fail .operationNotAllowed (some f.memory)) := by
  rw [StorageHost.getShared, sharedCall_some hdbs, withString_ok (f.ns_string hns),
    withDb_refused hdb]

theorem Frame.getShared_eq (hns : ns.utf8ByteSize < 2 ^ 31) (h : key.utf8ByteSize < 2 ^ 31)
    (hdbs : st.sharedDbs = some dbs) (hdb : dbs.lookup ns = some db)
    (hcan : canRead ⟨module, some st, some f.memory⟩ db = true) (len : UInt32) :
    StorageHost.getShared ⟨module, some st, some f.memory⟩ f.nsPtr (lenOf ns) f.keyPtr (lenOf key)
      f.dataPtr len = getCommon ns key f.memory f.dataPtr len := by
  rw [StorageHost.getShared, sharedCall_some hdbs, withString_ok (f.ns_string hns),
    withDb_permitted hdb hcan, withString_ok (f.key_string h)]

theorem Frame.insertShared_eq (hns : ns.utf8ByteSize < 2 ^ 31) (h : key.utf8ByteSize < 2 ^ 31)
    (hv : value.length < 2 ^ 31) (hl : value.length ≤ calculateMaxBufferSize module.pageLimit)
    (hdbs : st.sharedDbs = some dbs) (hdb : dbs.lookup ns = some db)
    (hcan : canWrite ⟨module, some st, some f.memory⟩ db = true) (len : UInt32) :
    StorageHost.insertShared ⟨module, some st, some f.memory⟩ f.nsPtr (lenOf ns) f.keyPtr (lenOf key)
      f.valuePtr (UInt32.ofNat value.length) f.dataPtr len =
      insertCommon ns key value f.memory f.dataPtr len db.config.sizeLimit db.usedStorage := by
  rw [StorageHost.insertShared, sharedCall_some hdbs, withString_ok (f.ns_string hns),
    withDb_permitted hdb hcan, withString_ok (f.key_string h),
    withMemory_ok ⟨module, some st, some f.memory⟩ (f.value_bytes hv hl)]

end shared
end frame

/-- The length of the value held, zero when there is none. -/
def heldLength (old : Option Bytes) : ℕ := (old.getD []).length

theorem previousValue_probe (m : MemoryView) (buffer : UInt32) (old : Option Bytes) :
    previousValue m buffer 0 (.ok old) = ⟨.ok (asI32 (heldLength old)), some m⟩ := by
  cases old with
  | none => rfl
  | some d => rfl

/-- A buffer of the right size gets the whole previous value. -/
theorem previousValue_exact {m : MemoryView} {buffer : UInt32} {old : Option Bytes} {b : Bytes}
    (hlt : heldLength old < 2 ^ 31) (hbuf : m.read buffer.toNat (heldLength old) = some b) :
    (previousValue m buffer (UInt32.ofNat (heldLength old)) (.ok old)).i32 = heldLength old ∧
      bytesAt (previousValue m buffer (UInt32.ofNat (heldLength old)) (.ok old)) buffer
        (heldLength old) = old.getD [] := by
  have hzero := MemoryView.read_zero hbuf
  cases old with
  | none => exact ⟨rfl, by simp [previousValue, bytesAt, heldLength, hzero]⟩
  | some d =>
    have hd : heldLength (some d) = d.length := rfl
    rw [hd] at hlt hbuf ⊢
    have hn := toNat_ofNat_u32 hlt
    by_cases h0 : UInt32.ofNat d.length = 0
    · have hlen : d.length = 0 := by
        rw [← hn, h0]
        rfl
      obtain rfl := List.eq_nil_of_length_eq_zero hlen
      exact ⟨rfl, by simp [previousValue_probe, bytesAt, hzero]⟩
    · obtain ⟨m', hw, hr⟩ := MemoryView.write_of_read hbuf
      have hback : previousValue m buffer (UInt32.ofNat d.length) (.ok (some d)) =
          ⟨.ok d.length, some m'⟩ := by
        simp only [previousValue, writeBack, safelyWriteDataBack, hn, hw]
        rw [if_neg h0, if_neg (by omega), asI32_of_lt hlt]
      rw [hback]
      exact ⟨rfl, by simp [bytesAt, hr]⟩

/-- The backend answers and nothing fails. -/
def answers [DecidableEq Loc] (t : T) (s : HostState Loc T) (e : HostRequest Loc) :
    Option (HostReply e × HostState Loc T) :=
  hostReply t s e .ok

/-- Nobody holds the counter's lock and no holder has panicked. -/
def Free (loc : Loc) (s : HostState Loc T) : Prop := s.holder loc = none ∧ s.poisoned loc = false

/-- The bytes that would be used, as the host computes them. -/
def wouldBeUsed (loc : Loc) (ns key : String) (value : Bytes) (s : HostState Loc T) : ℕ :=
  subU64 (addU64 (addU64 (s.counter loc) key.utf8ByteSize) value.length)
    (existingDataSize key ((s.store ns).lookup key))

/-- The quota lets the insert through. -/
def Admits (limit : LimitValue) (loc : Loc) (ns key : String) (value : Bytes)
    (s : HostState Loc T) : Prop :=
  match limit with
  | .unlimited => True
  | .limited l => wouldBeUsed loc ns key value s ≤ l

/-- The same locks, and these entries. -/
structure Stores (s s' : HostState Loc T) (ns : String) (content : Content) : Prop where
  store : s'.store = Function.update s.store ns content
  holder : s'.holder = s.holder
  poisoned : s'.poisoned = s.poisoned

section common
variable [DecidableEq Loc] {t : T} {s : HostState Loc T} {ns key : String} {value : Bytes}
  {m : MemoryView} {buffer len : UInt32} {limit : LimitValue} {loc : Loc}

theorem eval_getCommon : (getCommon ns key m buffer len).eval (answers t) s =
    some (previousValue m buffer len (.ok ((s.store ns).lookup key)), s) :=
  rfl

theorem eval_lock (hfree : Free loc s) {k : Bool → HostProg Loc HostResult} :
    (Prog.request (.lock loc) k).eval (answers t) s =
      (k true).eval (answers t) { s with holder := Function.update s.holder loc (some t) } := by
  apply Prog.eval_request
  simp [answers, hostReply, hfree.1, hfree.2]

-- One equation for each request, so that no run is unfolded down to the arithmetic.
section requests
variable {k : Unit → HostProg Loc HostResult} {kn : ℕ → HostProg Loc HostResult}
  {kd : Except StorageError (Option Bytes) → HostProg Loc HostResult}

theorem eval_unlock : (Prog.request (.unlock loc) k).eval (answers t) s =
    (k ()).eval (answers t) { s with holder := Function.update s.holder loc none } := rfl

theorem eval_readCounter : (Prog.request (.readCounter loc) kn).eval (answers t) s =
    (kn (s.counter loc)).eval (answers t) s := rfl

theorem eval_writeCounter {v : ℕ} : (Prog.request (.writeCounter loc v) k).eval (answers t) s =
    (k ()).eval (answers t) { s with counter := Function.update s.counter loc v } := rfl

theorem eval_subU64 {a b : ℕ} : (Prog.request (.subU64 a b) kn).eval (answers t) s =
    (kn (MachineWord.subU64 a b)).eval (answers t) s := rfl

theorem eval_get : (Prog.request (.backend (.get ns key)) kd).eval (answers t) s =
    (kd (.ok ((s.store ns).lookup key))).eval (answers t) s := rfl

theorem eval_insert : (Prog.request (.backend (.insert ns key value)) kd).eval (answers t) s =
    (kd (.ok ((s.store ns).lookup key))).eval (answers t)
      { s with store := Function.update s.store ns ((s.store ns).insert key value) } := rfl

theorem eval_delete : (Prog.request (.backend (.delete ns key)) kd).eval (answers t) s =
    (kd (.ok ((s.store ns).lookup key))).eval (answers t)
      { s with store := Function.update s.store ns ((s.store ns).erase key) } := rfl

end requests

theorem eval_insertCommon (hfree : Free loc s) (hq : Admits limit loc ns key value s) :
    ∃ s', (insertCommon ns key value m buffer len limit loc).eval (answers t) s =
        some (previousValue m buffer len (.ok ((s.store ns).lookup key)), s') ∧
      Stores s s' ns ((s.store ns).insert key value) := by
  cases limit with
  | unlimited => exact ⟨_, rfl, rfl, rfl, rfl⟩
  | limited l =>
    have hholder : Function.update (Function.update s.holder loc (some t)) loc none = s.holder := by
      simp [← hfree.1]
    have hle : ¬ l < wouldBeUsed loc ns key value s := Nat.not_lt.mpr hq
    refine ⟨{ store := Function.update s.store ns ((s.store ns).insert key value)
              counter := Function.update s.counter loc (wouldBeUsed loc ns key value s)
              holder := Function.update (Function.update s.holder loc (some t)) loc none
              poisoned := s.poisoned }, ?_, rfl, hholder, rfl⟩
    rw [wouldBeUsed] at hle ⊢
    simp only [insertCommon, lock, storageGet, readCounter, checkedSub, storageInsert, writeCounter,
      unlock, Prog.perform_bind, Prog.pure_eq_done]
    rw [eval_lock hfree, if_pos rfl, eval_get]
    dsimp only
    rw [eval_readCounter, eval_subU64]
    dsimp only
    rw [if_neg hle, eval_insert]
    dsimp only
    rw [eval_writeCounter, eval_unlock, Prog.eval_done]

/-- With a buffer the host deletes; without one it only looks. -/
theorem eval_deleteCommon_probe : (deleteCommon ns key m buffer 0 limit loc).eval (answers t) s =
    some (previousValue m buffer 0 (.ok ((s.store ns).lookup key)), s) := by
  unfold deleteCommon
  rw [if_pos rfl]
  exact eval_getCommon

theorem eval_deleteCommon (hfree : Free loc s) (hlen : len ≠ 0) :
    ∃ s', (deleteCommon ns key m buffer len limit loc).eval (answers t) s =
        some (previousValue m buffer len (.ok ((s.store ns).lookup key)), s') ∧
      Stores s s' ns ((s.store ns).erase key) := by
  have hholder : Function.update (Function.update s.holder loc (some t)) loc none = s.holder := by
    simp [← hfree.1]
  unfold deleteCommon
  rw [if_neg hlen]
  cases limit with
  | unlimited => exact ⟨_, rfl, rfl, rfl, rfl⟩
  | limited l =>
    simp only [lock, readCounter, checkedSub, storageDelete, writeCounter, unlock, Prog.perform_bind,
      Prog.pure_eq_done]
    rw [eval_lock hfree, if_pos rfl, eval_delete]
    dsimp only
    cases (s.store ns).lookup key with
    | none =>
      dsimp only
      rw [eval_unlock, Prog.eval_done]
      exact ⟨_, rfl, rfl, hholder, rfl⟩
    | some data =>
      dsimp only
      rw [eval_readCounter, eval_subU64, eval_subU64, eval_writeCounter, eval_unlock, Prog.eval_done]
      exact ⟨_, rfl, rfl, hholder, rfl⟩

variable {module : PlaidModule Loc} {st : Storage Loc} {n : ℕ}
  (f : Frame (asBytes ns) (asBytes key) value n)

theorem Frame.eval_get (h : key.utf8ByteSize < 2 ^ 31) :
    (StorageHost.get ⟨module, some st, some f.memory⟩ f.keyPtr (lenOf key) f.dataPtr len).eval
      (answers t) s =
      some (previousValue f.memory f.dataPtr len (.ok ((s.store module.name).lookup key)), s) := by
  rw [f.get_eq h, eval_getCommon]

theorem Frame.eval_delete_probe (h : key.utf8ByteSize < 2 ^ 31) :
    (StorageHost.delete ⟨module, some st, some f.memory⟩ f.keyPtr (lenOf key) f.dataPtr 0).eval
      (answers t) s =
      some (previousValue f.memory f.dataPtr 0 (.ok ((s.store module.name).lookup key)), s) := by
  rw [f.delete_eq h, eval_deleteCommon_probe]

end common

/-- The second host call answers with a buffer of exactly the probed size. -/
theorem eval_probeThen [DecidableEq Loc] {t : T} {s s' : HostState Loc T}
    {probe : HostProg Loc HostResult} {second : ℕ → HostProg Loc HostResult} {dataPtr : ℕ → UInt32}
    {old : Option Bytes} {mp m : MemoryView} {ptr : UInt32} {b : Bytes}
    (hlt : heldLength old < 2 ^ 31) (hbuf : m.read (dataPtr (heldLength old)).toNat (heldLength old) = some b)
    (hprobe : probe.eval (answers t) s = some (previousValue mp ptr 0 (.ok old), s))
    (hsecond : (second (heldLength old)).eval (answers t) s = some (previousValue m
      (dataPtr (heldLength old)) (UInt32.ofNat (heldLength old)) (.ok old), s')) :
    (probeThen probe second dataPtr).eval (answers t) s =
      some (⟨heldLength old, some (heldLength old : ℤ), .ok (old.getD [])⟩, s') := by
  obtain ⟨hcode, hbytes⟩ := previousValue_exact hlt hbuf
  have hsize : (previousValue mp ptr 0 (.ok old)).i32 = heldLength old := by
    rw [previousValue_probe]
    exact asI32_of_lt hlt
  have hnonneg : ¬ ((heldLength old : ℤ) < 0) := by omega
  rw [probeThen, Prog.eval_bind, hprobe, Option.bind_some]
  dsimp only
  rw [hsize, if_neg hnonneg, Prog.eval_bind, Int.toNat_natCast, hsecond, Option.bind_some]
  dsimp only
  rw [hcode, if_pos rfl, hbytes, Prog.pure_eq_done, Prog.eval_done]

end PlaidRuntime.StlStorage
