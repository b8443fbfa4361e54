import PlaidRuntime.StorageIsolation
import PlaidRuntime.StlStorage

/-!
# Errors of the storage library under interleaving

Rules call `insert` and `insert_shared` while others use the same storage. Between its two
host calls anything may happen to the key, and the code of the second call is only compared
with the probed size.
-/
namespace PlaidRuntime.StlErrors
open EffectProgram LockMonitor MachineWord GuestMemory StorageProvider StorageHost StorageInstance
  StorageMetering StlStorage

variable {Loc T : Type} {inst : Instance Loc}

/-- An insert through the library, by a loaded module. -/
structure StlCall (inst : Instance Loc) where
  module : PlaidModule Loc
  loaded : inst.modules.lookup module.name = some module
  shared : Bool
  ns : String
  key : String
  value : Bytes
  guest : Guest ns key value

namespace StlCall

def code (c : StlCall inst) : HostProg Loc StlReturn :=
  if c.shared then StlStorage.insertShared c.module inst.storage c.guest
  else StlStorage.insert c.module inst.storage c.guest

/-- The limit of the namespace the call writes to. -/
def limit (c : StlCall inst) : Option LimitValue :=
  if c.shared then (inst.sharedDb c.ns).map fun db => db.config.sizeLimit
  else some c.module.storageLimit

def quota (c : StlCall inst) : Option ℕ :=
  c.limit.bind fun
    | .unlimited => none
    | .limited l => some l

end StlCall

/-- What threads do: plain host calls of any module, and inserts through the library. -/
inductive Work (inst : Instance Loc)
  | host (c : HostCall inst)
  | stl (c : StlCall inst)

inductive Answer
  | host (r : HostResult)
  | stl (r : StlReturn)

def Work.code (keysToJson : List String → Option String) : Work inst → HostProg Loc Answer
  | .host c => do return .host (← c.code keysToJson)
  | .stl c => do return .stl (← c.code)

/-- Observations about one call. -/
structure WriteNotes where
  /-- The value under the key when the call first looked at it. -/
  probed : Option (Option Bytes)
  /-- A request of the call changed the value under its key. -/
  changed : Bool
  deriving DecidableEq

def WriteNotes.add (g : WriteNotes) (s : HostState Loc T) :
    (e : HostRequest Loc) → HostReply e → HostState Loc T → WriteNotes
  | .backend (.get _ _), .ok data, _ =>
    if g.probed = none then { g with probed := some data } else g
  | .backend (.insert ns key _), _, s' =>
    { g with changed := g.changed || decide ((s'.store ns).lookup key ≠ (s.store ns).lookup key) }
  | .backend (.delete ns key), _, s' =>
    { g with changed := g.changed || decide ((s'.store ns).lookup key ≠ (s.store ns).lookup key) }
  | _, _, _ => g

variable [DecidableEq Loc]

/-- Any number of threads of one instance. -/
def callers (T : Type) (inst : Instance Loc) (keysToJson : List String → Option String) :
    System (HostRequest Loc) HostReply (HostState Loc T) Outcome (Work inst) Answer WriteNotes T where
  code := Work.code keysToJson
  reply := hostReply
  fresh := ⟨none, false⟩
  note := WriteNotes.add

/-- The error contract of an insert that has returned. -/
def Contract (r : StlReturn) (g : WriteNotes) : Prop :=
  (∀ e, r.result = .error e → g.changed = false) ∧
  (∀ c, r.copiedSize = some c → c < 0 → r.result = .error (.ofCode c)) ∧
  (r.result = .error .storageLimitReached ↔ r.copiedSize = some FunctionErrors.storageLimitReached.code)

/-- What the state and the backend have to grant at a request of an insert: the value probed
is shorter than `2 ^ 31` bytes; after the probe nothing refuses the second call; and the value
it replaces is as long as the probed one, or the very value it writes. -/
def Undisturbed (c : StlCall inst) (g : WriteNotes) (e : HostRequest Loc) (o : Outcome)
    (s : HostState Loc T) : Prop :=
  match g.probed with
  | none =>
    match e with
    | .backend (.get ns key) => heldLength ((s.store ns).lookup key) < 2 ^ 31
    | _ => True
  | some old =>
    match e with
    | .backend (.get _ _) => o.isFailure = false
    | .backend (.insert ns key value) => o.isFailure = false ∧
        (heldLength ((s.store ns).lookup key) = heldLength old ∨ (s.store ns).lookup key = some value)
    | .lock loc => s.poisoned loc = false
    | .subU64 a b => ∀ l ∈ c.quota, MachineWord.subU64 a b ≤ l
    | _ => True

omit [DecidableEq Loc] in
instance (c : StlCall inst) (g : WriteNotes) (e : HostRequest Loc) (o : Outcome)
    (s : HostState Loc T) : Decidable (Undisturbed c g e o s) := by
  unfold Undisturbed
  split <;> split <;> infer_instance

/-- The value fits the module's buffers, and a database the module may read it may write. -/
def Permitted (c : StlCall inst) : Prop :=
  c.value.length ≤ calculateMaxBufferSize c.module.pageLimit ∧
  (c.shared = true → ∀ db ∈ inst.sharedDb c.ns,
    c.module.name ∈ db.config.r → c.module.name ∈ db.config.rw)

omit [DecidableEq Loc] in
instance : DecidablePred (Permitted : StlCall inst → Prop) := fun _ =>
  inferInstanceAs (Decidable (_ ∧ _))

section second
variable {c : StlCall inst} {t : T} {ns key : String} {value : Bytes} {m : MemoryView}
  {buffer : UInt32} {n : ℕ} {old : Option Bytes}

/-- Whatever value was replaced, the second call answers with a length or with one code. -/
theorem previousValue_code {b : Bytes} (hn : n < 2 ^ 31) (hv : value.length < 2 ^ 31)
    (hbuf : m.read buffer.toNat n = some b) :
    0 ≤ (previousValue m buffer (UInt32.ofNat n) (.ok (some value))).i32 ∨
      (previousValue m buffer (UInt32.ofNat n) (.ok (some value))).i32 = -2 := by
  have hsize := toNat_ofNat_u32 hn
  have hlen : (0 : ℤ) ≤ asI32 value.length := by
    rw [asI32_of_lt hv]
    omega
  simp only [previousValue, writeBack, safelyWriteDataBack, hsize]
  split_ifs with h0 hshort
  · exact Or.inl hlen
  · exact Or.inr rfl
  · obtain ⟨m', hw⟩ := MemoryView.write_fits hbuf (Nat.not_lt.mp hshort)
    rw [hw]
    exact Or.inl hlen

/-- How the second host call may end: with the probed size, or with the key unchanged and a
code that the library hands on as it is. -/
def SecondOk (n : ℕ) (r : HostResult) (g : WriteNotes) : Prop :=
  r.i32 = n ∨ g.changed = false ∧ (0 ≤ r.i32 ∨ r.i32 = -2)

/-- The step that writes: what it replaces decides how the call ends. -/
theorem secondOk_of_insert {s s' : HostState Loc T} {o : Outcome}
    {r : Except StorageError (Option Bytes)} {b : Bytes} (hold : heldLength old < 2 ^ 31)
    (hv : value.length < 2 ^ 31) (hbuf : m.read buffer.toNat (heldLength old) = some b)
    (ha : Undisturbed c ⟨some old, false⟩ (.backend (.insert ns key value)) o s)
    (hr : hostReply t s (.backend (.insert ns key value)) o = some (r, s')) :
    r = .ok ((s.store ns).lookup key) ∧
      SecondOk (heldLength old)
        (previousValue m buffer (UInt32.ofNat (heldLength old)) (.ok ((s.store ns).lookup key)))
        (WriteNotes.add ⟨some old, false⟩ s (.backend (.insert ns key value)) r s') := by
  obtain ⟨hok, hlen | hsame⟩ := ha
  · rcases reply_insert hr with ⟨rfl, rfl⟩ | ⟨⟨e, rfl⟩, rfl⟩
    · refine ⟨rfl, Or.inl ?_⟩
      rw [← hlen] at hold hbuf ⊢
      exact (previousValue_exact hold hbuf).1
    · cases o with
      | fails err => cases hok
      | _ => cases hr
  · rcases reply_insert hr with ⟨rfl, rfl⟩ | ⟨⟨e, rfl⟩, rfl⟩
    · refine ⟨rfl, Or.inr ⟨?_, ?_⟩⟩
      · simp [WriteNotes.add, hsame]
      · rw [hsame]
        exact previousValue_code hold hv hbuf
    · cases o with
      | fails err => cases hok
      | _ => cases hr

variable {limit : LimitValue} {loc : Loc}

theorem insertCommon_yields {b : Bytes} (hlimit : c.limit = some limit) (hold : heldLength old < 2 ^ 31)
    (hv : value.length < 2 ^ 31) (hbuf : m.read buffer.toNat (heldLength old) = some b) :
    (insertCommon ns key value m buffer (UInt32.ofNat (heldLength old)) limit loc).Yields
      (hostReply t) WriteNotes.add (Undisturbed c) (SecondOk (heldLength old)) ⟨some old, false⟩ := by
  cases limit with
  | unlimited =>
    intro s o r s' ha hr
    obtain ⟨rfl, hsecond⟩ := secondOk_of_insert hold hv hbuf ha hr
    exact hsecond
  | limited l =>
    intro s o r s' ha hr
    obtain ⟨-, ⟨hp, -, -⟩ | ⟨-, -, rfl, -⟩⟩ := reply_lock hr
    · rw [show s.poisoned loc = false from ha] at hp
      cases hp
    intro s o r s' ha hr
    obtain ⟨-, rfl | ⟨e, rfl⟩⟩ := reply_get hr
    swap
    · cases o with
      | fails err => cases ha
      | _ => cases hr
    have hnotes : WriteNotes.add ⟨some old, false⟩ s (.backend (.get ns key))
        (.ok ((s.store ns).lookup key)) s' = ⟨some old, false⟩ := by
      simp [WriteNotes.add]
    change Prog.Yields _ _ _ _ _ (WriteNotes.add ⟨some old, false⟩ s (.backend (.get ns key))
        (.ok ((s.store ns).lookup key)) s')
    rw [hnotes]
    intro s o current s' _ _ s o would s' ha hr
    have hquota : c.quota = some l := by simp [StlCall.quota, hlimit]
    have hle : ¬ l < would := by
      cases o <;> cases hr
      exact Nat.not_lt.mpr (ha l hquota)
    simp only [Prog.bind]
    rw [if_neg hle]
    intro s o r s' ha hr
    obtain ⟨rfl, hsecond⟩ := secondOk_of_insert hold hv hbuf ha hr
    exact fun _ _ _ _ _ _ _ _ _ _ _ _ => hsecond

end second

section whole
variable {c : StlCall inst} {t : T}

/-- How the probe may end: refused with a code of its own, or with the size of the value. -/
def ProbeOk (r : HostResult) (g : WriteNotes) : Prop :=
  (g.changed = false ∧ ∃ e : FunctionErrors, e ≠ .storageLimitReached ∧ r.i32 = e.code) ∨
  ∃ old, g = ⟨some old, false⟩ ∧ heldLength old < 2 ^ 31 ∧ r.i32 = heldLength old

theorem getCommon_yields {ns key : String} {m : MemoryView} {buffer : UInt32} :
    (getCommon ns key m buffer 0).Yields (hostReply t) WriteNotes.add (Undisturbed c) ProbeOk
      ⟨none, false⟩ := by
  intro s o r s' ha hr
  have hlt : heldLength ((s.store ns).lookup key) < 2 ^ 31 := ha
  obtain ⟨-, rfl | ⟨e, rfl⟩⟩ := reply_get hr
  · refine Or.inr ⟨(s.store ns).lookup key, rfl, hlt, ?_⟩
    rw [previousValue_probe]
    exact asI32_of_lt hlt
  · exact Or.inl ⟨rfl, .internalApiError, by decide, rfl⟩

theorem code_neg (e : FunctionErrors) : e.code < 0 := by cases e <;> decide

theorem ofCode_code_ne {e : FunctionErrors} (h : e ≠ .storageLimitReached) :
    PlaidFunctionError.ofCode e.code ≠ .storageLimitReached := by
  cases e <;> first | decide | exact absurd rfl h

-- The three ways in which an insert returns.
theorem contract_refused {e : FunctionErrors} {g : WriteNotes} (he : e ≠ .storageLimitReached)
    (hg : g.changed = false) : Contract ⟨e.code, none, .error (.ofCode e.code)⟩ g := by
  refine ⟨fun _ _ => hg, ?_, ?_⟩
  · intro code h
    cases h
  · simp [ofCode_code_ne he]

theorem contract_ok {size copied : ℤ} {v : Bytes} {g : WriteNotes} (h : 0 ≤ copied) :
    Contract ⟨size, some copied, .ok v⟩ g := by
  refine ⟨?_, ?_, ?_⟩
  · intro e he
    cases he
  · intro code hc hneg
    obtain rfl := Option.some.inj hc
    omega
  · simp only [FunctionErrors.code, Option.some.injEq, reduceCtorEq, false_iff]
    omega

theorem contract_mismatch {size copied : ℤ} {g : WriteNotes} (hg : g.changed = false)
    (h : 0 ≤ copied ∨ copied = -2) :
    Contract ⟨size, some copied, .error .returnBufferTooSmall⟩ g := by
  refine ⟨fun _ _ => hg, ?_, ?_⟩
  · intro code hc hneg
    obtain rfl := Option.some.inj hc
    obtain rfl : copied = -2 := by omega
    rfl
  · simp only [FunctionErrors.code, Option.some.injEq, Except.error.injEq, reduceCtorEq, false_iff]
    omega

/-- A probe and a second call that end well keep the contract. -/
theorem probeThen_yields {probe : HostProg Loc HostResult} {second : ℕ → HostProg Loc HostResult}
    {dataPtr : ℕ → UInt32}
    (hprobe : probe.Yields (hostReply t) WriteNotes.add (Undisturbed c) ProbeOk ⟨none, false⟩)
    (hsecond : ∀ old, heldLength old < 2 ^ 31 → (second (heldLength old)).Yields (hostReply t)
      WriteNotes.add (Undisturbed c) (SecondOk (heldLength old)) ⟨some old, false⟩) :
    (probeThen probe second dataPtr).Yields (hostReply t) WriteNotes.add (Undisturbed c) Contract
      ⟨none, false⟩ := by
  apply Prog.Yields.bind
  apply Prog.Yields.mono _ hprobe
  rintro r g (⟨hg, e, he, hr⟩ | ⟨old, rfl, hlt, hr⟩)
  · rw [hr, if_pos (code_neg e)]
    exact contract_refused he hg
  · have hnonneg : ¬ ((heldLength old : ℤ) < 0) := by omega
    rw [hr, if_neg hnonneg, Int.toNat_natCast]
    apply Prog.Yields.bind
    apply Prog.Yields.mono _ (hsecond old hlt)
    rintro r g (hn | ⟨hg, hcode⟩)
    · rw [if_pos hn]
      exact contract_ok (by omega)
    · by_cases hn : r.i32 = heldLength old
      · rw [if_pos hn]
        exact contract_ok (by omega)
      · rw [if_neg hn]
        exact contract_mismatch hg hcode

/-- A probe that is refused at once ends the call. -/
theorem refused_yields {e : FunctionErrors} (he : e ≠ .storageLimitReached) {m : Option MemoryView}
    {second : ℕ → HostProg Loc HostResult} {dataPtr : ℕ → UInt32} :
    (probeThen (.done (fail e m)) second dataPtr).Yields (hostReply t) WriteNotes.add (Undisturbed c)
      Contract ⟨none, false⟩ := by
  have hcode : (fail e m).i32 = e.code := rfl
  rw [probeThen, Prog.done_bind]
  dsimp only
  rw [hcode, if_pos (code_neg e)]
  exact contract_refused he rfl

theorem insert_yields (hp : Permitted c) (hshared : c.shared = false) :
    c.code.Yields (hostReply t) WriteNotes.add (Undisturbed c) Contract ⟨none, false⟩ := by
  obtain ⟨hvalue, -⟩ := hp
  have hlimit : c.limit = some c.module.storageLimit := by simp [StlCall.limit, hshared]
  rw [StlCall.code, if_neg (by simp [hshared]), StlStorage.insert]
  cases inst.storage with
  | none => exact refused_yields (by decide)
  | some st =>
    apply probeThen_yields
    · rw [Frame.get_eq _ c.guest.key_fits]
      exact getCommon_yields
    · intro old hold
      rw [Frame.insert_eq _ c.guest.key_fits c.guest.value_fits hvalue]
      exact insertCommon_yields hlimit hold c.guest.value_fits (Frame.data_at _)

theorem insertShared_yields (hp : Permitted c) (hshared : c.shared = true) :
    c.code.Yields (hostReply t) WriteNotes.add (Undisturbed c) Contract ⟨none, false⟩ := by
  obtain ⟨hvalue, hrw⟩ := hp
  rw [StlCall.code, if_pos hshared, StlStorage.insertShared]
  cases hst : inst.storage with
  | none => exact refused_yields (by decide)
  | some st =>
    cases hdbs : st.sharedDbs with
    | none =>
      simp only [StorageHost.getShared, sharedCall, hdbs]
      exact refused_yields (by decide)
    | some dbs =>
      by_cases hread : ∃ db, dbs.lookup c.ns = some db ∧
          (c.module.name ∈ db.config.r ∨ c.module.name ∈ db.config.rw)
      · obtain ⟨db, hdb, hread⟩ := hread
        have hlookup : inst.sharedDb c.ns = some db := by
          simp [Instance.sharedDb, hst, hdbs, hdb]
        have hlimit : c.limit = some db.config.sizeLimit := by
          simp [StlCall.limit, hshared, hlookup]
        have hwrite : c.module.name ∈ db.config.rw :=
          hread.elim (hrw hshared db hlookup) id
        apply probeThen_yields
        · rw [Frame.getShared_eq _ c.guest.ns_fits c.guest.key_fits hdbs hdb (by simpa [canRead])]
          exact getCommon_yields
        · intro old hold
          rw [Frame.insertShared_eq _ c.guest.ns_fits c.guest.key_fits c.guest.value_fits hvalue hdbs
            hdb (by simpa [canWrite])]
          exact insertCommon_yields hlimit hold c.guest.value_fits (Frame.data_at _)
      · rw [Frame.getShared_refused _ c.guest.ns_fits hdbs]
        · exact refused_yields (by decide)
        · intro db hdb
          have hnot : ¬ (c.module.name ∈ db.config.r ∨ c.module.name ∈ db.config.rw) :=
            fun h => hread ⟨db, hdb, h⟩
          simpa [canRead] using hnot

end whole

/-- The condition on a schedule: it concerns the steps of the library's inserts only. -/
def Assumes : Work inst → WriteNotes → HostRequest Loc → Outcome → HostState Loc T → Prop
  | .host _ => fun _ _ _ _ => True
  | .stl c => Undisturbed c

def Starts : Work inst → Prop
  | .host _ => True
  | .stl c => Permitted c

def Kept : Work inst → Answer → WriteNotes → Prop
  | .stl _, .stl r, g => Contract r g
  | _, _, _ => True

theorem work_yields (keysToJson : List String → Option String) (w : Work inst) (t : T)
    (hw : Starts w) : (w.code keysToJson).Yields (hostReply t) WriteNotes.add (Assumes w) (Kept w)
      ⟨none, false⟩ := by
  cases w with
  | host c => exact Prog.Yields.mono (fun _ _ _ => trivial) (Prog.yields_true _ _)
  | stl c =>
    have hcode : c.code.Yields (hostReply t) WriteNotes.add (Undisturbed c) Contract ⟨none, false⟩ := by
      cases hshared : c.shared with
      | false => exact insert_yields hw hshared
      | true => exact insertShared_yields hw hshared
    exact Prog.Yields.bind hcode

variable [DecidableEq T]

/-- In every interleaving that leaves the inserts undisturbed, each of them keeps the error
contract when it has returned. -/
theorem insert_error_contract (keysToJson : List String → Option String)
    {σ τ : Config (HostRequest Loc) HostReply (HostState Loc T) (Work inst) Answer WriteNotes T}
    (hidle : ∀ t, σ.threads t = none) {as : List (Action Outcome (Work inst) T)}
    (hcond : (callers T inst keysToJson).Along (Granted Assumes Starts) σ as)
    (hrun : (callers T inst keysToJson).run σ as = some τ) {t : T} {c : StlCall inst} {r : StlReturn}
    {g : WriteNotes} (ht : τ.threads t = some ⟨.stl c, .done (.stl r), g⟩) :
    (∀ e, r.result = .error e → g.changed = false) ∧
    (∀ code, r.copiedSize = some code → code < 0 → r.result = .error (.ofCode code)) ∧
    (r.result = .error .storageLimitReached ↔
      r.copiedSize = some FunctionErrors.storageLimitReached.code) := by
  have hstart : EndWell (callers T inst keysToJson) Assumes Kept σ := by
    intro t th ht
    rw [hidle t] at ht
    cases ht
  have hend := endWell_run (fun w t hw => work_yields keysToJson w t hw) hstart hcond hrun
  exact hend t _ ht

section example_run
open StorageIsolation

omit [DecidableEq Loc] in
instance (w : Work inst) (g : WriteNotes) (e : HostRequest Loc) (o : Outcome) (s : HostState Loc T) :
    Decidable (Assumes w g e o s) :=
  match w with
  | .host _ => inferInstanceAs (Decidable True)
  | .stl c => inferInstanceAs (Decidable (Undisturbed c g e o s))

omit [DecidableEq Loc] in
instance : DecidablePred (Starts : Work inst → Prop) := fun w =>
  match w with
  | .host _ => inferInstanceAs (Decidable True)
  | .stl c => inferInstanceAs (Decidable (Permitted c))

/-- Both rules may write to the database. -/
abbrev twoWriters : Instance CounterName := rulesSharing ⟨.limited 20, [], ["a.wasm", "b.wasm"]⟩

/-- The first rule puts two bytes under `k`, in the database or in its own namespace. -/
def putBoard : StlCall twoWriters :=
  ⟨writerModule, rfl, true, "board", "k", [7, 8], .packed _ _ _ (by decide)⟩

def putOwn : StlCall twoWriters :=
  ⟨writerModule, rfl, false, "", "long_key_", [7, 8], .packed _ _ _ (by decide)⟩

/-- The second rule puts three bytes under the same key. -/
def otherPut : HostCall twoWriters :=
  ⟨readerModule, rfl, some ⟨asBytes "boardk" ++ [1, 2, 3]⟩, .insertShared 0 5 5 1 6 3 0 0⟩

abbrev Callers := Config (HostRequest CounterName) HostReply (HostState CounterName Bool)
  (Work twoWriters) Answer WriteNotes Bool

def idle : Callers := ⟨⟨fun _ => ∅, fun _ => 0, fun _ => none, fun _ => false⟩, fun _ => none⟩

/-- What an insert has returned, and whether it changed its key. -/
def returned (τ : Callers) (t : Bool) : Option (StlReturn × Bool) :=
  match τ.threads t with
  | some ⟨.stl _, .done (.stl r), g⟩ => some (r, g.changed)
  | _ => none

def steps (n : ℕ) (t : Bool) : List (Action Outcome (Work twoWriters) Bool) :=
  List.replicate n (.step t .ok)

theorem returned_inv {τ : Callers} {t : Bool} {r : StlReturn} {changed : Bool}
    (h : returned τ t = some (r, changed)) :
    ∃ c g, τ.threads t = some ⟨.stl c, .done (.stl r), g⟩ ∧ g.changed = changed := by
  unfold returned at h
  split at h
  · rename_i c r' g ht
    cases h
    exact ⟨c, g, ht, rfl⟩
  · cases h

/-- Without interference the insert returns the three bytes it replaced. -/
theorem insert_error_contract_board :
    ∃ τ c g, (callers Bool twoWriters fun _ => none).run idle (.start true (.host otherPut) ::
        steps 7 true ++ .start false (.stl putBoard) :: steps 8 false) = some τ ∧
      τ.threads false = some ⟨.stl c, .done (.stl ⟨3, some 3, .ok [1, 2, 3]⟩), g⟩ ∧
      Contract ⟨3, some 3, .ok [1, 2, 3]⟩ g := by
  have hrun : ((callers Bool twoWriters fun _ => none).run idle (.start true (.host otherPut) ::
      steps 7 true ++ .start false (.stl putBoard) :: steps 8 false)).map
      (fun τ => returned τ false) = some (some (⟨3, some 3, .ok [1, 2, 3]⟩, true)) := by
    decide +kernel
  have hcond : (callers Bool twoWriters fun _ => none).Along (Granted Assumes Starts) idle
      (.start true (.host otherPut) :: steps 7 true ++ .start false (.stl putBoard) ::
        steps 8 false) := by
    decide +kernel
  obtain ⟨τ, hτ, hreturned⟩ := Option.map_eq_some_iff.mp hrun
  obtain ⟨c, g, ht, -⟩ := returned_inv hreturned
  exact ⟨τ, c, g, hτ, ht, insert_error_contract (fun _ => none) (fun _ => rfl) hcond hτ ht⟩

/-- The other rule writes between the two host calls: the insert has stored its value and
returns an error. And a write that the host refuses for its quota is reported as a short
buffer. -/
theorem insert_error_after_write :
    ((callers Bool twoWriters fun _ => none).run idle
      (.start false (.stl putBoard) :: steps 1 false ++ .start true (.host otherPut) ::
        steps 7 true ++ steps 7 false)).map (fun τ => returned τ false) =
      some (some (⟨0, some 3, .error .returnBufferTooSmall⟩, true)) ∧
    ((callers Bool twoWriters fun _ => none).run idle
      (.start false (.stl putOwn) :: steps 6 false)).map (fun τ => returned τ false) =
      some (some (⟨0, some (-10), .error .returnBufferTooSmall⟩, false)) := by
  constructor <;> decide +kernel

end example_run
end PlaidRuntime.StlErrors
