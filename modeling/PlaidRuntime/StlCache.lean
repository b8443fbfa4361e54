import PlaidRuntime.CacheBackends
import PlaidRuntime.RelyGuarantee
import PlaidRuntime.StlStorage

/-!
# The cache as rules see it

The cache functions of the standard library (`plaid-stl/src/plaid/cache.rs`) over the host functions
behind them (`functions/cache.rs`), for executions that use the cache at the same time. A call asks
for a size first, and by the time of its second host call the entry can be another one.
-/
namespace PlaidRuntime.StlCache
open EffectProgram LockMonitor RelyGuarantee MachineWord GuestMemory CacheBackends
open StorageHost (previousValue)
open StlStorage (PlaidFunctionError Guest Frame lenOf bytesAt heldLength previousValue_exact
  previousValue_probe)

inductive Request
  | put (ns key value : String)
  | get (ns key : String)

/-- `none` when the timeout of a host call has elapsed. -/
abbrev Reply : Request → Type := fun _ => Option (Except CacheError (Option String))

abbrev Program := Prog Request Reply

open Prog

section host

/-- The common ending of the host functions; an error of the cache is logged. -/
def answerOf (m : MemoryView) (dataBuffer dataBufferLen : UInt32) :
    Option (Except CacheError (Option String)) → HostResult
  | none => fail .timeoutElapsed (some m)
  | some (.error _) => fail .cacheDisabled (some m)
  | some (.ok (some value)) => writeBack m (asBytes value) dataBuffer dataBufferLen
  | some (.ok none) => ⟨.ok 0, some m⟩

def cacheInsert (configured : Bool) (module : String) (memory : Option MemoryView)
    (keyBuf keyBufLen valueBuf valueBufLen dataBuffer dataBufferLen : UInt32) : Program HostResult :=
  if configured then
    match memory with
    | none => .done (fail .couldNotGetAdequateMemory none)
    | some m =>
      match safelyGetString m keyBuf keyBufLen with
      | .error _ => .done (fail .parametersNotUtf8 (some m))
      | .ok key =>
        match safelyGetString m valueBuf valueBufLen with
        | .error _ => .done (fail .couldNotGetAdequateMemory (some m))
        | .ok value => do
          let reply ← perform (.put module key value)
          return answerOf m dataBuffer dataBufferLen reply
  else .done (fail .cacheDisabled memory)

def cacheGet (configured : Bool) (module : String) (memory : Option MemoryView)
    (keyBuf keyBufLen dataBuffer dataBufferLen : UInt32) : Program HostResult :=
  if configured then
    match memory with
    | none => .done (fail .couldNotGetAdequateMemory none)
    | some m =>
      match safelyGetString m keyBuf keyBufLen with
      | .error _ => .done (fail .parametersNotUtf8 (some m))
      | .ok key => do
        let reply ← perform (.get module key)
        return answerOf m dataBuffer dataBufferLen reply
  else .done (fail .cacheDisabled memory)

end host

section library

/-- What a library call comes to; `panicked` is the `unwrap` of text that is not UTF-8. -/
inductive StlResult
  | ok (s : String)
  | err (e : PlaidFunctionError)
  | panicked
  deriving DecidableEq

/-- The data are kept when the second call returns the size the first one did. -/
def finish (bufferSize : ℤ) (copied : HostResult) (dataPtr : UInt32) : StlResult :=
  if copied.i32 = bufferSize then
    match fromUtf8 (bytesAt copied dataPtr bufferSize.toNat) with
    | some s => .ok s
    | none => .panicked
  else .err .returnBufferTooSmall

/-- The body the two functions share. -/
def probeThen (probe : Program HostResult) (second : ℕ → Program HostResult) (dataPtr : ℕ → UInt32) :
    Program StlResult := do
  let probed ← probe
  let bufferSize := probed.i32
  if bufferSize < 0 then return .err (.ofCode bufferSize)
  else do
    let copied ← second bufferSize.toNat
    return finish bufferSize copied (dataPtr bufferSize.toNat)

variable (configured : Bool) (module : String)

def insert {key value : String} (g : Guest "" key (asBytes value)) : Program StlResult :=
  probeThen
    (cacheGet configured module (some g.probe.memory) g.probe.keyPtr (lenOf key) g.probe.dataPtr 0)
    (fun n => cacheInsert configured module (some (g.second n).memory) (g.second n).keyPtr (lenOf key)
      (g.second n).valuePtr (lenOf value) (g.second n).dataPtr (UInt32.ofNat n))
    fun n => (g.second n).dataPtr

def get {key : String} (g : Guest "" key []) : Program StlResult :=
  probeThen
    (cacheGet configured module (some g.probe.memory) g.probe.keyPtr (lenOf key) g.probe.dataPtr 0)
    (fun n => cacheGet configured module (some (g.second n).memory) (g.second n).keyPtr (lenOf key)
      (g.second n).dataPtr (UInt32.ofNat n))
    fun n => (g.second n).dataPtr

end library

section sharing

inductive Call
  | insert (module : String) {key value : String} (g : Guest "" key (asBytes value))
  | get (module : String) {key : String} (g : Guest "" key [])

def Call.module : Call → String
  | .insert module _ => module
  | .get module _ => module

def Call.code : Call → Program StlResult
  | .insert module g => StlCache.insert true module g
  | .get module g => StlCache.get true module g

/-- The errors an operation of a backend can end with, for any cause. -/
abbrev Failures := Request → String → Option CacheError

/-- The cache in memory does whatever a loaded module asks of it. -/
def noFailures : Failures := fun _ _ => none

/-- Any error of the connection or of the script, as `put` and `get` of Redis report it. -/
def redisFailures : Failures
  | .put _ _ _, cause => some (.putError cause)
  | .get _ _, cause => some (.getError cause)

/-- A request that is answered, with the field a Redis cache picks when it has to evict; or one
whose timeout elapses or that fails, before or after the cache has done it. -/
inductive Label
  | answered (pick : Option String)
  | elapsed (performed : Bool) (pick : Option String)
  | failed (performed : Bool) (cause : String) (pick : Option String)

variable {b : Backend} (fails : Failures)

def doRequest (s : Tracked b) :
    Request → Option String → Option (Except CacheError (Option String) × Tracked b)
  | .put ns key value, pick =>
    (b.put s.state ns key value pick).map fun r => (r.1, s.afterPut ns key value r.2)
  | .get ns key, _ =>
    let r := b.get s.state ns key
    some (r.1, { s with state := r.2 })

def reply (s : Tracked b) (e : Request) : Label → Option (Reply e × Tracked b)
  | .answered pick => (doRequest s e pick).map fun r => (some r.1, r.2)
  | .elapsed performed pick =>
    if performed then (doRequest s e pick).map fun r => (none, r.2) else some (none, s)
  | .failed performed cause pick =>
    (fails e cause).bind fun error =>
      if performed then (doRequest s e pick).map fun r => (some (.error error), r.2)
      else some (some (.error error), s)

/-- What a cache answers to a request now: the value put last under the key, unless it has been
evicted since. -/
def current (s : Tracked b) (ns key : String) : Option String :=
  if s.evicted ns key then none else s.last ns key

def Request.sees (s : Tracked b) : Request → Option String
  | .put ns key _ => current s ns key
  | .get ns key => current s ns key

/-- The cache has answered in time, and not with an error. -/
def answeredBy : Option (Except CacheError (Option String)) → Bool
  | some (.ok _) => true
  | some (.error _) => false
  | none => false

/-- What there was at a host call of a rule, and whether the call was answered. -/
structure Sight where
  answered : Bool
  value : Option String
  deriving DecidableEq

/-- The calls of loaded modules, on any threads. -/
def system (b : Backend) (loaded : String → Prop) (T : Type) :
    System Request Reply (Tracked b) Label { c : Call // loaded c.module } StlResult (List Sight) T where
  code c := c.1.code
  reply _ := reply fails
  fresh := []
  note g s e r _ := g ++ [⟨answeredBy r, e.sees s⟩]

def size (value : Option String) : ℕ := (value.getD "").utf8ByteSize

/-- A call succeeds exactly when both of its host calls are answered and see entries of one size; it
then returns what there was at the second. -/
structure Ended (a : StlResult) (g : List Sight) : Prop where
  unwraps : a ≠ .panicked
  ok : ∀ s, a = .ok s ↔ ∃ x y, g = [⟨true, x⟩, ⟨true, y⟩] ∧ size x = size y ∧ s = y.getD ""

end sharing

section answers
variable {m : MemoryView} {buffer : UInt32}

theorem answerOf_ok (len : UInt32) (value : Option String) :
    answerOf m buffer len (some (.ok value)) =
      previousValue m buffer len (.ok (value.map asBytes)) := by
  cases value <;> rfl

theorem heldLength_map (value : Option String) : heldLength (value.map asBytes) = size value := by
  cases value with
  | none => rfl
  | some v => rfl

theorem probe_i32 {value : Option String} (h : size value < 2 ^ 31) :
    (answerOf m buffer 0 (some (.ok value))).i32 = size value := by
  rw [answerOf_ok, previousValue_probe, heldLength_map]
  exact asI32_of_lt h

/-- An entry of another size gives another code. -/
theorem copy_i32_ne {value : Option String} {n : ℕ} (hn : n < 2 ^ 31) (h : size value < 2 ^ 31)
    (hne : size value ≠ n) :
    (answerOf m buffer (UInt32.ofNat n) (some (.ok value))).i32 ≠ n := by
  cases value with
  | none =>
    have hzero : size none = 0 := rfl
    simp only [answerOf, HostResult.i32]
    omega
  | some v =>
    have hlen : (asBytes v).length = size (some v) := rfl
    have hcode : ∀ e : FunctionErrors, e.code < 0 := fun e => by cases e <;> decide
    simp only [answerOf, writeBack, safelyWriteDataBack, toNat_ofNat_u32 hn, hlen]
    split_ifs with h0 hlt
    · simp only [HostResult.i32, asI32_of_lt h]
      omega
    · have := hcode .returnBufferTooSmall
      simp only [HostResult.i32]
      omega
    · cases m.write buffer.toNat (asBytes v) with
      | some m' =>
        simp only [HostResult.i32, asI32_of_lt h]
        omega
      | none =>
        have := hcode .couldNotGetAdequateMemory
        simp only [HostResult.i32]
        omega

/-- The end of a call whose host calls saw `x` and `y`. -/
theorem finish_ended {x y : Option String} (hx : size x < 2 ^ 31) (hy : size y < 2 ^ 31)
    (hzero : m.read buffer.toNat (size x) = some (List.replicate (size x) 0)) :
    Ended (finish (size x) (answerOf m buffer (UInt32.ofNat (size x)) (some (.ok y))) buffer)
      [⟨true, x⟩, ⟨true, y⟩] := by
  by_cases hsize : size y = size x
  · have hlt : heldLength (y.map asBytes) < 2 ^ 31 := by rwa [heldLength_map]
    have hbuf : m.read buffer.toNat (heldLength (y.map asBytes)) =
        some (List.replicate (size x) 0) := by
      rw [heldLength_map, hsize]
      exact hzero
    have hret := previousValue_exact hlt hbuf
    rw [heldLength_map, hsize, ← answerOf_ok] at hret
    have htext : fromUtf8 ((y.map asBytes).getD []) = some (y.getD "") := by
      cases y with
      | none => exact fromUtf8_asBytes ""
      | some v => exact fromUtf8_asBytes v
    have hfinish : finish (size x) (answerOf m buffer (UInt32.ofNat (size x)) (some (.ok y))) buffer =
        .ok (y.getD "") := by
      simp only [finish, hret.1, if_true, Int.toNat_natCast, hret.2, htext]
    rw [hfinish]
    refine ⟨by simp, fun s => ⟨fun h => ?_, fun h => ?_⟩⟩
    · cases h
      exact ⟨x, y, rfl, hsize.symm, rfl⟩
    · obtain ⟨_, _, hg, -, rfl⟩ := h
      cases hg
      rfl
  · have hfinish : finish (size x) (answerOf m buffer (UInt32.ofNat (size x)) (some (.ok y))) buffer =
        .err .returnBufferTooSmall := by
      rw [finish, if_neg (copy_i32_ne hx hy hsize)]
    rw [hfinish]
    refine ⟨by simp, fun s => ⟨fun h => by simp at h, fun h => ?_⟩⟩
    obtain ⟨_, _, hg, hs, -⟩ := h
    cases hg
    exact absurd hs.symm hsize

/-- A call with a host call that was not answered. -/
theorem unanswered_ended {e : PlaidFunctionError} {g : List Sight} (h : ∃ s ∈ g, s.answered = false) :
    Ended (.err e) g := by
  refine ⟨by simp, fun s => ⟨fun h => by simp at h, fun hg => ?_⟩⟩
  obtain ⟨x, y, rfl, -, -⟩ := hg
  simp at h

end answers

section runs
variable {b : Backend} {Inv : b.State → Prop} {loaded : String → Prop} {limit : String → ℕ}
  {fails : Failures} {T : Type} {s s' : Tracked b}

/-- The ghost explains the contents, and what is in the cache has been in the memory of a guest. -/
structure Sound (Inv : b.State → Prop) (s : Tracked b) : Prop where
  inv : Inv s.state
  explains : Explains s
  fits : ∀ ns key v, s.last ns key = some v → v.utf8ByteSize < 2 ^ 31

def Fits (loaded : String → Prop) : Request → Prop
  | .put ns _ value => loaded ns ∧ value.utf8ByteSize < 2 ^ 31
  | .get ns _ => loaded ns

theorem Sound.size_current (h : Sound Inv s) (ns key : String) : size (current s ns key) < 2 ^ 31 := by
  unfold current
  split_ifs with he
  · simp [size]
  · cases hl : s.last ns key with
    | none => simp [size]
    | some v => exact h.fits ns key v hl

theorem Sound.size_sees (h : Sound Inv s) (e : Request) : size (e.sees s) < 2 ^ 31 := by
  cases e with
  | put ns key value => exact h.size_current ns key
  | get ns key => exact h.size_current ns key

/-- A request that is done is answered with what there is, and leaves the cache sound. -/
theorem doRequest_spec (hb : Serves b Inv loaded limit) (h : Sound Inv s) {e : Request}
    (he : Fits loaded e) {pick : Option String} {r : Except CacheError (Option String)}
    (hr : doRequest s e pick = some (r, s')) : r = .ok (e.sees s) ∧ Sound Inv s' := by
  cases e with
  | put ns key value =>
    obtain ⟨⟨r', s₁⟩, hput, heq⟩ := Option.map_eq_some_iff.mp hr
    cases heq
    obtain ⟨hold, hw, hothers, hinv⟩ := hb.put _ _ _ _ _ _ _ h.inv he.1 hput
    refine ⟨by rw [hold, h.explains.held]; rfl, hinv, explains_afterPut h.explains hw hothers, ?_⟩
    intro ns' key' v hv
    simp only [Tracked.afterPut] at hv
    by_cases hn : ns' = ns
    · subst hn
      rw [Function.update_self] at hv
      by_cases hk : key' = key
      · subst hk
        rw [Function.update_self] at hv
        cases hv
        exact he.2
      · rw [Function.update_of_ne hk] at hv
        exact h.fits _ _ _ hv
    · rw [Function.update_of_ne hn] at hv
      exact h.fits _ _ _ hv
  | get ns key =>
    cases hr
    obtain ⟨hheld, hsame, hinv⟩ := hb.get _ ns key _ _ h.inv he rfl
    exact ⟨by rw [hheld, h.explains.held]; rfl, hinv,
      ⟨fun m k => (hsame m k).trans (h.explains.held m k)⟩, h.fits⟩

theorem reply_spec (hb : Serves b Inv loaded limit) (h : Sound Inv s) {e : Request}
    (he : Fits loaded e) {l : Label} {r : Reply e} (hr : reply fails s e l = some (r, s')) :
    (answeredBy r = false ∨ r = some (.ok (e.sees s))) ∧ Sound Inv s' := by
  cases l with
  | answered pick =>
    obtain ⟨⟨r', s₁⟩, hdo, heq⟩ := Option.map_eq_some_iff.mp hr
    cases heq
    obtain ⟨rfl, hsound⟩ := doRequest_spec hb h he hdo
    exact ⟨.inr rfl, hsound⟩
  | elapsed performed pick =>
    simp only [reply] at hr
    split_ifs at hr
    · obtain ⟨⟨r', s₁⟩, hdo, heq⟩ := Option.map_eq_some_iff.mp hr
      cases heq
      exact ⟨.inl rfl, (doRequest_spec hb h he hdo).2⟩
    · cases hr
      exact ⟨.inl rfl, h⟩
  | failed performed cause pick =>
    obtain ⟨error, -, hr⟩ := Option.bind_eq_some_iff.mp hr
    split_ifs at hr
    · obtain ⟨⟨r', s₁⟩, hdo, heq⟩ := Option.map_eq_some_iff.mp hr
      cases heq
      exact ⟨.inl rfl, (doRequest_spec hb h he hdo).2⟩
    · cases hr
      exact ⟨.inl rfl, h⟩

/-- Nothing is taken for granted about the other threads but that they leave the cache sound. -/
def sharing (Inv : b.State → Prop) (fails : Failures) (loaded : String → Prop) (T : Type) :
    Contract (system fails b loaded T) where
  Inv := Sound Inv
  Rely _ _ _ := True
  Ready _ _ := True
  At _ e _ := Fits loaded e
  Ends _ _ a g _ := Ended a g
  rely_refl _ _ := trivial
  rely_trans _ _ _ _ _ _ := trivial
  ready_stable _ _ _ _ _ := trivial
  at_stable _ _ _ _ _ h := h
  ends_stable _ _ _ _ _ _ _ h := h
  ends_ready _ _ _ _ _ _ := trivial

theorem safe_perform (hb : Serves b Inv loaded limit) {α : Type} {t : T}
    {Q : α → List Sight → Tracked b → Prop} {e : Request} {f : Reply e → Program α}
    {g : List Sight} (he : Fits loaded e)
    (hf : ∀ s s' (r : Reply e), Sound Inv s → answeredBy r = false ∨ r = some (.ok (e.sees s)) →
      (sharing Inv fails loaded T).Safe t Q (f r) (g ++ [⟨answeredBy r, e.sees s⟩]) s') :
    (sharing Inv fails loaded T).Safe t Q (.request e f) g s := by
  refine ⟨he, fun s₁ l r s₂ _ hsound hr => ?_⟩
  obtain ⟨hwhich, hsound'⟩ := reply_spec hb hsound he hr
  exact ⟨hsound', fun _ _ => trivial, hf s₁ s₂ r hsound hwhich⟩

theorem cacheGet_eq {module key : String} {value : Bytes} {n : ℕ}
    (f : Frame (asBytes "") (asBytes key) value n) (hkey : key.utf8ByteSize < 2 ^ 31) (len : UInt32) :
    cacheGet true module (some f.memory) f.keyPtr (lenOf key) f.dataPtr len =
      .request (.get module key) fun r => .done (answerOf f.memory f.dataPtr len r) := by
  simp only [cacheGet, if_true, f.key_string hkey]
  rfl

theorem cacheInsert_eq {module key value : String} {n : ℕ}
    (f : Frame (asBytes "") (asBytes key) (asBytes value) n) (hkey : key.utf8ByteSize < 2 ^ 31)
    (hvalue : value.utf8ByteSize < 2 ^ 31) (len : UInt32) :
    cacheInsert true module (some f.memory) f.keyPtr (lenOf key) f.valuePtr (lenOf value) f.dataPtr
      len = .request (.put module key value) fun r => .done (answerOf f.memory f.dataPtr len r) := by
  have hread : safelyGetString f.memory f.valuePtr (lenOf value) = .ok value := by
    apply safelyGetString_of_read
    rw [StlStorage.toNat_lenOf hvalue]
    exact f.value_at
  simp only [cacheInsert, if_true, f.key_string hkey, hread]
  rfl

/-- A host call that is not answered returns an error code. -/
theorem unanswered_negative {r : Option (Except CacheError (Option String))}
    (h : answeredBy r = false) (m : MemoryView) (buffer len : UInt32) :
    (answerOf m buffer len r).i32 < 0 := by
  match r, h with
  | none, _ => exact (by decide : FunctionErrors.timeoutElapsed.code < 0)
  | some (.error _), _ => exact (by decide : FunctionErrors.cacheDisabled.code < 0)

/-- The second host call, after one that saw `x`. -/
theorem safe_second (hb : Serves b Inv loaded limit) {t : T} {e : Request} {m : MemoryView}
    {buffer : UInt32} {x : Option String} (hx : size x < 2 ^ 31) (he : Fits loaded e)
    (hzero : m.read buffer.toNat (size x) = some (List.replicate (size x) 0)) :
    (sharing Inv fails loaded T).Safe t (fun a g _ => Ended a g)
      (.request e fun r => .done
        (finish (size x) (answerOf m buffer (UInt32.ofNat (size x)) r) buffer)) [⟨true, x⟩] s := by
  refine safe_perform hb he fun s₁ s₂ r hsound hr => ?_
  obtain hr | rfl := hr
  · have hneg := unanswered_negative hr m buffer (UInt32.ofNat (size x))
    have hfinish : finish (size x) (answerOf m buffer (UInt32.ofNat (size x)) r) buffer =
        .err .returnBufferTooSmall := by
      rw [finish, if_neg (by omega)]
    show Ended _ _
    rw [hfinish, hr]
    exact unanswered_ended ⟨⟨false, e.sees s₁⟩, by simp, rfl⟩
  · exact finish_ended hx (hsound.size_sees e) hzero

theorem safe_probeThen (hb : Serves b Inv loaded limit) {t : T} {e e' : Request} {m : MemoryView}
    {buffer : UInt32} {memory : ℕ → MemoryView} {dataPtr : ℕ → UInt32} (he : Fits loaded e)
    (he' : Fits loaded e')
    (hzero : ∀ n, (memory n).read (dataPtr n).toNat n = some (List.replicate n 0)) :
    (sharing Inv fails loaded T).Safe t (fun a g _ => Ended a g)
      (probeThen (.request e fun r => .done (answerOf m buffer 0 r))
        (fun n => .request e' fun r => .done (answerOf (memory n) (dataPtr n) (UInt32.ofNat n) r))
        dataPtr) [] s := by
  simp only [probeThen, request_bind, done_bind]
  refine safe_perform hb he fun s₁ s₂ r hsound hr => ?_
  obtain hr | rfl := hr
  · have hneg := unanswered_negative hr m buffer 0
    rw [if_pos hneg, hr]
    exact unanswered_ended ⟨⟨false, e.sees s₁⟩, by simp, rfl⟩
  · have hx := hsound.size_sees e
    have hprobe : (answerOf m buffer 0 (some (.ok (e.sees s₁)))).i32 = size (e.sees s₁) := probe_i32 hx
    simp only [hprobe, Int.toNat_natCast]
    rw [if_neg (by omega)]
    exact safe_second hb hx he' (hzero _)

theorem safe_code (hb : Serves b Inv loaded limit) (t : T) (c : { c : Call // loaded c.module }) :
    (sharing Inv fails loaded T).Safe t (fun a g _ => Ended a g) c.1.code [] s := by
  obtain ⟨c, hc⟩ := c
  cases c with
  | insert module g =>
    simp only [Call.code, insert, cacheGet_eq _ g.key_fits, cacheInsert_eq _ g.key_fits g.value_fits]
    exact safe_probeThen hb hc ⟨hc, g.value_fits⟩ fun n => (g.second n).data_at
  | get module g =>
    simp only [Call.code, get, cacheGet_eq _ g.key_fits]
    exact safe_probeThen hb hc hc fun n => (g.second n).data_at

/-- In every interleaving of cache calls from here on, what the backend holds is what was put last
and has not been evicted, and every call ends as it should. -/
def CallsEndWell (b : Backend) (fails : Failures) (loaded : String → Prop) (s : b.State) : Prop :=
  ∀ (T : Type) [DecidableEq T] as σ,
    (system fails b loaded T).run ⟨.fresh b s, fun _ => none⟩ as = some σ →
    Explains σ.shared ∧ ∀ t c a g, σ.threads t = some ⟨c, .done a, g⟩ → Ended a g

theorem callsEndWell (hb : Serves b Inv loaded limit) {s : b.State} (hi : Inv s)
    (hempty : ∀ m, b.held s m = ∅) : CallsEndWell b fails loaded s := by
  intro T _ as σ hr
  have hstart : (sharing Inv fails loaded T).Good ⟨.fresh b s, fun _ => none⟩ :=
    ⟨⟨hi, explains_fresh hempty, fun _ _ _ h => by cases h⟩, fun _ => trivial⟩
  have hgood := Contract.good_run (fun t c _ _ _ => safe_code hb t c) hstart hr
  exact ⟨hgood.inv.explains, fun t c a g ht => hgood.ends ht⟩

/-- Rules that share a cache, in memory or in a Redis that evicts and whose requests may fail: a
library call that succeeds returns what was put last under its key before its second host call,
unless that has been evicted, and it succeeds exactly when both host calls are answered and the
entry has kept its size between them. -/
theorem stl_cache_calls {c : LimitedAmount} (hc : c.Positive) (ms : Modules) :
    (∀ s, InMemoryCache.new ms c = some s → CallsEndWell inMemory noFailures (Loaded ms) s) ∧
    CallsEndWell (redis (evicting c)) redisFailures (Loaded ms) fun _ => ∅ := by
  constructor
  · intro s hs
    obtain ⟨s', hs', hi, hempty⟩ := @inMemory_new c ms hc
    cases hs.symm.trans hs'
    exact callsEndWell (inMemory_serves hc) hi hempty
  · have hserves := @redis_serves c (Loaded ms) (maxEntries c) hc fun m _ => le_refl _
    exact callsEndWell hserves (fun m => Nat.zero_le _) fun _ => rfl

theorem stl_cache_calls_sample :
    CallsEndWell (redis (evicting (auditLimit 1))) redisFailures (Loaded auditModules) fun _ => ∅ :=
  (stl_cache_calls (auditLimit_positive (by decide)) auditModules).2

end runs

end PlaidRuntime.StlCache
