import PlaidRuntime.LockMonitor
import PlaidRuntime.StorageInstance

/-!
# The metered critical sections

Threads serve storage calls on the common host state. For one namespace `ns` with the
counter `loc` and the limit `limit`, the monitor of the counter's lock protects the entries
of the namespace and the counter. `lead` is how far the counter runs ahead of the bytes
stored; it is zero as long as nobody else writes to the namespace.
-/
namespace PlaidRuntime.StorageMetering
open EffectProgram LockMonitor KeyedContent MachineWord GuestMemory StorageProvider StorageHost
  StorageInstance

/-- Observations about one call, for the namespace under study. -/
structure CallNotes where
  /-- Some `u64` subtraction of the call went below zero. -/
  underflowed : Bool
  /-- A step of the call changed the entries of the namespace or its counter. -/
  changed : Bool
  /-- The backend accepted an insert of the call. -/
  wrote : Bool
  /-- Bytes stored in the namespace right after that insert. -/
  stored : Option ℕ
  /-- The counter when the call gave its lock back. -/
  released : Option ℕ
  deriving DecidableEq

def CallNotes.fresh : CallNotes := ⟨false, false, false, none, none⟩

variable {Loc T X C : Type} [DecidableEq Loc]

def underflows : HostRequest Loc → Bool
  | .subU64 a b => decide (a < b)
  | _ => false

def accepted : (e : HostRequest Loc) → HostReply e → Bool
  | .backend (.insert _ _ _), .ok _ => true
  | _, _ => false

def movesCounter (s s' : HostState Loc T) : HostRequest Loc → Bool
  | .writeCounter c _ => s'.counter c != s.counter c
  | .populate c _ => s'.counter c != s.counter c
  | _ => false

def CallNotes.add (ns : String) (g : CallNotes) (s : HostState Loc T)
    (e : HostRequest Loc) (r : HostReply e) (s' : HostState Loc T) : CallNotes where
  underflowed := g.underflowed || underflows e
  changed := g.changed || (!decide (s'.store ns = s.store ns) || movesCounter s s' e)
  wrote := g.wrote || accepted e r
  stored := if accepted e r then some (byteSize (s'.store ns)) else g.stored
  released := match e with
    | .unlock c => some (s'.counter c)
    | _ => g.released

/-- The protected part: entries, counter and lead. -/
abbrev Metered := Content × ℕ × ℤ

/-- The counter is ahead of the bytes stored by exactly the lead. -/
def Metered.Balanced (o : Metered) : Prop := (o.2.1 : ℤ) = byteSize o.1 + o.2.2 ∧ o.2.1 < 2 ^ 64

/-- The counter does not lag behind the bytes stored, and it fits a `u64` also with the
bytes of a pending insert. -/
def Metered.Usable (bytes : ℕ) (o : Metered) : Prop :=
  0 ≤ o.2.2 ∧ (byteSize o.1 : ℤ) + o.2.2 + bytes < 2 ^ 64

theorem existingDataSize_eq {content : Content} {key : String} (h : byteSize content < 2 ^ 64) :
    existingDataSize key (content.lookup key) = weightAt entrySize content key := by
  have hle := weightAt_le entrySize content key
  cases hk : content.lookup key with
  | none => simp [existingDataSize, weightAt_none entrySize content key hk]
  | some d =>
    have hw := weightAt_some entrySize content key hk
    have hs : d.length + key.utf8ByteSize < 2 ^ 64 := by
      rw [hw, entrySize] at hle
      rw [byteSize] at h
      omega
    rw [hw, existingDataSize, addU64_of_lt hs, entrySize, Nat.add_comm]

section arithmetic
variable {o : Metered}

theorem Metered.Balanced.byteSize_le {content : Content} {used limit : ℕ} {lead : ℤ}
    (h : Metered.Balanced (content, used, lead)) (hlead : 0 ≤ lead) (hl : used ≤ limit) :
    byteSize content ≤ limit := by
  have hu : (used : ℤ) = byteSize content + lead := h.1
  omega

/-- The size an insert computes before it decides is the size it leaves behind. -/
theorem wouldBeUsedStorage_eq {key : String} {value : Bytes} (hb : o.Balanced)
    (hu : o.Usable (key.utf8ByteSize + value.length)) :
    existingDataSize key (o.1.lookup key) ≤
        addU64 (addU64 o.2.1 key.utf8ByteSize) value.length ∧
      Metered.Balanced (o.1.insert key value, subU64 (addU64 (addU64 o.2.1 key.utf8ByteSize)
        value.length) (existingDataSize key (o.1.lookup key)), o.2.2) := by
  obtain ⟨hbal, hlt⟩ := hb
  obtain ⟨hlead, hfit⟩ := hu
  have hle : weightAt entrySize o.1 key ≤ byteSize o.1 := weightAt_le entrySize o.1 key
  have hins : byteSize (o.1.insert key value) + weightAt entrySize o.1 key =
    byteSize o.1 + (key.utf8ByteSize + value.length) := weight_insert entrySize o.1 key value
  have h1 : addU64 o.2.1 key.utf8ByteSize = o.2.1 + key.utf8ByteSize := addU64_of_lt (by omega)
  have h2 : addU64 (o.2.1 + key.utf8ByteSize) value.length = o.2.1 + key.utf8ByteSize + value.length :=
    addU64_of_lt (by omega)
  rw [h1, h2, existingDataSize_eq (by omega), subU64_of_le (by omega) (by omega)]
  refine ⟨by omega, ?_, ?_⟩
  · simp only
    omega
  · simp only
    omega

/-- Both subtractions of a delete stay above zero and account for the entry removed. -/
theorem released_eq {key : String} {data : Bytes} (hb : o.Balanced) (hlead : 0 ≤ o.2.2)
    (hk : o.1.lookup key = some data) :
    key.utf8ByteSize ≤ o.2.1 ∧ data.length ≤ subU64 o.2.1 key.utf8ByteSize ∧
      Metered.Balanced (o.1.erase key, subU64 (subU64 o.2.1 key.utf8ByteSize) data.length, o.2.2) := by
  obtain ⟨hbal, hlt⟩ := hb
  have hle : weightAt entrySize o.1 key ≤ byteSize o.1 := weightAt_le entrySize o.1 key
  have her : byteSize (o.1.erase key) + weightAt entrySize o.1 key = byteSize o.1 :=
    weight_erase entrySize o.1 key
  have hw : weightAt entrySize o.1 key = key.utf8ByteSize + data.length :=
    weightAt_some entrySize o.1 key hk
  have h1 : subU64 o.2.1 key.utf8ByteSize = o.2.1 - key.utf8ByteSize :=
    subU64_of_le (by omega) hlt
  have h2 : subU64 (o.2.1 - key.utf8ByteSize) data.length =
      o.2.1 - key.utf8ByteSize - data.length := subU64_of_le (by omega) (by omega)
  rw [h1, h2]
  refine ⟨by omega, by omega, ?_, ?_⟩
  · simp only
    omega
  · simp only
    omega

end arithmetic

/-- One namespace with its counter and limit, and the calls that threads may serve. `X` is
bookkeeping beside the host state that no program reads; `tick` keeps it. -/
structure Meter (Loc T X C : Type) where
  code : C → HostProg Loc HostResult
  ns : String
  loc : Loc
  limit : ℕ
  tick : T → X → HostState Loc T → (e : HostRequest Loc) → HostReply e → HostState Loc T → X
  lead : X → ℤ
  targets : C → Prop
  isInsert : C → Bool
  bytes : C → ℕ
  serves : T → C → Prop
  allows : C → HostRequest Loc → HostState Loc T × X → Prop
  usable : ∀ c e s, targets c → allows c e s →
    Metered.Usable (bytes c) (s.1.store ns, s.1.counter loc, lead s.2)
  own : ∀ t c x s e r s', serves t c → targets c → (∀ l n, e ≠ .populate l n) →
    lead (tick t x s e r s') = lead x

/-- The common host state under calls, with the bookkeeping `X`. -/
def hostSystem (code : C → HostProg Loc HostResult) (ns : String)
    (tick : T → X → HostState Loc T → (e : HostRequest Loc) → HostReply e → HostState Loc T → X) :
    System (HostRequest Loc) HostReply (HostState Loc T × X) Outcome C HostResult CallNotes T where
  code := code
  reply t s e o := (hostReply t s.1 e o).map fun r => (r.1, r.2, tick t s.2 s.1 e r.1 r.2)
  fresh := .fresh
  note g s e r s' := g.add ns s.1 e r s'.1

theorem hostSystem_reply {code : C → HostProg Loc HostResult} {ns : String}
    {tick : T → X → HostState Loc T → (e : HostRequest Loc) → HostReply e → HostState Loc T → X} {t : T}
    {s s' : HostState Loc T × X} {e : HostRequest Loc} {o : Outcome} {r : HostReply e}
    (h : (hostSystem code ns tick).reply t s e o = some (r, s')) :
    hostReply t s.1 e o = some (r, s'.1) ∧ s'.2 = tick t s.2 s.1 e r s'.1 := by
  obtain ⟨⟨r', h'⟩, hr, he⟩ := Option.map_eq_some_iff.mp h
  cases he
  exact ⟨hr, rfl⟩

namespace Meter
variable (M : Meter Loc T X C)

abbrev system := hostSystem M.code M.ns M.tick

def view (s : HostState Loc T × X) : Metered := (s.1.store M.ns, s.1.counter M.loc, M.lead s.2)

def monitor : Monitor M.system Metered where
  holder s := s.1.holder M.loc
  view := M.view
  Inv := Metered.Balanced
  member := M.targets
  serves := M.serves
  allows := M.allows
  Noted _ g := g.underflowed = false ∧ ∀ b, g.stored = some b → b ≤ M.limit
  Returns c a g := M.isInsert c = true →
    (g.wrote = true → ∃ n, g.released = some n ∧ n ≤ M.limit) ∧
    (a.ret = .error .storageLimitReached ∨ a.ret = .error .internalApiError → g.changed = false)

end Meter

omit [DecidableEq Loc] in
/-- A request that leaves entries and counters alone leaves no trace in the notes. -/
theorem add_unchanged {ns : String} {g : CallNotes} {s s' : HostState Loc T}
    {e : HostRequest Loc} {r : HostReply e} (hs : s'.store ns = s.store ns)
    (hm : movesCounter s s' e = false) (hu : underflows e = false) (ha : accepted e r = false)
    (hn : ∀ c, e ≠ .unlock c) : g.add ns s e r s' = g := by
  rcases g with ⟨u, ch, w, st, re⟩
  cases e <;> simp_all [CallNotes.add]

/-- What a `get` can answer. -/
theorem reply_get {t : T} {s s' : HostState Loc T} {ns key : String} {o : Outcome}
    {r : Except StorageError (Option Bytes)}
    (h : hostReply t s (.backend (.get ns key)) o = some (r, s')) :
    s' = s ∧ (r = .ok ((s.store ns).lookup key) ∨ ∃ e, r = .error e) := by
  cases o with
  | ok =>
    cases h
    exact ⟨rfl, Or.inl rfl⟩
  | fails e =>
    cases h
    exact ⟨rfl, Or.inr ⟨e, rfl⟩⟩
  | okKeys _ => cases h
  | okEntries _ => cases h
  | okPage _ _ => cases h

theorem reply_insert {t : T} {s s' : HostState Loc T} {ns key : String} {value : Bytes}
    {o : Outcome} {r : Except StorageError (Option Bytes)}
    (h : hostReply t s (.backend (.insert ns key value)) o = some (r, s')) :
    r = .ok ((s.store ns).lookup key) ∧
      s' = { s with store := Function.update s.store ns ((s.store ns).insert key value) } ∨
    (∃ e, r = .error e) ∧ s' = s := by
  cases o with
  | ok =>
    cases h
    exact Or.inl ⟨rfl, rfl⟩
  | fails e =>
    cases h
    exact Or.inr ⟨⟨e, rfl⟩, rfl⟩
  | okKeys _ => cases h
  | okEntries _ => cases h
  | okPage _ _ => cases h

theorem reply_delete {t : T} {s s' : HostState Loc T} {ns key : String} {o : Outcome}
    {r : Except StorageError (Option Bytes)}
    (h : hostReply t s (.backend (.delete ns key)) o = some (r, s')) :
    r = .ok ((s.store ns).lookup key) ∧
      s' = { s with store := Function.update s.store ns ((s.store ns).erase key) } ∨
    (∃ e, r = .error e) ∧ s' = s := by
  cases o with
  | ok =>
    cases h
    exact Or.inl ⟨rfl, rfl⟩
  | fails e =>
    cases h
    exact Or.inr ⟨⟨e, rfl⟩, rfl⟩
  | okKeys _ => cases h
  | okEntries _ => cases h
  | okPage _ _ => cases h

theorem reply_listKeys {t : T} {s s' : HostState Loc T} {ns : String} {p : Option String}
    {o : Outcome} {r : Except StorageError (List String)}
    (h : hostReply t s (.backend (.listKeys ns p)) o = some (r, s')) : s' = s := by
  cases o with
  | ok => cases h
  | okEntries _ => cases h
  | okPage _ _ => cases h
  | fails e =>
    cases h
    rfl
  | okKeys keys =>
    simp only [hostReply, backendReply] at h
    split at h
    · cases h
      rfl
    · cases h

/-- A lock is refused when it is poisoned and granted when it is free. -/
theorem reply_lock {t : T} {s s' : HostState Loc T} {loc : Loc} {l : Outcome} {r : Bool}
    (h : hostReply t s (.lock loc) l = some (r, s')) :
    l = .ok ∧ (s.poisoned loc = true ∧ r = false ∧ s' = s ∨
      s.poisoned loc = false ∧ s.holder loc = none ∧ r = true ∧
        s' = { s with holder := Function.update s.holder loc (some t) }) := by
  cases l with
  | ok =>
    simp only [hostReply] at h
    split at h
    · rename_i hp
      cases h
      exact ⟨rfl, Or.inl ⟨hp, rfl, rfl⟩⟩
    · rename_i hp
      split at h
      · rename_i hfree
        cases h
        exact ⟨rfl, Or.inr ⟨Bool.eq_false_iff.mpr hp, hfree, rfl, rfl⟩⟩
      · cases h
  | _ => cases h

namespace Meter
variable {M : Meter Loc T X C} {c : C} {t : T} {o : Metered} {g : CallNotes}

theorem lead_own {e : HostRequest Loc} {s s' : HostState Loc T × X} {l : Outcome} {r : HostReply e}
    (hs : M.serves t c) (hc : M.targets c) (he : ∀ l n, e ≠ .populate l n)
    (h : M.system.reply t s e l = some (r, s')) :
    hostReply t s.1 e l = some (r, s'.1) ∧ M.lead s'.2 = M.lead s.2 := by
  obtain ⟨hr, hx⟩ := hostSystem_reply h
  rw [hx]
  exact ⟨hr, M.own t c s.2 s.1 e r s'.1 hs hc he⟩

/-- A member's request inside its critical section: the state it meets is the one it left. -/
theorem inside_step {e : HostRequest Loc} {k : HostReply e → HostProg Loc HostResult}
    (hs : M.serves t c) (hc : M.targets c) (hg : M.monitor.Noted c g)
    (he : ∀ l n, e ≠ .populate l n)
    (h : ∀ s l r s', Metered.Usable (M.bytes c) o → s.store M.ns = o.1 → s.counter M.loc = o.2.1 →
      hostReply t s e l = some (r, s') → s'.holder M.loc = s.holder M.loc ∧
      M.monitor.Safe c t (k r) (some (s'.store M.ns, s'.counter M.loc, o.2.2)) (g.add M.ns s e r s')) :
    M.monitor.Safe c t (.request e k) (some o) g := by
  refine ⟨hg, ?_⟩
  rintro s l r s' ha hh rfl hr
  obtain ⟨hr, hl⟩ := lead_own hs hc he hr
  obtain ⟨hh', hsafe⟩ := h s.1 l r s'.1 (M.usable c e s hc ha) rfl rfl hr
  have hv : M.monitor.view s' = (s'.1.store M.ns, s'.1.counter M.loc, M.lead s.2) := by
    rw [← hl]
    rfl
  refine Or.inl ⟨hh'.trans hh, ?_⟩
  rw [hv]
  exact hsafe

section rules
variable {key : String} {value : Bytes} (hs : M.serves t c) (hc : M.targets c)
  (hg : M.monitor.Noted c g)
include hs hc hg

theorem inside_get {k : Except StorageError (Option Bytes) → HostProg Loc HostResult}
    (hok : M.monitor.Safe c t (k (.ok (o.1.lookup key))) (some o) g)
    (herr : ∀ e, M.monitor.Safe c t (k (.error e)) (some o) g) :
    M.monitor.Safe c t (.request (.backend (.get M.ns key)) k) (some o) g := by
  apply inside_step hs hc hg (by simp)
  intro s l r s' _ ho hcnt hr
  obtain ⟨rfl, hr⟩ := reply_get hr
  rw [ho, hcnt, add_unchanged rfl rfl rfl (by cases r <;> rfl) (by simp)]
  rw [ho] at hr
  rcases hr with rfl | ⟨e, rfl⟩
  · exact ⟨rfl, hok⟩
  · exact ⟨rfl, herr e⟩

theorem inside_insert {k : Except StorageError (Option Bytes) → HostProg Loc HostResult}
    (hok : ∀ g' : CallNotes, g'.underflowed = g.underflowed →
      g'.stored = some (byteSize (o.1.insert key value)) →
      M.monitor.Safe c t (k (.ok (o.1.lookup key))) (some (o.1.insert key value, o.2)) g')
    (herr : ∀ e, M.monitor.Safe c t (k (.error e)) (some o) g) :
    M.monitor.Safe c t (.request (.backend (.insert M.ns key value)) k) (some o) g := by
  apply inside_step hs hc hg (by simp)
  intro s l r s' _ ho hcnt hr
  rcases reply_insert hr with ⟨rfl, rfl⟩ | ⟨⟨e, rfl⟩, rfl⟩
  · refine ⟨rfl, ?_⟩
    simp only [Function.update_self, hcnt, ho]
    apply hok
    · simp [CallNotes.add, underflows]
    · simp [CallNotes.add, accepted]
  · rw [ho, hcnt, add_unchanged rfl rfl rfl rfl (by simp)]
    exact ⟨rfl, herr e⟩

theorem inside_delete {k : Except StorageError (Option Bytes) → HostProg Loc HostResult}
    (hok : ∀ g' : CallNotes, g'.underflowed = g.underflowed → g'.stored = g.stored →
      M.monitor.Safe c t (k (.ok (o.1.lookup key))) (some (o.1.erase key, o.2)) g')
    (herr : ∀ e, M.monitor.Safe c t (k (.error e)) (some o) g) :
    M.monitor.Safe c t (.request (.backend (.delete M.ns key)) k) (some o) g := by
  apply inside_step hs hc hg (by simp)
  intro s l r s' _ ho hcnt hr
  rcases reply_delete hr with ⟨rfl, rfl⟩ | ⟨⟨e, rfl⟩, rfl⟩
  · refine ⟨rfl, ?_⟩
    simp only [Function.update_self, hcnt, ho]
    apply hok
    · simp [CallNotes.add, underflows]
    · simp [CallNotes.add, accepted]
  · rw [ho, hcnt, add_unchanged rfl rfl rfl rfl (by simp)]
    exact ⟨rfl, herr e⟩

theorem inside_readCounter {k : ℕ → HostProg Loc HostResult}
    (h : Metered.Usable (M.bytes c) o → M.monitor.Safe c t (k o.2.1) (some o) g) :
    M.monitor.Safe c t (.request (.readCounter M.loc) k) (some o) g := by
  apply inside_step hs hc hg (by simp)
  intro s l r s' hu ho hcnt hr
  cases l <;> cases hr
  rw [ho, hcnt, add_unchanged rfl rfl rfl rfl (by simp)]
  exact ⟨rfl, h hu⟩

theorem inside_sub {a b : ℕ} {k : ℕ → HostProg Loc HostResult} (hab : b ≤ a)
    (h : M.monitor.Safe c t (k (subU64 a b)) (some o) g) :
    M.monitor.Safe c t (.request (.subU64 a b) k) (some o) g := by
  apply inside_step hs hc hg (by simp)
  intro s l r s' _ ho hcnt hr
  cases l <;> cases hr
  rw [ho, hcnt, add_unchanged rfl rfl (by simpa [underflows] using hab) rfl (by simp)]
  exact ⟨rfl, h⟩

theorem inside_writeCounter {v : ℕ} {k : Unit → HostProg Loc HostResult}
    (h : ∀ g' : CallNotes, g'.underflowed = g.underflowed → g'.stored = g.stored →
      M.monitor.Safe c t (k ()) (some (o.1, v, o.2.2)) g') :
    M.monitor.Safe c t (.request (.writeCounter M.loc v) k) (some o) g := by
  apply inside_step hs hc hg (by simp)
  intro s l r s' _ ho hcnt hr
  cases l <;> cases hr
  refine ⟨rfl, ?_⟩
  simp only [Function.update_self, ho]
  apply h
  · simp [CallNotes.add, underflows]
  · simp [CallNotes.add, accepted]

/-- The lock is given back with the books balanced. -/
theorem inside_unlock {k : Unit → HostProg Loc HostResult} (ho : o.Balanced)
    (h : ∀ g' : CallNotes, g'.underflowed = g.underflowed → g'.changed = g.changed →
      g'.wrote = g.wrote → g'.stored = g.stored → g'.released = some o.2.1 →
      M.monitor.Safe c t (k ()) none g') :
    M.monitor.Safe c t (.request (.unlock M.loc) k) (some o) g := by
  refine ⟨hg, ?_⟩
  rintro s l r s' ha hh rfl hr
  obtain ⟨hr, hl⟩ := lead_own hs hc (by simp) hr
  rcases s' with ⟨s', x'⟩
  cases l <;> cases hr
  refine Or.inr ⟨by simp [monitor], ?_, ?_⟩
  · simpa only [monitor, view, hl] using ho
  · apply h <;> simp [CallNotes.add, underflows, accepted, movesCounter, hostSystem, monitor, view]

theorem outside_lock {k : Bool → HostProg Loc HostResult}
    (hpoisoned : M.monitor.Safe c t (k false) none g)
    (h : ∀ o : Metered, o.Balanced → M.monitor.Safe c t (k true) (some o) g) :
    M.monitor.Safe c t (.request (.lock M.loc) k) none g := by
  refine ⟨hg, ?_⟩
  intro s l r s' ha hh hr
  obtain ⟨hr, hl⟩ := lead_own hs hc (by simp) hr
  rcases s' with ⟨s', x'⟩
  obtain ⟨rfl, ⟨-, rfl, rfl⟩ | ⟨-, hfree, rfl, rfl⟩⟩ := reply_lock hr
  · refine Or.inl ⟨by simp only [monitor, view, hl], rfl, ?_⟩
    simp only [hostSystem]
    rw [add_unchanged rfl rfl rfl rfl (by simp)]
    exact hpoisoned
  · refine Or.inr ⟨hfree, by simp [monitor], by simp only [monitor, view, hl], fun hb => ?_⟩
    have hg' : g.add M.ns s.1 (.lock M.loc) true
        { s.1 with holder := Function.update s.1.holder M.loc (some t) } = g :=
      add_unchanged rfl rfl rfl rfl (by simp)
    simp only [hostSystem, hg']
    exact h _ hb

theorem outside_get {k : Except StorageError (Option Bytes) → HostProg Loc HostResult}
    (h : ∀ r, M.monitor.Safe c t (k r) none g) :
    M.monitor.Safe c t (.request (.backend (.get M.ns key)) k) none g := by
  refine ⟨hg, ?_⟩
  intro s l r s' ha hh hr
  obtain ⟨hr, hl⟩ := lead_own hs hc (by simp) hr
  rcases s' with ⟨s', x'⟩
  obtain ⟨rfl, _⟩ := reply_get hr
  refine Or.inl ⟨by simp only [monitor, view, hl], rfl, ?_⟩
  simp only [hostSystem]
  rw [add_unchanged rfl rfl rfl (by cases r <;> rfl) (by simp)]
  exact h r

end rules

variable {key : String} {value : Bytes} {m : MemoryView} {buffer len : UInt32}

/-- The limited branch of `insert_common` is safe for the counter's monitor. -/
theorem insertCommon_safe (hs : M.serves t c) (hc : M.targets c)
    (hbytes : M.bytes c = key.utf8ByteSize + value.length) :
    M.monitor.Safe c t (insertCommon M.ns key value m buffer len (.limited M.limit) M.loc)
      none .fresh := by
  have hfresh : M.monitor.Noted c CallNotes.fresh := ⟨rfl, by simp [CallNotes.fresh]⟩
  simp only [insertCommon, lock, storageGet, readCounter, checkedSub, storageInsert, writeCounter,
    unlock, Prog.perform_bind, Prog.pure_eq_done]
  apply outside_lock hs hc hfresh
  · exact ⟨rfl, hfresh, fun _ => ⟨by simp [CallNotes.fresh], fun _ => rfl⟩⟩
  intro o ho
  -- a refusal before the write leaves the notes clean
  have refuse : ∀ a : HostResult, M.monitor.Safe c t
      (.request (.unlock M.loc) fun _ => .done a) (some o) .fresh := by
    intro a
    apply inside_unlock hs hc hfresh ho
    intro g' hu hch hw hst _
    refine ⟨rfl, ⟨hu, by simp [hst, CallNotes.fresh]⟩, fun _ => ⟨?_, fun _ => hch⟩⟩
    simp [hw, CallNotes.fresh]
  apply inside_get hs hc hfresh
  swap
  · exact fun e => refuse _
  apply inside_readCounter hs hc hfresh
  intro hu
  rw [hbytes] at hu
  obtain ⟨hle, hbal⟩ := wouldBeUsedStorage_eq ho hu
  apply inside_sub hs hc hfresh hle
  split
  · exact refuse _
  · rename_i hlimit
    apply inside_insert hs hc hfresh
    swap
    · exact fun e => refuse _
    intro g₁ hu₁ hst₁
    have hnoted : ∀ g : CallNotes, g.underflowed = g₁.underflowed → g.stored = g₁.stored →
        M.monitor.Noted c g := by
      intro g hug hst
      refine ⟨hug.trans hu₁, fun b hb => ?_⟩
      have he : b = byteSize (o.1.insert key value) := by simpa [hst, hst₁] using hb.symm
      rw [he]
      exact hbal.byteSize_le hu.1 (Nat.le_of_not_lt hlimit)
    apply inside_writeCounter hs hc (hnoted g₁ rfl rfl)
    intro g₂ hu₂ hst₂
    apply inside_unlock hs hc (hnoted g₂ hu₂ hst₂) hbal
    intro g₃ hu₃ _ _ hst₃ hre₃
    refine ⟨rfl, hnoted g₃ (hu₃.trans hu₂) (hst₃.trans hst₂), fun _ => ⟨fun _ => ?_, fun hret => ?_⟩⟩
    · simp only at hre₃
      exact ⟨_, hre₃, Nat.le_of_not_lt hlimit⟩
    · rcases hret with hret | hret <;> simpa using previousValue_ok_ret hret

/-- The limited branch of `delete_common` is safe for the counter's monitor. -/
theorem deleteCommon_safe (hs : M.serves t c) (hc : M.targets c) (hi : M.isInsert c = false)
    {limit : ℕ} :
    M.monitor.Safe c t (deleteCommon M.ns key m buffer len (.limited limit) M.loc) none .fresh := by
  have hfresh : M.monitor.Noted c CallNotes.fresh := ⟨rfl, by simp [CallNotes.fresh]⟩
  have hreturns : ∀ a g, M.monitor.Returns c a g := by
    intro a g h
    simp [hi] at h
  have hnoted : ∀ g : CallNotes, g.underflowed = false → g.stored = none → M.monitor.Noted c g := by
    intro g hu hst
    exact ⟨hu, by simp [hst]⟩
  unfold deleteCommon
  split
  · simp only [storageGet, Prog.perform_bind, Prog.pure_eq_done]
    apply outside_get hs hc hfresh
    exact fun r => ⟨rfl, hfresh, hreturns _ _⟩
  simp only [lock, storageDelete, readCounter, checkedSub, writeCounter, unlock, Prog.perform_bind,
    Prog.pure_eq_done]
  apply outside_lock hs hc hfresh
  · exact ⟨rfl, hfresh, hreturns _ _⟩
  intro o ho
  have giveBack : ∀ (o : Metered) (g : CallNotes) (a : HostResult), o.Balanced →
      g.underflowed = false → g.stored = none →
      M.monitor.Safe c t (.request (.unlock M.loc) fun _ => .done a) (some o) g := by
    intro o g a ho hu hst
    apply inside_unlock hs hc (hnoted g hu hst) ho
    intro g' hu' _ _ hst' _
    exact ⟨rfl, hnoted g' (hu'.trans hu) (hst'.trans hst), hreturns _ _⟩
  apply inside_delete hs hc hfresh
  swap
  · exact fun e => giveBack o _ _ ho rfl rfl
  intro g₁ hu₁ hst₁
  cases hk : o.1.lookup key with
  | none =>
    rw [erase_of_lookup_none o.1 key hk]
    exact giveBack o g₁ _ ho hu₁ hst₁
  | some data =>
    apply inside_readCounter hs hc (hnoted g₁ hu₁ hst₁)
    intro hu
    obtain ⟨hkey, hdata, hbal⟩ := released_eq ho hu.1 hk
    apply inside_sub hs hc (hnoted g₁ hu₁ hst₁) hkey
    apply inside_sub hs hc (hnoted g₁ hu₁ hst₁) hdata
    apply inside_writeCounter hs hc (hnoted g₁ hu₁ hst₁)
    intro g₂ hu₂ hst₂
    exact giveBack _ g₂ _ hbal (hu₂.trans hu₁) (hst₂.trans hst₁)

end Meter

/-- A request of a call on one namespace with one counter. -/
def About (ns : String) (loc : Loc) : HostRequest Loc → Prop
  | .backend (.insert n _ _) => n = ns
  | .backend (.delete n _) => n = ns
  | .backend _ => True
  | .lock c => c = loc
  | .unlock c => c = loc
  | .readCounter c => c = loc
  | .writeCounter c _ => c = loc
  | .fetchPage _ _ => False
  | .populate _ _ => False
  | .subU64 _ _ => True

/-- A request that only looks at a namespace. -/
def Reads : HostRequest Loc → Prop
  | .backend (.get _ _) => True
  | .backend (.listKeys _ _) => True
  | _ => False

theorem Reads.frame {e : HostRequest Loc} {t : T} {s s' : HostState Loc T} {l : Outcome}
    {r : HostReply e} (h : Reads e) (hr : hostReply t s e l = some (r, s')) : s' = s := by
  cases e with
  | backend b =>
    cases b with
    | get ns key => exact (reply_get hr).1
    | listKeys ns p => exact reply_listKeys hr
    | _ => exact h.elim
  | _ => exact h.elim

section uses
variable {ns key : String} {loc : Loc} {m : MemoryView} {buffer len : UInt32} {limit : LimitValue}

omit [DecidableEq Loc] in
theorem about_of_confined {e : HostRequest Loc}
    (h : Confined (fun _ => True) (· = ns) (fun _ c => c = loc) e) : About ns loc e := by
  cases e with
  | backend b => cases b <;> exact h
  | subU64 a b => trivial
  | fetchPage n first => exact h
  | populate c n => exact h
  | _ =>
    obtain ⟨_, -, hc⟩ := h
    exact hc

omit [DecidableEq Loc] in
theorem insertCommon_about {value : Bytes} :
    (insertCommon ns key value m buffer len limit loc).Uses (About ns loc) := by
  apply Prog.Uses.mono fun _ => about_of_confined
  exact insertCommon_confined trivial rfl rfl

omit [DecidableEq Loc] in
theorem deleteCommon_about :
    (deleteCommon ns key m buffer len limit loc).Uses (About ns loc) := by
  apply Prog.Uses.mono fun _ => about_of_confined
  exact deleteCommon_confined trivial rfl rfl

omit [DecidableEq Loc] in
theorem getCommon_reads : (getCommon ns key m buffer len : HostProg Loc HostResult).Uses Reads :=
  ⟨trivial, fun _ => trivial⟩

omit [DecidableEq Loc] in
theorem listKeysCommon_reads {keysToJson : List String → Option String} {keyPrefix : String} :
    (listKeysCommon keysToJson ns keyPrefix m buffer len : HostProg Loc HostResult).Uses Reads := by
  refine ⟨trivial, fun r => ?_⟩
  cases r with
  | error e => trivial
  | ok keys =>
    simp only [Prog.bind]
    split <;> trivial

end uses

/-- A page is answered with what is stored, or not at all. -/
theorem reply_fetchPage {t : T} {s s' : HostState Loc T} {ns : String} {first : Option String}
    {l : Outcome} {r : Except StorageError (Listing × Option String)}
    (hr : hostReply t s (.fetchPage ns first) l = some (r, s')) :
    s' = s ∧ ((∃ items last, r = .ok (items, last) ∧ isPage (s.store ns) first items last = true) ∨
      ∃ e, r = .error e) := by
  cases l with
  | okPage items last =>
    simp only [hostReply] at hr
    split at hr
    · rename_i hpage
      cases hr
      exact ⟨rfl, Or.inl ⟨items, last, rfl, hpage⟩⟩
    · cases hr
  | fails e =>
    cases hr
    exact ⟨rfl, Or.inr ⟨e, rfl⟩⟩
  | _ => cases hr

section frame
variable {ns ns' : String} {loc loc' : Loc} {e : HostRequest Loc} {t : T} {s s' : HostState Loc T}
  {l : Outcome} {r : HostReply e}

/-- A backend call leaves counters and locks alone. -/
theorem backend_frame {b : BackendRequest} {r : BackendReply b}
    (hr : hostReply t s (.backend b) l = some (r, s')) :
    backendReply s.store b l = some (r, s'.store) ∧ s'.counter = s.counter ∧
      s'.holder = s.holder := by
  obtain ⟨⟨r', st⟩, hb, he⟩ := Option.map_eq_some_iff.mp hr
  cases he
  exact ⟨hb, rfl, rfl⟩

/-- A request about another counter leaves this one and its lock alone. -/
theorem About.counter_frame (h : About ns' loc' e) (hloc : loc ≠ loc')
    (hr : hostReply t s e l = some (r, s')) :
    s'.counter loc = s.counter loc ∧ s'.holder loc = s.holder loc := by
  cases e with
  | backend b =>
    obtain ⟨_, hc, hh⟩ := backend_frame hr
    rw [hc, hh]
    exact ⟨rfl, rfl⟩
  | lock c =>
    cases h
    obtain ⟨-, ⟨-, -, rfl⟩ | ⟨-, -, -, rfl⟩⟩ := reply_lock hr
    · exact ⟨rfl, rfl⟩
    · exact ⟨rfl, Function.update_of_ne hloc _ _⟩
  | unlock c =>
    cases h
    cases l <;> cases hr
    exact ⟨rfl, Function.update_of_ne hloc _ _⟩
  | readCounter c =>
    cases l <;> cases hr
    exact ⟨rfl, rfl⟩
  | writeCounter c v =>
    cases h
    cases l <;> cases hr
    exact ⟨Function.update_of_ne hloc _ _, rfl⟩
  | subU64 a b =>
    cases l <;> cases hr
    exact ⟨rfl, rfl⟩
  | fetchPage n first => exact h.elim
  | populate c n => exact h.elim

/-- Only a write to a counter changes it. -/
theorem counter_frame (hw : ∀ v, e ≠ .writeCounter loc v) (hp : ∀ n, e ≠ .populate loc n)
    (hr : hostReply t s e l = some (r, s')) : s'.counter loc = s.counter loc := by
  cases e with
  | backend b => rw [(backend_frame hr).2.1]
  | lock c =>
    obtain ⟨-, ⟨-, -, rfl⟩ | ⟨-, -, -, rfl⟩⟩ := reply_lock hr <;> rfl
  | writeCounter c v =>
    have hne : loc ≠ c := fun h => hw v (by rw [h])
    cases l <;> cases hr
    exact Function.update_of_ne hne _ _
  | fetchPage n first => rw [(reply_fetchPage hr).1]
  | populate c n =>
    have hne : loc ≠ c := fun h => hp n (by rw [h])
    cases l <;> cases hr
    exact Function.update_of_ne hne _ _
  | _ =>
    cases l <;> cases hr
    rfl

/-- Only inserts and deletes change what a namespace stores. -/
theorem store_frame (hi : ∀ key value, e ≠ .backend (.insert ns key value))
    (hd : ∀ key, e ≠ .backend (.delete ns key)) (hr : hostReply t s e l = some (r, s')) :
    s'.store ns = s.store ns := by
  cases e with
  | backend b =>
    cases b with
    | insert n key value =>
      have hne : ns ≠ n := fun h => hi key value (by rw [h])
      rcases reply_insert hr with ⟨_, rfl⟩ | ⟨_, rfl⟩
      · exact Function.update_of_ne hne _ _
      · rfl
    | delete n key =>
      have hne : ns ≠ n := fun h => hd key (by rw [h])
      rcases reply_delete hr with ⟨_, rfl⟩ | ⟨_, rfl⟩
      · exact Function.update_of_ne hne _ _
      · rfl
    | get n key => rw [(reply_get hr).1]
    | listKeys n p => rw [reply_listKeys hr]
    | fetchAll n p =>
      obtain ⟨hb, _, _⟩ := backend_frame hr
      rw [(fetchAll_reply hb).1]
  | lock c =>
    obtain ⟨-, ⟨-, -, rfl⟩ | ⟨-, -, -, rfl⟩⟩ := reply_lock hr <;> rfl
  | fetchPage n first => rw [(reply_fetchPage hr).1]
  | _ =>
    cases l <;> cases hr
    rfl

end frame
end PlaidRuntime.StorageMetering
