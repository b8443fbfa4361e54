import PlaidRuntime.StorageQuota

/-!
# Instances that share a storage backend

A split deployment runs several instances over one backend (`InstanceRoles`, `lib.rs`). Each
keeps its own counter, set at its own boot, while the bytes it counts are shared.
-/
namespace PlaidRuntime.StorageInstances
open EffectProgram LockMonitor KeyedContent MachineWord GuestMemory StorageProvider StorageHost
  StorageInstance StorageMetering StorageQuota

variable {I N Loc : Type} [DecidableEq I] [DecidableEq Loc]

/-- Instances `I` that all meter the namespace `ns` under one limit, with counters in
separate processes. -/
structure Deployment (I Loc : Type) where
  running : I → Instance Loc
  ns : String
  limit : ℕ
  counter : I → Loc
  owns : ∀ i, (running i).Owns ns (counter i) (.limited limit)
  apart : ∀ i j ns' loc lim, (running j).Owns ns' loc lim → loc = counter i → i = j

/-- What an instance can do: boot, with so many requests for pages at most, or serve a storage
call of one of its rules. -/
inductive Task (D : Deployment I Loc)
  | boot (i : I) (requests : ℕ)
  | serve (i : I) (call : HostCall (D.running i))

variable {D : Deployment I Loc}

namespace Task

def server : Task D → I
  | .boot i _ => i
  | .serve i _ => i

def code (keysToJson : List String → Option String) : Task D → HostProg Loc HostResult
  | .boot i requests => do
    let _ ← populateStorageSize D.ns (D.counter i) requests
    return ⟨.ok 0, none⟩
  | .serve _ call => call.code keysToJson

def isBoot : Task D → Bool
  | .boot _ _ => true
  | .serve _ _ => false

def isInsert : Task D → Bool
  | .boot _ _ => false
  | .serve _ call => call.isInsert

/-- The task inserts into or deletes from the shared namespace. -/
def onNamespace : Task D → Bool
  | .boot _ _ => false
  | .serve _ call => call.target == some D.ns

def insertBytes : Task D → ℕ
  | .boot _ _ => 0
  | .serve _ call => call.insertBytes

end Task

/-- Bytes stored in the namespace that the counter of each instance has not seen: those the
other instances have added, on balance, since it was set. -/
abbrev Unseen (I : Type) := I → ℤ

def countUnseen (ns : String) (t : I × N) (x : Unseen I) (s : HostState Loc (I × N)) :
    (e : HostRequest Loc) → HostReply e → HostState Loc (I × N) → Unseen I
  | .populate _ _, _, _ => Function.update x t.1 0
  | _, _, s' => fun i =>
    if i = t.1 then x i else x i + (byteSize (s'.store ns) - byteSize (s.store ns) : ℤ)

/-- Threads of all instances, a thread being an instance and a number in it. -/
def deployed (N : Type) (D : Deployment I Loc) (keysToJson : List String → Option String) :
    System (HostRequest Loc) HostReply (HostState Loc (I × N) × Unseen I) Outcome (Task D)
      HostResult CallNotes (I × N) :=
  hostSystem (Task.code keysToJson) D.ns (countUnseen D.ns)

abbrev Deployed (N : Type) (D : Deployment I Loc) :=
  Config (HostRequest Loc) HostReply (HostState Loc (I × N) × Unseen I) (Task D) HostResult
    CallNotes (I × N)

/-- Nothing is running yet; a counter that has not been set has seen nothing. -/
structure Unbooted (σ : Deployed N D) : Prop where
  idle : ∀ t, σ.threads t = none
  unlocked : ∀ c, σ.shared.1.holder c = none
  zero : ∀ i, σ.shared.1.counter (D.counter i) = 0
  unseen : ∀ i, σ.shared.2 i = byteSize (σ.shared.1.store D.ns)

def writes (ns : String) : HostRequest Loc → Bool
  | .backend (.insert n _ _) => n == ns
  | .backend (.delete n _) => n == ns
  | _ => false

def populates : HostRequest Loc → Bool
  | .populate _ _ => true
  | _ => false

/-- The steps on which separate counters do no harm: an instance serves calls on the namespace
only while the others have not, on balance, added bytes since its counter was set; nobody
writes to the namespace while another instance is between taking and releasing its lock;
a counter is set with its lock free; sizes fit a `u64`. -/
structure Steady (c : Task D) (e : HostRequest Loc) (s : HostState Loc (I × N) × Unseen I) :
    Prop where
  current : c.onNamespace = true → s.2 c.server ≤ 0 ∧
    byteSize (s.1.store D.ns) - s.2 c.server + c.insertBytes < 2 ^ 64
  alone : writes D.ns e = true → ∀ i, i ≠ c.server → s.1.holder (D.counter i) = none
  boot : populates e = true → s.1.holder (D.counter c.server) = none ∧
    byteSize (s.1.store D.ns) < 2 ^ 64

/-- A boot is under way: it may have read some pages of the namespace and not the others. -/
def Booting (σ : Deployed N D) : Prop :=
  ∃ t, (σ.threads t).any fun th => th.call.isBoot && !Idle (some th)

/-- Besides, nobody writes to the namespace while an instance boots. -/
def StepsSteady (σ : Deployed N D) : Action Outcome (Task D) (I × N) → Prop
  | .start t c => t.1 = c.server
  | .step t _ => ∀ c e k g, σ.threads t = some ⟨c, .request e k, g⟩ →
    Steady c e σ.shared ∧ (writes D.ns e = true → ¬Booting σ)

instance [Fintype I] (c : Task D) (e : HostRequest Loc) (s : HostState Loc (I × N) × Unseen I)
    [DecidableEq N] : Decidable (Steady c e s) :=
  decidable_of_iff
    ((c.onNamespace = true → s.2 c.server ≤ 0 ∧
        byteSize (s.1.store D.ns) - s.2 c.server + c.insertBytes < 2 ^ 64) ∧
      (writes D.ns e = true → ∀ i, i ≠ c.server → s.1.holder (D.counter i) = none) ∧
      (populates e = true → s.1.holder (D.counter c.server) = none ∧
        byteSize (s.1.store D.ns) < 2 ^ 64))
    ⟨fun h => ⟨h.1, h.2.1, h.2.2⟩, fun h => ⟨h.1, h.2, h.3⟩⟩

instance [Fintype I] [Fintype N] (σ : Deployed N D) : Decidable (Booting σ) :=
  inferInstanceAs (Decidable (∃ _ : I × N, _ = true))

instance [Fintype I] [Fintype N] [DecidableEq N] (σ : Deployed N D)
    (a : Action Outcome (Task D) (I × N)) : Decidable (StepsSteady σ a) :=
  match a with
  | .start t c => inferInstanceAs (Decidable (t.1 = c.server))
  | .step t _ =>
    match h : σ.threads t with
    | none => .isTrue (by simp [StepsSteady, h])
    | some ⟨_, .done _, _⟩ => .isTrue (by simp [StepsSteady, h])
    | some ⟨c, .request e _, _⟩ =>
      decidable_of_iff (Steady c e σ.shared ∧ (writes D.ns e = true → ¬Booting σ))
        ⟨fun hs c' e' k' g' h' => by
          rw [h] at h'
          cases h'
          exact hs, fun hs => hs c e _ _ h⟩

/-- A boot sets its counter from a whole listing. -/
def Counts (c : Task D) (e : HostRequest Loc) (content : Content) : Prop :=
  ∀ loc bytes, c.isBoot = true → e = .populate loc bytes →
    ∃ all : Listing, all.Perm (allEntries content none) ∧ bytes = getNamespaceByteSize all

def meter (N : Type) (D : Deployment I Loc) (keysToJson : List String → Option String) (i : I) :
    Meter Loc (I × N) (Unseen I) (Task D) where
  code := Task.code keysToJson
  ns := D.ns
  loc := D.counter i
  limit := D.limit
  tick := countUnseen D.ns
  lead x := - x i
  targets c := c.onNamespace = true ∧ c.server = i
  isInsert := Task.isInsert
  bytes := Task.insertBytes
  serves t c := t.1 = c.server
  allows c e s := Steady c e s ∧ Counts c e (s.1.store D.ns)
  usable := by
    rintro c e s ⟨hc, rfl⟩ ha
    obtain ⟨h0, hlt⟩ := ha.1.current hc
    refine ⟨?_, ?_⟩
    · simp only
      omega
    · simp only
      omega
  own := by
    rintro t c x s e r s' ht ⟨_, rfl⟩ he
    cases e with
    | populate loc bytes => exact absurd rfl (he loc bytes)
    | _ => simp [countUnseen, ht]

section tasks
variable {keysToJson : List String → Option String} {i : I} {c : Task D} {t : I × N}

theorem onNamespace_safe (ht : t.1 = c.server) (hc : c.onNamespace = true) (hi : c.server = i) :
    (meter N D keysToJson i).monitor.Safe c t (c.code keysToJson) none .fresh := by
  subst hi
  cases c with
  | boot j requests => cases hc
  | serve j call =>
    have htarget : call.target = some D.ns := by simpa [Task.onNamespace] using hc
    have hshape := call.shape keysToJson
    simp only [Task.code]
    generalize call.code keysToJson = p at hshape ⊢
    cases hshape with
    | refused e he m =>
      exact ⟨rfl, ⟨rfl, by simp [CallNotes.fresh]⟩,
        fun _ => ⟨by simp [CallNotes.fresh], fun _ => rfl⟩⟩
    | insert owns target isInsert bytes =>
      obtain rfl := Option.some.inj (target.symm.trans htarget)
      obtain ⟨rfl, rfl⟩ := owns.counter_unique (D.owns j)
      exact Meter.insertCommon_safe (M := meter N D keysToJson j) ht ⟨hc, rfl⟩ bytes
    | delete owns target isInsert =>
      obtain rfl := Option.some.inj (target.symm.trans htarget)
      obtain ⟨rfl, rfl⟩ := owns.counter_unique (D.owns j)
      exact Meter.deleteCommon_safe (M := meter N D keysToJson j) ht ⟨hc, rfl⟩ isInsert
    | get target => simp [target] at htarget
    | list target => simp [target] at htarget

omit [DecidableEq Loc] in
/-- Another instance's step: what it adds to the namespace it adds to the unseen bytes. -/
theorem countUnseen_other {ns : String} {e : HostRequest Loc} {s s' : HostState Loc (I × N)}
    {x : Unseen I} {r : HostReply e} (hp : populates e = false) (hi : i ≠ t.1) :
    countUnseen ns t x s e r s' i = x i + (byteSize (s'.store ns) - byteSize (s.store ns)) := by
  cases e with
  | populate loc bytes => cases hp
  | _ => simp [countUnseen, hi]

omit [DecidableEq Loc] in
theorem writes_false {ns : String} {e : HostRequest Loc} (h : writes ns e = false) :
    (∀ key value, e ≠ .backend (.insert ns key value)) ∧ ∀ key, e ≠ .backend (.delete ns key) := by
  constructor
  · rintro key value rfl
    simp [writes] at h
  · rintro key rfl
    simp [writes] at h

omit [DecidableEq Loc] in
/-- A request that does not write to the namespace leaves the unseen bytes alone. -/
theorem countUnseen_reading {ns : String} {e : HostRequest Loc} {s s' : HostState Loc (I × N)}
    {x : Unseen I} {r : HostReply e} (hstore : s'.store ns = s.store ns)
    (hp : populates e = false) : countUnseen ns t x s e r s' i = x i := by
  cases e with
  | populate loc bytes => cases hp
  | _ => simp [countUnseen, hstore]

omit [DecidableEq I] [DecidableEq Loc] in
theorem populates_false {e : HostRequest Loc} (he : ∀ loc bytes, e ≠ .populate loc bytes) :
    populates e = false := by
  cases e with
  | populate loc bytes => exact absurd rfl (he loc bytes)
  | _ => rfl

/-- Requests about other counters are harmless to the meter of instance `i`. -/
theorem foreign_of_about {ns' : String} {loc' : Loc} {p : HostProg Loc HostResult}
    (ht : t.1 = c.server) (hloc : D.counter i ≠ loc') (hns : c.server = i → ns' ≠ D.ns)
    (h : p.Uses (About ns' loc')) : (meter N D keysToJson i).monitor.Foreign c t p := by
  apply Monitor.foreign_of_uses h
  intro e s l r s' he ha hr
  obtain ⟨hr, hx⟩ := hostSystem_reply hr
  obtain ⟨hcounter, hholder⟩ := he.counter_frame hloc hr
  have hp : populates e = false := populates_false (by rintro _ _ rfl; exact he)
  refine ⟨hholder, ?_⟩
  cases hw : writes D.ns e with
  | false =>
    have hstore := store_frame (writes_false hw).1 (writes_false hw).2 hr
    have hunseen : s'.2 i = s.2 i := by
      rw [hx]
      exact countUnseen_reading hstore hp
    left
    simp [Meter.monitor, Meter.view, meter, hcounter, hstore, hunseen]
  | true =>
    have hother : i ≠ c.server := by
      intro hi
      apply hns hi.symm
      cases e with
      | backend b => cases b <;> simp_all [writes, About]
      | _ => cases hw
    have hunseen : s'.2 i = s.2 i + (byteSize (s'.1.store D.ns) - byteSize (s.1.store D.ns)) := by
      rw [hx]
      exact countUnseen_other hp (by rwa [ht])
    right
    refine ⟨ha.1.alone hw i hother, ?_⟩
    rintro ⟨hbal, hlt⟩
    simp only [Meter.monitor, Meter.view, meter, Metered.Balanced, hcounter, hunseen] at hbal hlt ⊢
    exact ⟨by omega, hlt⟩

/-- What a boot asks for. -/
def BootRequest (D : Deployment I Loc) (j : I) : HostRequest Loc → Prop
  | .fetchPage n _ => n = D.ns
  | .populate loc _ => loc = D.counter j
  | _ => False

omit [DecidableEq I] [DecidableEq Loc] in
theorem boot_requests (j : I) (requests : ℕ) (first : Option String) (output : Listing) :
    (fetchAll D.ns requests first output >>= storeSize (D.counter j)).Uses (BootRequest D j) := by
  induction requests generalizing first output with
  | zero => trivial
  | succ requests ih =>
    refine ⟨rfl, fun r => ?_⟩
    match r with
    | .error e => trivial
    | .ok (items, none) => exact ⟨rfl, fun _ => trivial⟩
    | .ok (items, some last) => exact ih (some last) (output ++ items)

/-- Booting sets the counter of the booting instance to the bytes stored and leaves the
others alone. -/
theorem boot_foreign {j : I} {requests : ℕ} (ht : t.1 = j) :
    (meter N D keysToJson i).monitor.Foreign (.boot j requests) t
      (Task.code keysToJson (.boot j requests : Task D)) := by
  have huses : (Task.code keysToJson (.boot j requests : Task D)).Uses (BootRequest D j) :=
    (boot_requests j requests none []).bind fun _ => trivial
  apply Monitor.foreign_of_uses huses
  intro e s l r s' he ha hr
  obtain ⟨hr, hx⟩ := hostSystem_reply hr
  rcases s' with ⟨s', x'⟩
  simp only at hx hr
  cases e with
  | fetchPage n first =>
    obtain ⟨rfl, -⟩ := reply_fetchPage hr
    refine ⟨rfl, Or.inl ?_⟩
    simp [Meter.monitor, Meter.view, meter, hx, countUnseen]
  | populate loc bytes =>
    obtain rfl : loc = D.counter j := he
    obtain ⟨all, hall, rfl⟩ := ha.2 _ _ rfl rfl
    cases l <;> cases hr
    refine ⟨rfl, ?_⟩
    by_cases hi : i = j
    · obtain ⟨hfree, hlt⟩ := ha.1.boot rfl
      right
      subst hi
      refine ⟨hfree, fun _ => ?_⟩
      simp only [Meter.monitor, Meter.view, meter, Metered.Balanced, hx, countUnseen, ht,
        Function.update_self, getNamespaceByteSize_listing hall hlt]
      exact ⟨by omega, hlt⟩
    · have hne : D.counter i ≠ D.counter j := by
        intro h
        exact hi (D.apart i j _ _ _ (D.owns j) h.symm)
      left
      simp [Meter.monitor, Meter.view, meter, hx, countUnseen, ht, hi, hne]
  | _ => exact he.elim

theorem foreign_of_reads {p : HostProg Loc HostResult} (h : p.Uses Reads) :
    (meter N D keysToJson i).monitor.Foreign c t p := by
  apply Monitor.foreign_of_uses h
  intro e s l r s' he _ hr
  obtain ⟨hr, hx⟩ := hostSystem_reply hr
  have hs := he.frame hr
  have hp : populates e = false := populates_false (by rintro _ _ rfl; exact he)
  have hunseen : s'.2 i = s.2 i := by
    rw [hx]
    exact countUnseen_reading (by rw [hs]) hp
  simp [Meter.monitor, Meter.view, meter, hs, hunseen]

theorem other_foreign (ht : t.1 = c.server) (hc : ¬ (c.onNamespace = true ∧ c.server = i)) :
    (meter N D keysToJson i).monitor.Foreign c t (c.code keysToJson) := by
  cases c with
  | boot j requests => exact boot_foreign ht
  | serve j call =>
    have hshape := call.shape keysToJson
    simp only [Task.code]
    generalize call.code keysToJson = p at hshape ⊢
    -- a call of `i` itself is on another namespace, which has another counter
    have key : ∀ {ns' loc' lim'}, (D.running j).Owns ns' loc' lim' → call.target = some ns' →
        D.counter i ≠ loc' ∧ (j = i → ns' ≠ D.ns) := by
      intro ns' loc' lim' owns target
      have hns : j = i → ns' ≠ D.ns := by
        rintro rfl rfl
        exact hc ⟨by simp [Task.onNamespace, target], rfl⟩
      refine ⟨?_, hns⟩
      rintro rfl
      obtain rfl := D.apart i j _ _ _ owns rfl
      exact hns rfl (owns.namespace_unique (D.owns i))
    cases hshape with
    | refused e he m => trivial
    | insert owns target isInsert bytes =>
      exact foreign_of_about ht (key owns target).1 (key owns target).2 insertCommon_about
    | delete owns target isInsert =>
      exact foreign_of_about ht (key owns target).1 (key owns target).2 deleteCommon_about
    | get target => exact foreign_of_reads getCommon_reads
    | list target => exact foreign_of_reads listKeysCommon_reads

end tasks

section boots
variable {keysToJson : List String → Option String} {i : I} {content : Content}

/-- The rest of a boot: it goes on after the pages it has read, or sets its counter from all. -/
inductive BootRest (D : Deployment I Loc) (i : I) (content : Content) :
    HostProg Loc HostResult → Prop
  | ended (a : HostResult) : BootRest D i content (.done a)
  | reading {requests : ℕ} {first : Option String} {output : Listing}
      (fetched : Fetched content first output) : BootRest D i content (do
        let _ ← fetchAll D.ns requests first output >>= storeSize (D.counter i)
        return ⟨.ok 0, none⟩)
  | counting {all : Listing} (whole : all.Perm (allEntries content none)) :
      BootRest D i content (.request (.populate (D.counter i) (getNamespaceByteSize all)) fun _ =>
        .done ⟨.ok 0, none⟩)

omit [DecidableEq I] in
theorem BootRest.step {p : HostProg Loc HostResult} {e : HostRequest Loc}
    {k : HostReply e → HostProg Loc HostResult} {t : I × N} {s s' : HostState Loc (I × N)} {l : Outcome}
    {r : HostReply e} (h : BootRest D i (s.store D.ns) p) (hp : p = .request e k)
    (hr : hostReply t s e l = some (r, s')) : BootRest D i (s'.store D.ns) (k r) := by
  cases h with
  | ended a => cases hp
  | @reading requests first output fetched =>
    cases requests with
    | zero => cases hp
    | succ requests =>
      cases hp
      obtain ⟨rfl, ⟨items, last, rfl, hpage⟩ | ⟨e, rfl⟩⟩ := reply_fetchPage hr
      · cases last with
        | none => exact .counting (fetched.last hpage)
        | some last => exact .reading (fetched.next hpage)
      · exact .ended _
  | counting whole =>
    cases hp
    exact .ended _

omit [DecidableEq I] [DecidableEq Loc] in
theorem BootRest.counts {p : HostProg Loc HostResult} {loc : Loc} {bytes : ℕ}
    {k : Unit → HostProg Loc HostResult} (h : BootRest D i content p)
    (hp : p = .request (.populate loc bytes) k) :
    ∃ all : Listing, all.Perm (allEntries content none) ∧ bytes = getNamespaceByteSize all := by
  cases h with
  | ended a => cases hp
  | @reading requests first output fetched => cases requests <;> cases hp
  | @counting all whole =>
    cases hp
    exact ⟨all, whole, rfl⟩

/-- Every boot under way has read what is stored. -/
def BootsRead (σ : Deployed N D) : Prop :=
  ∀ t i requests p g, σ.threads t = some ⟨.boot i requests, p, g⟩ →
    BootRest D i (σ.shared.1.store D.ns) p

variable [DecidableEq N] {σ τ : Deployed N D} {a : Action Outcome (Task D) (I × N)}

theorem bootsRead_step (h : BootsRead σ) (ha : StepsSteady σ a)
    (hn : (deployed N D keysToJson).next σ a = some τ) : BootsRead τ := by
  intro u i requests p g hu
  cases a with
  | start t c =>
    obtain ⟨-, rfl⟩ := System.next_start hn
    by_cases hut : u = t
    · subst hut
      simp only [System.put, Function.update_self] at hu
      cases hu
      exact .reading (fetched_nil _)
    · simp only [System.put, Function.update_of_ne hut] at hu
      exact h u i requests p g hu
  | step t l =>
    obtain ⟨c, e, k, g', r, s', ht, hreply, rfl⟩ := System.next_step hn
    obtain ⟨hr, -⟩ := hostSystem_reply hreply
    by_cases hut : u = t
    · subst hut
      simp only [System.put, Function.update_self] at hu
      cases hu
      exact (h u i requests _ g' ht).step rfl hr
    · simp only [System.put, Function.update_of_ne hut] at hu ⊢
      have hrest := h u i requests p g hu
      cases hw : writes D.ns e with
      | false => rwa [store_frame (writes_false hw).1 (writes_false hw).2 hr]
      | true =>
        -- a boot that had not ended would be under way during the write
        cases p with
        | done a => exact .ended a
        | request e' k' =>
          refine absurd ⟨u, ?_⟩ ((ha c e k g' ht).2 hw)
          simp [hu, Task.isBoot, Idle]

omit [DecidableEq I] [DecidableEq Loc] [DecidableEq N] in
theorem bootsRead_counts (h : BootsRead σ) {t : I × N} {c : Task D} {e : HostRequest Loc}
    {k : HostReply e → HostProg Loc HostResult} {g : CallNotes}
    (ht : σ.threads t = some ⟨c, .request e k, g⟩) : Counts c e (σ.shared.1.store D.ns) := by
  rintro loc bytes hc rfl
  cases c with
  | boot i requests => exact (h t i requests _ g ht).counts rfl
  | serve i call => cases hc

end boots

section runs
variable [DecidableEq N] {keysToJson : List String → Option String}

theorem unbooted_good {σ : Deployed N D} (h : Unbooted σ) (i : I) :
    (meter N D keysToJson i).monitor.Good σ := by
  refine ⟨fun _ => ⟨?_, ?_⟩, fun t => ?_⟩
  · simp [Meter.monitor, Meter.view, meter, h.zero, h.unseen]
  · simp [Meter.monitor, Meter.view, meter, h.zero]
  · rw [h.idle t]
    simp [Monitor.Tracked, Meter.monitor, h.unlocked]

/-- On steady schedules every instance keeps the common limit and no counter underflows. -/
theorem shared_backend_quota {σ τ : Deployed N D} (hσ : Unbooted σ)
    {as : List (Action Outcome (Task D) (I × N))}
    (hsteady : (deployed N D keysToJson).Along StepsSteady σ as)
    (hrun : (deployed N D keysToJson).run σ as = some τ) :
    ∀ t th, τ.threads t = some th → th.call.onNamespace = true →
      th.notes.underflowed = false ∧ ∀ b, th.notes.stored = some b → b ≤ D.limit := by
  intro t th ht hc
  have hread : BootsRead σ := fun t i requests p g ht => by
    rw [hσ.idle t] at ht
    cases ht
  have hallowed : (deployed N D keysToJson).Along
      (meter N D keysToJson th.call.server).monitor.Allowed σ as := by
    refine StepMachine.along_mono_of_invariant (J := BootsRead) (P := StepsSteady)
      (fun ρ a ρ' h ha hn => bootsRead_step h ha hn) (fun ρ a h ha => ?_) hread hsteady
    cases a with
    | start t c => exact ha
    | step t l => exact fun c e k g ht => ⟨(ha c e k g ht).1, bootsRead_counts h ht⟩
  have hgood : (meter N D keysToJson th.call.server).monitor.Good τ :=
    Monitor.good_run (fun c t hs hc => onNamespace_safe hs hc.1 hc.2)
      (fun c t hs hc => other_foreign hs hc) (unbooted_good hσ _) hallowed hrun
  exact hgood.noted ht ⟨hc, rfl⟩

end runs

section pair

def counterAt (i : Bool) (n : CounterName) : Bool × CounterName := (i, n)

theorem counterAt_injective (i : Bool) : Function.Injective (counterAt i) := Prod.mk_right_injective i

/-- Two instances with the same rule under a limit of ten bytes. -/
def pair : Deployment Bool (Bool × CounterName) where
  running i := ruleInstance (counterAt i) (counterAt_injective i)
  ns := "rule.wasm"
  limit := 10
  counter i := (i, .module "rule.wasm")
  owns i := ruleInstance_owns (counterAt i) (counterAt_injective i)
  apart i j ns' loc lim ho hl := by
    subst hl
    rcases ho.counter with ⟨h, _⟩ | ⟨h, _⟩ <;> exact (Prod.ext_iff.mp h).1

/-- An insert of the one-byte key with a value of five bytes. -/
def insertAt (i : Bool) (key : UInt8) : Task pair :=
  .serve i (ruleCall (counterAt i) (counterAt_injective i) [key, 1, 2, 3, 4, 5] (.insert 0 1 1 5 0 6))

def deleteAt (i : Bool) (key : UInt8) : Task pair :=
  .serve i (ruleCall (counterAt i) (counterAt_injective i) [key, 1, 2, 3, 4, 5] (.delete 0 1 0 6))

/-- Each has two threads, `false` and `true`; the first of them boots. -/
def unbootedPair : Deployed Bool pair :=
  ⟨(⟨fun _ => ∅, fun _ => 0, fun _ => none, fun _ => false⟩, fun _ => 0), fun _ => none⟩

/-- Start a task on a thread and let it take `n` steps. -/
def perform (t : Bool × Bool) (c : Task pair) (n : ℕ) :
    List (Action Outcome (Task pair) (Bool × Bool)) :=
  .start t c :: List.replicate n (.step t .ok)

/-- The listing comes in the given pages. -/
def bootAt (i : Bool) (pages : List (Listing × Option String)) :
    List (Action Outcome (Task pair) (Bool × Bool)) :=
  .start (i, false) (.boot i pages.length) ::
    (pages.map fun p => .step (i, false) (.okPage p.1 p.2)) ++ [.step (i, false) .ok]

/-- Both boot on an empty namespace, each inserts six bytes, then one of them deletes both
entries: the second insert passes the limit, the second delete underflows. -/
def splitSchedule : List (Action Outcome (Task pair) (Bool × Bool)) :=
  bootAt false [([], none)] ++ bootAt true [([], none)] ++
    perform (false, false) (insertAt false 97) 7 ++ perform (true, false) (insertAt true 98) 7 ++
    perform (true, true) (deleteAt true 97) 7 ++ perform (true, true) (deleteAt true 98) 7

theorem split_deployment_exceeds : Unbooted unbootedPair ∧
    ((deployed Bool pair fun _ => none).run unbootedPair splitSchedule).map (fun τ =>
      ((τ.threads (true, false)).map fun th => th.notes.stored,
        (τ.threads (true, true)).map fun th => th.notes.underflowed)) =
      some (some (some 12), some true) ∧ pair.limit = 10 := by
  refine ⟨⟨fun _ => rfl, fun _ => rfl, fun _ => rfl, fun _ => rfl⟩, ?_, rfl⟩
  decide +kernel

/-- The second instance boots after the first has inserted, so its counter is up to date. Its
listing comes in two pages. -/
def steadySchedule : List (Action Outcome (Task pair) (Bool × Bool)) :=
  bootAt false [([], none)] ++ perform (false, false) (insertAt false 97) 7 ++
    bootAt true [([("a", some [1, 2, 3, 4, 5])], some "a"), ([], none)] ++
    perform (true, true) (deleteAt true 97) 7

theorem shared_backend_quota_steady :
    ∃ τ th, (deployed Bool pair fun _ => none).run unbootedPair steadySchedule = some τ ∧
      τ.threads (true, true) = some th ∧ th.notes.underflowed = false := by
  have hrun : ((deployed Bool pair fun _ => none).run unbootedPair steadySchedule).bind (fun τ =>
      (τ.threads (true, true)).map fun th => th.call.onNamespace) = some true := by
    decide +kernel
  obtain ⟨τ, hτ, hth⟩ := Option.bind_eq_some_iff.mp hrun
  obtain ⟨th, ht, hc⟩ := Option.map_eq_some_iff.mp hth
  have hσ : Unbooted unbootedPair := ⟨fun _ => rfl, fun _ => rfl, fun _ => rfl, fun _ => rfl⟩
  have hsteady : (deployed Bool pair fun _ => none).Along StepsSteady unbootedPair
      steadySchedule := by
    decide +kernel
  exact ⟨τ, th, hτ, ht, (shared_backend_quota hσ hsteady hτ _ th ht hc).1⟩

end pair
end PlaidRuntime.StorageInstances
