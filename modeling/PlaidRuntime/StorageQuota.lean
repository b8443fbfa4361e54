import PlaidRuntime.StorageMetering

/-!
# The storage quota of one instance

Any number of executor threads of one instance serve storage calls. The counter of a
limited namespace follows the bytes stored in it whenever its lock is free.
-/
namespace PlaidRuntime.StorageQuota
open EffectProgram LockMonitor MachineWord GuestMemory StorageProvider StorageHost StorageInstance
  StorageMetering

variable {Loc T : Type} [DecidableEq Loc] {inst : Instance Loc}

/-- The executor threads `T` of one instance, observed at the namespace `ns`. -/
def executors (T : Type) (inst : Instance Loc) (keysToJson : List String → Option String)
    (ns : String) : System (HostRequest Loc) HostReply (HostState Loc T × Unit) Outcome
      (HostCall inst) HostResult CallNotes T :=
  hostSystem (HostCall.code keysToJson) ns fun _ x _ _ _ _ => x

abbrev Execution (inst : Instance Loc) (T : Type) :=
  Config (HostRequest Loc) HostReply (HostState Loc T × Unit) (HostCall inst) HostResult CallNotes T

/-- The state a load leaves behind: no call is running, no lock is taken, and the counter
was set from a listing of the namespace. -/
structure Loaded (ns : String) (loc : Loc) (σ : Execution inst T) : Prop where
  idle : ∀ t, σ.threads t = none
  unlocked : ∀ c, σ.shared.1.holder c = none
  counted : ∃ all : Listing, all.Perm (allEntries (σ.shared.1.store ns) none) ∧
    σ.shared.1.counter loc = getNamespaceByteSize all
  fits : byteSize (σ.shared.1.store ns) < 2 ^ 64

/-- The bytes stored and those of a pending insert add up to less than `2 ^ 64`. -/
def SizesFit (ns : String) (c : HostCall inst) (s : HostState Loc T) : Prop :=
  c.target = some ns → byteSize (s.store ns) + c.insertBytes < 2 ^ 64

def StepsFit (ns : String) (σ : Execution inst T) : Action Outcome (HostCall inst) T → Prop
  | .start _ _ => True
  | .step t _ => ∀ th, σ.threads t = some th → SizesFit ns th.call σ.shared.1

instance (ns : String) (σ : Execution inst T) (a : Action Outcome (HostCall inst) T) :
    Decidable (StepsFit ns σ a) :=
  match a with
  | .start _ _ => .isTrue trivial
  | .step t _ =>
    match h : σ.threads t with
    | none => .isTrue (by simp [StepsFit, h])
    | some th =>
      have : Decidable (SizesFit ns th.call σ.shared.1) :=
        inferInstanceAs (Decidable (_ = _ → _ < _))
      decidable_of_iff (SizesFit ns th.call σ.shared.1) (by simp [StepsFit, h])

/-- The meter of one namespace of the instance: nobody else writes, so the lead is zero. -/
def meter (T : Type) (inst : Instance Loc) (keysToJson : List String → Option String) (ns : String)
    (loc : Loc) (limit : ℕ) : Meter Loc T Unit (HostCall inst) where
  code := HostCall.code keysToJson
  ns := ns
  loc := loc
  limit := limit
  tick := fun _ x _ _ _ _ => x
  lead _ := 0
  targets c := c.target = some ns
  isInsert := HostCall.isInsert
  bytes := HostCall.insertBytes
  serves _ _ := True
  allows c _ s := SizesFit ns c s.1
  usable c e s hc ha := by
    have hfit := ha hc
    refine ⟨le_refl _, ?_⟩
    simp only
    omega
  own _ _ _ _ _ _ _ _ _ _ := rfl

section calls
variable {keysToJson : List String → Option String} {ns : String} {loc : Loc} {limit : ℕ}
  {c : HostCall inst} {t : T}

/-- Calls on the namespace use its counter under its limit, so they are safe. -/
theorem target_safe (ho : inst.Owns ns loc (.limited limit)) (hc : c.target = some ns) :
    (meter T inst keysToJson ns loc limit).monitor.Safe c t (c.code keysToJson) none .fresh := by
  have hshape := c.shape keysToJson
  generalize c.code keysToJson = p at hshape ⊢
  cases hshape with
  | refused e he m =>
    exact ⟨rfl, ⟨rfl, by simp [CallNotes.fresh]⟩, fun _ => ⟨by simp [CallNotes.fresh], fun _ => rfl⟩⟩
  | insert owns target isInsert bytes =>
    obtain rfl := Option.some.inj (target.symm.trans hc)
    obtain ⟨rfl, rfl⟩ := owns.counter_unique ho
    exact Meter.insertCommon_safe (M := meter T inst keysToJson _ _ limit) trivial hc bytes
  | delete owns target isInsert =>
    obtain rfl := Option.some.inj (target.symm.trans hc)
    obtain ⟨rfl, rfl⟩ := owns.counter_unique ho
    exact Meter.deleteCommon_safe (M := meter T inst keysToJson _ _ limit) trivial hc isInsert
  | get target => simp [target] at hc
  | list target => simp [target] at hc

/-- A request about another namespace leaves the metered part alone. -/
theorem foreign_of_about {ns' : String} {loc' : Loc} {limit' : LimitValue}
    {p : HostProg Loc HostResult} (ho : inst.Owns ns loc (.limited limit))
    (ho' : inst.Owns ns' loc' limit') (hne : ns' ≠ ns) (h : p.Uses (About ns' loc')) :
    (meter T inst keysToJson ns loc limit).monitor.Foreign c t p := by
  have hloc : loc ≠ loc' := by
    rintro rfl
    exact hne (ho'.namespace_unique ho)
  apply Monitor.foreign_of_uses h
  intro e s l r s' he _ hr
  obtain ⟨hr, -⟩ := hostSystem_reply hr
  obtain ⟨hcounter, hholder⟩ := he.counter_frame hloc hr
  have hstore : s'.1.store ns = s.1.store ns := by
    apply store_frame _ _ hr
    · rintro key value rfl
      exact hne he.symm
    · rintro key rfl
      exact hne he.symm
  refine ⟨hholder, Or.inl ?_⟩
  simp [Meter.monitor, Meter.view, meter, hcounter, hstore]

theorem foreign_of_reads {p : HostProg Loc HostResult} (h : p.Uses Reads) :
    (meter T inst keysToJson ns loc limit).monitor.Foreign c t p := by
  apply Monitor.foreign_of_uses h
  intro e s l r s' he _ hr
  obtain ⟨hr, -⟩ := hostSystem_reply hr
  simp [Meter.monitor, Meter.view, meter, he.frame hr]

theorem other_foreign (ho : inst.Owns ns loc (.limited limit)) (hc : c.target ≠ some ns) :
    (meter T inst keysToJson ns loc limit).monitor.Foreign c t (c.code keysToJson) := by
  have hshape := c.shape keysToJson
  generalize c.code keysToJson = p at hshape ⊢
  cases hshape with
  | refused e he m => trivial
  | insert owns target isInsert bytes =>
    exact foreign_of_about ho owns (by rintro rfl; exact hc target) insertCommon_about
  | delete owns target isInsert =>
    exact foreign_of_about ho owns (by rintro rfl; exact hc target) deleteCommon_about
  | get target => exact foreign_of_reads getCommon_reads
  | list target => exact foreign_of_reads listKeysCommon_reads

end calls

variable [DecidableEq T]

theorem loaded_good {keysToJson : List String → Option String} {ns : String} {loc : Loc} {limit : ℕ}
    {σ : Execution inst T} (h : Loaded ns loc σ) :
    (meter T inst keysToJson ns loc limit).monitor.Good σ := by
  obtain ⟨all, hall, hcount⟩ := h.counted
  have hsize := getNamespaceByteSize_listing hall h.fits
  refine ⟨fun _ => ⟨?_, ?_⟩, fun t => ?_⟩
  · simp [Meter.monitor, Meter.view, meter, hcount, hsize]
  · simpa [Meter.monitor, Meter.view, meter, hcount, hsize] using h.fits
  · rw [h.idle t]
    simp [Monitor.Tracked, Meter.monitor, h.unlocked]

/-- The quota of a limited namespace over every run of the executor threads. -/
theorem storage_quota (keysToJson : List String → Option String) {ns : String} {loc : Loc}
    {limit : ℕ} (ho : inst.Owns ns loc (.limited limit)) {σ τ : Execution inst T}
    (hσ : Loaded ns loc σ) {as : List (Action Outcome (HostCall inst) T)}
    (hfit : (executors T inst keysToJson ns).Along (StepsFit ns) σ as)
    (hrun : (executors T inst keysToJson ns).run σ as = some τ) :
    (τ.shared.1.holder loc = none → τ.shared.1.counter loc = byteSize (τ.shared.1.store ns)) ∧
    ∀ t th, τ.threads t = some th → th.call.target = some ns →
      th.notes.underflowed = false ∧
      ∀ a, th.rest = .done a → th.call.isInsert = true →
        (th.notes.wrote = true → ∃ n, th.notes.released = some n ∧ n ≤ limit) ∧
        (a.ret = .error .storageLimitReached ∨ a.ret = .error .internalApiError →
          th.notes.changed = false) := by
  have hgood : (meter T inst keysToJson ns loc limit).monitor.Good τ := by
    apply Monitor.good_run (fun c t _ hc => target_safe ho hc) (fun c t _ hc => other_foreign ho hc)
      (loaded_good hσ) _ hrun
    apply StepMachine.Along.mono _ hfit
    intro ρ a h
    cases a with
    | start t c => trivial
    | step t l => exact fun c e k g ht => h _ ht
  refine ⟨fun hfree => ?_, fun t th ht hc => ?_⟩
  · have hbal := (hgood.inv hfree).1
    simp only [Meter.monitor, Meter.view, meter, add_zero] at hbal
    exact_mod_cast hbal
  · refine ⟨(hgood.noted ht hc).1, fun a ha hi => ?_⟩
    rcases th with ⟨c, p, g⟩
    cases ha
    exact hgood.returns ht hc hi

section example_run

/-- One rule with a limit of ten bytes and nothing else loaded. -/
def ruleModule (counterOf : CounterName → Loc) : PlaidModule Loc :=
  ⟨"rule.wasm", 1, counterOf (.module "rule.wasm"), .limited 10⟩

def ruleInstance (counterOf : CounterName → Loc) (h : Function.Injective counterOf) :
    Instance Loc where
  modules := AList.singleton "rule.wasm" (ruleModule counterOf)
  storage := some ⟨none⟩
  counterOf := counterOf
  counterOf_injective := h
  module_wasm name h := by
    have hn : name = "rule.wasm" := by simpa [AList.mem_keys] using h
    rw [hn]
    decide
  module_named name m h := by
    have hn : name = "rule.wasm" := by
      simpa [AList.mem_keys] using AList.lookup_isSome.mp (Option.isSome_of_mem h)
    subst hn
    cases h
    exact ⟨rfl, rfl⟩
  db_not_wasm st dbs hst hdbs := by
    cases hst
    cases hdbs
  db_counter st dbs hst hdbs := by
    cases hst
    cases hdbs

/-- A call of the rule on guest memory that holds the given bytes. -/
def ruleCall (counterOf : CounterName → Loc) (h : Function.Injective counterOf) (memory : Bytes)
    (f : HostFunction) : HostCall (ruleInstance counterOf h) :=
  ⟨ruleModule counterOf, rfl, some ⟨memory⟩, f⟩

omit [DecidableEq Loc] in
theorem ruleInstance_owns (counterOf : CounterName → Loc) (h : Function.Injective counterOf) :
    (ruleInstance counterOf h).Owns "rule.wasm" (counterOf (.module "rule.wasm")) (.limited 10) :=
  Or.inl ⟨ruleModule counterOf, rfl, rfl, rfl⟩

abbrev solo : Instance CounterName := ruleInstance id Function.injective_id

/-- The key is `k`, the value the two bytes behind it. -/
def insertCall : HostCall solo :=
  ruleCall id Function.injective_id [107, 7, 8, 0] (.insert 0 1 1 2 3 1)

def loadedRule : Execution solo (Fin 2) :=
  ⟨(⟨fun _ => ∅, fun _ => 0, fun _ => none, fun _ => false⟩, ()), fun _ => none⟩

def twoInserts : List (Action Outcome (HostCall solo) (Fin 2)) :=
  [.start 0 insertCall, .step 0 .ok, .start 1 insertCall] ++ List.replicate 6 (.step 0 .ok) ++
    List.replicate 7 (.step 1 .ok)

theorem storage_quota_two_inserts :
    ∃ τ, (executors (Fin 2) solo (fun _ => none) "rule.wasm").run loadedRule twoInserts =
      some τ ∧ τ.shared.1.holder (.module "rule.wasm") = none ∧
      τ.shared.1.counter (.module "rule.wasm") = byteSize (τ.shared.1.store "rule.wasm") := by
  have hrun : ((executors (Fin 2) solo (fun _ => none) "rule.wasm").run loadedRule
      twoInserts).map (fun τ => τ.shared.1.holder (.module "rule.wasm")) = some none := by
    decide +kernel
  obtain ⟨τ, hτ, hfree⟩ := Option.map_eq_some_iff.mp hrun
  have hloaded : Loaded "rule.wasm" (.module "rule.wasm") loadedRule :=
    ⟨fun _ => rfl, fun _ => rfl, ⟨[], by decide, by decide⟩, by decide⟩
  have hfit : (executors (Fin 2) solo (fun _ => none) "rule.wasm").Along
      (StepsFit "rule.wasm") loadedRule twoInserts := by
    decide +kernel
  exact ⟨τ, hτ, hfree, (storage_quota (fun _ => none) (ruleInstance_owns id _) hloaded hfit hτ).1 hfree⟩

end example_run
end PlaidRuntime.StorageQuota
