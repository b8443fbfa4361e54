import PlaidRuntime.StlStorage

/-!
# The storage library as a key-value map

One rule calls `insert`, `get` and `delete` on its own namespace while nobody else writes to
it and the backend answers. Seen from the rule, the namespace should behave as a map; the
calls meet that contract except for a `delete` of a key that holds the empty value, which
the host takes for another question about the size.
-/
namespace PlaidRuntime.StlMap
open EffectProgram StepMachine MachineWord GuestMemory StorageProvider StorageHost StlStorage

variable {Loc T : Type}

inductive Call
  | insert (key : String) (value : Bytes) (guest : Guest "" key value)
  | get (key : String) (guest : Guest "" key [])
  | delete (key : String) (guest : Guest "" key [])

def Call.code (module : PlaidModule Loc) (st : Storage Loc) : Call → HostProg Loc StlReturn
  | .insert _ _ g => StlStorage.insert module (some st) g
  | .get _ g => StlStorage.get module (some st) g
  | .delete _ g => StlStorage.delete module (some st) g

/-- What a map promises: `before` and `after` are its contents around the call, `v` is the
value returned. -/
def Call.Contract (before after : Content) (v : Bytes) : Call → Prop
  | .insert key value _ => after.lookup key = some value ∧ v = (before.lookup key).getD [] ∧
      ∀ k, k ≠ key → after.lookup k = before.lookup k
  | .get key _ => v = (before.lookup key).getD [] ∧ ∀ k, after.lookup k = before.lookup k
  | .delete key _ => after.lookup key = none ∧ v = (before.lookup key).getD [] ∧
      ∀ k, k ≠ key → after.lookup k = before.lookup k

section run
variable [DecidableEq Loc] (module : PlaidModule Loc) (st : Storage Loc) (t : T)

/-- One call of the rule, alone with a working backend. -/
def step (s : HostState Loc T) (c : Call) : Option (HostState Loc T) :=
  ((c.code module st).eval (answers t) s).map Prod.snd

/-- The call returns `Ok`, and what it returns and stores is what the map promises. -/
def Meets (s : HostState Loc T) (c : Call) : Prop :=
  ∃ r s' v, (c.code module st).eval (answers t) s = some (r, s') ∧ r.result = .ok v ∧
    c.Contract (s.store module.name) (s'.store module.name) v

end run

/-- The value fits the rule's buffers and its quota. -/
def Within (module : PlaidModule Loc) (s : HostState Loc T) : Call → Prop
  | .insert key value _ => value.length ≤ calculateMaxBufferSize module.pageLimit ∧
      Admits module.storageLimit module.storageCurrent module.name key value s
  | _ => True

/-- A delete of a key that holds the empty value. -/
def DeletesEmpty (module : PlaidModule Loc) (s : HostState Loc T) : Call → Prop
  | .delete key _ => (s.store module.name).lookup key = some []
  | _ => False

/-- No storage call is running and every stored value fits a slice of the guest. -/
structure Ready (module : PlaidModule Loc) (s : HostState Loc T) : Prop where
  free : Free module.storageCurrent s
  fits : ∀ key v, (s.store module.name).lookup key = some v → v.length < 2 ^ 31

section calls
variable [DecidableEq Loc] {module : PlaidModule Loc} {st : Storage Loc} {t : T} {s : HostState Loc T}

omit [DecidableEq Loc] in
theorem Ready.heldLength_lt (h : Ready module s) (key : String) :
    heldLength ((s.store module.name).lookup key) < 2 ^ 31 := by
  cases hk : (s.store module.name).lookup key with
  | none => simp [heldLength]
  | some v => exact h.fits key v hk

theorem insert_spec (hs : Ready module s) {key : String} {value : Bytes} {g : Guest "" key value}
    (hw : Within module s (.insert key value g)) :
    ∃ r s', (StlStorage.insert module (some st) g).eval (answers t) s = some (r, s') ∧
      r.result = .ok (((s.store module.name).lookup key).getD []) ∧
      Stores s s' module.name ((s.store module.name).insert key value) := by
  obtain ⟨s', hinsert, hstores⟩ := eval_insertCommon hs.free hw.2
  have hprobe := @Frame.eval_get Loc T _ t s "" key value 0 module st 0 g.probe g.key_fits
  refine ⟨_, s', eval_probeThen (hs.heldLength_lt key) (Frame.data_at _) hprobe ?_, rfl, hstores⟩
  rw [Frame.insert_eq _ g.key_fits g.value_fits hw.1]
  exact hinsert

theorem get_spec (hs : Ready module s) {key : String} {g : Guest "" key []} :
    ∃ r, (StlStorage.get module (some st) g).eval (answers t) s = some (r, s) ∧
      r.result = .ok (((s.store module.name).lookup key).getD []) := by
  have hprobe := @Frame.eval_get Loc T _ t s "" key [] 0 module st 0 g.probe g.key_fits
  exact ⟨_, eval_probeThen (hs.heldLength_lt key) (Frame.data_at _) hprobe
    (Frame.eval_get _ g.key_fits), rfl⟩

/-- The second call deletes only when the probed size was not zero. -/
theorem delete_spec (hs : Ready module s) {key : String} {g : Guest "" key []} :
    ∃ r s', (StlStorage.delete module (some st) g).eval (answers t) s = some (r, s') ∧
      r.result = .ok (((s.store module.name).lookup key).getD []) ∧
      (heldLength ((s.store module.name).lookup key) = 0 → s' = s) ∧
      (heldLength ((s.store module.name).lookup key) ≠ 0 →
        Stores s s' module.name ((s.store module.name).erase key)) := by
  have hlt := hs.heldLength_lt key
  have hprobe := @Frame.eval_delete_probe Loc T _ t s "" key [] module st 0 g.probe g.key_fits
  by_cases hlen : heldLength ((s.store module.name).lookup key) = 0
  · refine ⟨_, s, eval_probeThen hlt (Frame.data_at _) hprobe ?_, rfl, fun _ => rfl,
      fun h => absurd hlen h⟩
    rw [Frame.delete_eq _ g.key_fits, hlen]
    exact eval_deleteCommon_probe
  · have hbuf : UInt32.ofNat (heldLength ((s.store module.name).lookup key)) ≠ 0 := by
      intro h
      have hn := toNat_ofNat_u32 hlt
      rw [h] at hn
      exact hlen hn.symm
    obtain ⟨s', hdelete, hstores⟩ := eval_deleteCommon hs.free hbuf
    refine ⟨_, s', eval_probeThen hlt (Frame.data_at _) hprobe ?_, rfl, fun h => absurd h hlen,
      fun _ => hstores⟩
    rw [Frame.delete_eq _ g.key_fits]
    exact hdelete

/-- A call meets the contract unless it deletes a key that holds the empty value. -/
theorem meets_iff (hs : Ready module s) {c : Call} (hw : Within module s c) :
    Meets module st t s c ↔ ¬ DeletesEmpty module s c := by
  cases c with
  | insert key value g =>
    obtain ⟨r, s', heval, hres, hstores⟩ := @insert_spec Loc T _ module st t s hs key value g hw
    have hstore : s'.store module.name = (s.store module.name).insert key value := by
      simp [hstores.store]
    refine iff_of_true ⟨r, s', _, heval, hres, ?_, rfl, ?_⟩ id
    · rw [hstore, AList.lookup_insert]
    · intro k hk
      rw [hstore, AList.lookup_insert_ne hk]
  | get key g =>
    obtain ⟨r, heval, hres⟩ := @get_spec Loc T _ module st t s hs key g
    exact iff_of_true ⟨r, s, _, heval, hres, rfl, fun _ => rfl⟩ id
  | delete key g =>
    obtain ⟨r, s', heval, hres, hzero, hpos⟩ := @delete_spec Loc T _ module st t s hs key g
    constructor
    · rintro ⟨r₁, s₁, v, heval₁, -, habsent, -⟩ hempty
      have hempty : (s.store module.name).lookup key = some [] := hempty
      obtain ⟨rfl, rfl⟩ : r₁ = r ∧ s₁ = s' := by
        have heq := heval₁.symm.trans heval
        cases heq
        exact ⟨rfl, rfl⟩
      rw [hzero (by rw [hempty]; rfl), hempty] at habsent
      cases habsent
    · intro hne
      refine ⟨r, s', _, heval, hres, ?_⟩
      by_cases hlen : heldLength ((s.store module.name).lookup key) = 0
      · have habsent : (s.store module.name).lookup key = none := by
          cases hk : (s.store module.name).lookup key with
          | none => rfl
          | some v =>
            rw [hk] at hlen
            obtain rfl : v = [] := List.eq_nil_of_length_eq_zero hlen
            exact absurd hk hne
        rw [hzero hlen]
        exact ⟨habsent, rfl, fun _ _ => rfl⟩
      · have hstore : s'.store module.name = (s.store module.name).erase key := by
          simp [(hpos hlen).store]
        refine ⟨?_, rfl, ?_⟩
        · rw [hstore, AList.lookup_erase]
        · intro k hk
          rw [hstore, AList.lookup_erase_ne hk]

omit [DecidableEq Loc] in
theorem Ready.of_stores {s' : HostState Loc T} {content : Content} (hs : Ready module s)
    (h : Stores s s' module.name content)
    (hfits : ∀ key v, content.lookup key = some v → v.length < 2 ^ 31) : Ready module s' := by
  constructor
  · obtain ⟨hholder, hpoisoned⟩ := hs.free
    exact ⟨by rw [h.holder, hholder], by rw [h.poisoned, hpoisoned]⟩
  · intro key v hv
    rw [h.store, Function.update_self] at hv
    exact hfits key v hv

theorem step_ready {s' : HostState Loc T} (hs : Ready module s) {c : Call} (hw : Within module s c)
    (h : step module st t s c = some s') : Ready module s' := by
  obtain ⟨⟨r, u⟩, heval, rfl⟩ := Option.map_eq_some_iff.mp h
  cases c with
  | insert key value g =>
    obtain ⟨r', s', heval', -, hstores⟩ := @insert_spec Loc T _ module st t s hs key value g hw
    obtain ⟨-, rfl⟩ := Prod.mk.inj (Option.some.inj (heval.symm.trans heval'))
    apply hs.of_stores hstores
    intro k v hv
    by_cases hk : k = key
    · subst hk
      rw [AList.lookup_insert] at hv
      cases hv
      exact g.value_fits
    · rw [AList.lookup_insert_ne hk] at hv
      exact hs.fits k v hv
  | get key g =>
    obtain ⟨r', heval', -⟩ := @get_spec Loc T _ module st t s hs key g
    obtain ⟨-, rfl⟩ := Prod.mk.inj (Option.some.inj (heval.symm.trans heval'))
    exact hs
  | delete key g =>
    obtain ⟨r', s', heval', -, hzero, hpos⟩ := @delete_spec Loc T _ module st t s hs key g
    obtain ⟨-, rfl⟩ := Prod.mk.inj (Option.some.inj (heval.symm.trans heval'))
    by_cases hlen : heldLength ((s.store module.name).lookup key) = 0
    · rw [hzero hlen]
      exact hs
    · apply hs.of_stores (hpos hlen)
      intro k v hv
      by_cases hk : k = key
      · subst hk
        rw [AList.lookup_erase] at hv
        cases hv
      · rw [AList.lookup_erase_ne hk] at hv
        exact hs.fits k v hv

/-- Along a run within the limits, all calls behave as those of a map exactly when no call
deletes a key that holds the empty value. -/
theorem calls_meet_map_iff (module : PlaidModule Loc) (st : Storage Loc) (t : T)
    {s : HostState Loc T} {calls : List Call} (hs : Ready module s)
    (hw : Along (step module st t) (Within module) s calls) :
    Along (step module st t) (Meets module st t) s calls ↔
      Along (step module st t) (fun s c => ¬ DeletesEmpty module s c) s calls :=
  along_iff (fun _ _ _ hs hw h => step_ready hs hw h) (fun _ _ hs hw => meets_iff hs hw) hs hw

end calls

section example_run

def ruleModule : PlaidModule Unit := ⟨"rule.wasm", 1, (), .limited 100⟩

def emptyHost : HostState Unit Unit := ⟨fun _ => ∅, fun _ => 0, fun _ => none, fun _ => false⟩

theorem emptyHost_ready : Ready ruleModule emptyHost :=
  ⟨⟨rfl, rfl⟩, fun _ _ h => by cases h⟩

def insertByte : Call := .insert "k" [7] (.packed _ _ _ (by decide))

def insertEmpty : Call := .insert "k" [] (.packed _ _ _ (by decide))

def deleteKey : Call := .delete "k" (.packed _ _ _ (by decide))

theorem insert_within {value : Bytes} {g : Guest "" "k" value}
    (hlen : value.length ≤ calculateMaxBufferSize ruleModule.pageLimit)
    (hq : wouldBeUsed () "rule.wasm" "k" value emptyHost ≤ 100) :
    Along (step ruleModule ⟨none⟩ ()) (Within ruleModule) emptyHost [.insert "k" value g, deleteKey] :=
  ⟨⟨hlen, hq⟩, fun _ _ => ⟨trivial, fun _ _ => trivial⟩⟩

/-- Storing a byte and deleting it again goes as on a map. -/
theorem calls_meet_map_byte :
    Along (step ruleModule ⟨none⟩ ()) (Meets ruleModule ⟨none⟩ ()) emptyHost
      [insertByte, deleteKey] := by
  apply (calls_meet_map_iff ruleModule ⟨none⟩ () emptyHost_ready
    (insert_within (by decide) (by decide +kernel))).mpr
  have hheld : (step ruleModule ⟨none⟩ () emptyHost insertByte).map
      (fun s => (s.store "rule.wasm").lookup "k") = some (some [7]) := by
    decide +kernel
  refine ⟨id, fun s (hs : step ruleModule ⟨none⟩ () emptyHost insertByte = some s) =>
    ⟨?_, fun _ _ => trivial⟩⟩
  rw [hs] at hheld
  intro hempty
  have hempty : (s.store "rule.wasm").lookup "k" = some [] := hempty
  rw [Option.map_some, hempty] at hheld
  cases hheld

/-- The empty value stays: `delete` returns `Ok` and the key is still there. -/
theorem delete_keeps_empty_value :
    ¬ Along (step ruleModule ⟨none⟩ ()) (Meets ruleModule ⟨none⟩ ()) emptyHost
        [insertEmpty, deleteKey] ∧
      ((run (step ruleModule ⟨none⟩ ()) emptyHost [insertEmpty, deleteKey]).map fun s =>
        (s.store "rule.wasm").lookup "k") = some (some []) := by
  have hrun : ((run (step ruleModule ⟨none⟩ ()) emptyHost [insertEmpty, deleteKey]).map fun s =>
      (s.store "rule.wasm").lookup "k") = some (some []) := by
    decide +kernel
  refine ⟨?_, hrun⟩
  intro h
  obtain ⟨t, ht, hlookup⟩ := Option.map_eq_some_iff.mp hrun
  obtain ⟨s, hs, ht⟩ := Option.bind_eq_some_iff.mp ht
  obtain ⟨s', hs', ht⟩ := Option.bind_eq_some_iff.mp ht
  cases ht
  obtain ⟨r, s₁, v, heval, -, habsent, -⟩ := (h.2 s hs).1
  obtain ⟨⟨r', u⟩, heval', rfl⟩ := Option.map_eq_some_iff.mp hs'
  obtain ⟨-, rfl⟩ := Prod.mk.inj (Option.some.inj (heval.symm.trans heval'))
  have habsent : (s₁.store "rule.wasm").lookup "k" = none := habsent
  rw [habsent] at hlookup
  cases hlookup

end example_run
end PlaidRuntime.StlMap
