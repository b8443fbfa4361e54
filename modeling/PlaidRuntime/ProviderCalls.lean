import PlaidRuntime.StepMachine
import PlaidRuntime.StorageProvider

/-!
# Calls on a storage provider

The methods every provider offers (`storage/mod.rs`), the map that each of them stands for, and
when two providers answer alike.
-/
namespace PlaidRuntime.ProviderCalls
open StepMachine KeyedContent MachineWord GuestMemory StorageProvider

/-- A provider with state `σ`, method by method. -/
abbrev Provider (σ : Type) : Type := σ → (b : BackendRequest) → BackendReply b × σ

inductive Call
  | request (b : BackendRequest)
  | getNamespaceByteSize (ns : String)

inductive Reply
  | value (v : Option Bytes)
  | keys (l : List String)
  | entries (l : Listing)
  | size (n : ℕ)

def Reply.ofBackend : (b : BackendRequest) → BackendReply b → Except StorageError Reply
  | .insert _ _ _, r => r.map .value
  | .get _ _, r => r.map .value
  | .delete _ _, r => r.map .value
  | .listKeys _ _, r => r.map .keys
  | .fetchAll _ _, r => r.map .entries

/-- The size of a namespace has a default method, which no provider replaces. -/
def Provider.call {σ : Type} (p : Provider σ) (s : σ) : Call → Except StorageError Reply × σ
  | .request b => (Reply.ofBackend b (p s b).1, (p s b).2)
  | .getNamespaceByteSize ns =>
    ((p s (.fetchAll ns none)).1.map fun all => .size (StorageProvider.getNamespaceByteSize all),
      (p s (.fetchAll ns none)).2)

/-- A method as the map has it: writing and deleting return the value before, a listing has the
entries whose key starts with the prefix. -/
def mapProvider : Provider Store
  | store, .insert ns key value =>
    (.ok ((store ns).lookup key), Function.update store ns ((store ns).insert key value))
  | store, .get ns key => (.ok ((store ns).lookup key), store)
  | store, .delete ns key =>
    (.ok ((store ns).lookup key), Function.update store ns ((store ns).erase key))
  | store, .listKeys ns p => (.ok ((allEntries (store ns) p).map Prod.fst), store)
  | store, .fetchAll ns p => (.ok (allEntries (store ns) p), store)

/-- Both calls succeed with the same result, listings up to their order. -/
inductive SameReply : Except StorageError Reply → Except StorageError Reply → Prop
  | value (v : Option Bytes) : SameReply (.ok (.value v)) (.ok (.value v))
  | keys {l l' : List String} (h : l.Perm l') : SameReply (.ok (.keys l)) (.ok (.keys l'))
  | entries {l l' : Listing} (h : l.Perm l') : SameReply (.ok (.entries l)) (.ok (.entries l'))
  | size (n : ℕ) : SameReply (.ok (.size n)) (.ok (.size n))

theorem SameReply.symm {r r' : Except StorageError Reply} (h : SameReply r r') :
    SameReply r' r := by
  cases h with
  | value v => exact .value v
  | keys h => exact .keys h.symm
  | entries h => exact .entries h.symm
  | size n => exact .size n

theorem SameReply.trans {r r' r'' : Except StorageError Reply} (h : SameReply r r')
    (h' : SameReply r' r'') : SameReply r r'' := by
  cases h with
  | value v => exact h'
  | keys h => cases h' with | keys h' => exact .keys (h.trans h')
  | entries h => cases h' with | entries h' => exact .entries (h.trans h')
  | size n => exact h'

theorem forall₂_common {l l' m : List (Except StorageError Reply)}
    (h : List.Forall₂ SameReply l m) (h' : List.Forall₂ SameReply l' m) :
    List.Forall₂ SameReply l l' := by
  induction h generalizing l' with
  | nil =>
    cases h'
    exact .nil
  | cons hr _ ih =>
    cases h' with
    | cons hr' h' => exact .cons (hr.trans hr'.symm) (ih h')

/-- What the calls of a list give, each with the provider as it is during the call. -/
def replies {σ ε : Type} (p : ε → Provider σ) (s : σ) (calls : List (ε × Call)) :
    List (Except StorageError Reply) :=
  answers (fun s c => (p c.1).call s c.2) s calls

/-- Every request that `Ok` allows is answered as by the map, and the states stay related. -/
def Simulates {σ : Type} (p : Provider σ) (R : σ → Store → Prop) (Ok : BackendRequest → Prop) :
    Prop :=
  ∀ s store b, R s store → Ok b →
    SameReply (Reply.ofBackend b (p s b).1) (Reply.ofBackend b (mapProvider store b).1) ∧
      R (p s b).2 (mapProvider store b).2

/-- The request behind a call. -/
def Call.backend : Call → BackendRequest
  | .request b => b
  | .getNamespaceByteSize ns => .fetchAll ns none

theorem getNamespaceByteSize_perm {l l' : Listing} (h : l.Perm l') :
    StorageProvider.getNamespaceByteSize l = StorageProvider.getNamespaceByteSize l' :=
  sumU64_of_perm (h.map listedSize)

theorem sameReply_entries {r : Except StorageError Listing} {l : Listing}
    (h : SameReply (r.map .entries) (.ok (.entries l))) : ∃ l', r = .ok l' ∧ l'.Perm l := by
  cases r with
  | error e => cases h
  | ok l' =>
    cases h with
    | entries h => exact ⟨l', rfl, h⟩

section simulation
variable {σ : Type} {p : Provider σ} {R : σ → Store → Prop} {Ok : BackendRequest → Prop}

theorem Simulates.call (hp : Simulates p R Ok) {s : σ} {store : Store} {c : Call}
    (h : R s store) (hc : Ok c.backend) :
    SameReply (p.call s c).1 (mapProvider.call store c).1 ∧
      R (p.call s c).2 (mapProvider.call store c).2 := by
  cases c with
  | request b => exact hp s store b h hc
  | getNamespaceByteSize ns =>
    obtain ⟨hsame, hrel⟩ := hp s store (.fetchAll ns none) h hc
    obtain ⟨l, hl, hperm⟩ := sameReply_entries hsame
    refine ⟨?_, hrel⟩
    simp only [Provider.call, hl]
    rw [show (mapProvider store (.fetchAll ns none)).1 = .ok (allEntries (store ns) none) from rfl]
    simp only [Except.map, getNamespaceByteSize_perm hperm]
    exact .size _

/-- A provider that simulates the map in whatever environment answers like it all the way. -/
theorem replies_of_simulates {ε : Type} {p : ε → Provider σ}
    (hp : ∀ e, Simulates (p e) R Ok) {s : σ} {store : Store} (h : R s store)
    {calls : List (ε × Call)} (hcalls : ∀ c ∈ calls, Ok c.2.backend) :
    List.Forall₂ SameReply (replies p s calls) (replies (fun _ => mapProvider) store calls) := by
  have hstep : ∀ s store (c : ε × Call), R s store → Ok c.2.backend →
      SameReply ((p c.1).call s c.2).1 (mapProvider.call store c.2).1 ∧
        R ((p c.1).call s c.2).2 (mapProvider.call store c.2).2 :=
    fun _ _ c hs hc => (hp c.1).call hs hc
  exact answers_related hstep h hcalls

/-- A simulated answer is one that the hosts of rules reckon with. -/
theorem Simulates.allowed (hp : Simulates p R Ok) {s : σ} {store : Store} {b : BackendRequest}
    (h : R s store) (hb : Ok b) :
    ∃ o, o.isFailure = false ∧
      backendReply store b o = some ((p s b).1, (mapProvider store b).2) := by
  have hsame := (hp s store b h hb).1
  revert hsame
  generalize (p s b).1 = r
  intro hsame
  cases b with
  | listKeys ns q =>
    cases r with
    | error e => cases hsame
    | ok l =>
      cases hsame with
      | keys hl => exact ⟨.okKeys l, rfl, if_pos (List.isPerm_iff.mpr hl)⟩
  | fetchAll ns q =>
    cases r with
    | error e => cases hsame
    | ok l =>
      cases hsame with
      | entries hl => exact ⟨.okEntries l, rfl, if_pos (List.isPerm_iff.mpr hl)⟩
  | _ =>
    cases r with
    | error e => cases hsame
    | ok v =>
      cases hsame
      exact ⟨.ok, rfl, rfl⟩

end simulation

section listing
variable {c : Content} {p : Option String}

theorem allEntries_keys_nodup : ((allEntries c p).map Prod.fst).Nodup := by
  have hsub : (c.entries.filter fun e => startsWith p e.1).Sublist c.entries :=
    List.filter_sublist
  have hmap := hsub.map Sigma.fst
  have heq : (allEntries c p).map Prod.fst =
      (c.entries.filter fun e => startsWith p e.1).map Sigma.fst := by
    simp [allEntries, Function.comp_def]
  rw [heq]
  exact hmap.nodup c.keys_nodup

theorem mem_allEntries {key : String} {v : Option Bytes} :
    (key, v) ∈ allEntries c p ↔
      ∃ w, v = some w ∧ c.lookup key = some w ∧ startsWith p key = true := by
  simp only [← Option.mem_def, AList.mem_lookup_iff]
  constructor
  · intro h
    obtain ⟨e, he, heq⟩ := List.mem_map.mp h
    obtain ⟨hmem, hstart⟩ := List.mem_filter.mp he
    cases heq
    exact ⟨e.2, rfl, hmem, hstart⟩
  · rintro ⟨w, rfl, hmem, hstart⟩
    exact List.mem_map.mpr ⟨⟨key, w⟩, List.mem_filter.mpr ⟨hmem, hstart⟩, rfl⟩

/-- A listing is known by its members when no key is listed twice. -/
theorem listing_perm {l : Listing} (hl : (l.map Prod.fst).Nodup)
    (h : ∀ key v, (key, v) ∈ l ↔
      ∃ w, v = some w ∧ c.lookup key = some w ∧ startsWith p key = true) :
    l.Perm (allEntries c p) := by
  apply (List.perm_ext_iff_of_nodup hl.of_map allEntries_keys_nodup.of_map).mpr
  rintro ⟨key, v⟩
  rw [h, mem_allEntries]

end listing
end PlaidRuntime.ProviderCalls
