import PlaidRuntime.EffectProgram
import PlaidRuntime.KeyRanges
import PlaidRuntime.KeyedContent
import PlaidRuntime.GuestMemory

/-!
# Storage providers

Every backend keeps, for each namespace, a finite map from keys to values
(`storage/mod.rs`). A call either acts on that map or fails and leaves it alone; a listing
may come in any order.
-/
namespace PlaidRuntime.StorageProvider
open EffectProgram KeyRanges KeyedContent MachineWord GuestMemory

inductive StorageError
  | storageInitError (e : String)
  | noStorageConfigured
  | couldNotAccessStorage (e : String)
  | access (e : String)
  | sharedDbError (e : String)
  deriving DecidableEq, Repr

def StorageError.display : StorageError → String
  | .storageInitError e => "Error while initializing storage: " ++ e
  | .noStorageConfigured => "No storage system configuration could be found"
  | .couldNotAccessStorage e => "Access to the storage datastore was not possible: " ++ e
  | .access e => "There was a failure accessing a key: " ++ e
  | .sharedDbError e => "Error while attempting an operation on a shared DB: " ++ e

/-- The entries of one namespace. -/
abbrev Content := AList fun _ : String => Bytes

abbrev Store := String → Content

/-- An item of a backend may lack its value attribute, so listings carry options. -/
abbrev Listing := List (String × Option Bytes)

inductive BackendRequest
  | insert (ns key : String) (value : Bytes)
  | get (ns key : String)
  | delete (ns key : String)
  | listKeys (ns : String) (keyPrefix : Option String)
  | fetchAll (ns : String) (keyPrefix : Option String)

abbrev BackendReply : BackendRequest → Type
  | .insert _ _ _ => Except StorageError (Option Bytes)
  | .get _ _ => Except StorageError (Option Bytes)
  | .delete _ _ => Except StorageError (Option Bytes)
  | .listKeys _ _ => Except StorageError (List String)
  | .fetchAll _ _ => Except StorageError Listing

def startsWith (keyPrefix : Option String) (key : String) : Bool :=
  match keyPrefix with
  | none => true
  | some p => p.toList.isPrefixOf key.toList

def allEntries (c : Content) (keyPrefix : Option String) : Listing :=
  (c.entries.filter fun e => startsWith keyPrefix e.1).map fun e => (e.1, some e.2)

/-- How one backend call turns out. -/
inductive Outcome
  | ok
  | okKeys (keys : List String)
  | okEntries (entries : Listing)
  | okPage (items : Listing) (last : Option String)
  | fails (e : StorageError)
  deriving DecidableEq

def Outcome.isFailure : Outcome → Bool
  | .fails _ => true
  | _ => false

def backendReply (store : Store) : (b : BackendRequest) → Outcome → Option (BackendReply b × Store)
  | .insert ns key value, .ok =>
    some (.ok ((store ns).lookup key), Function.update store ns ((store ns).insert key value))
  | .get ns key, .ok => some (.ok ((store ns).lookup key), store)
  | .delete ns key, .ok =>
    some (.ok ((store ns).lookup key), Function.update store ns ((store ns).erase key))
  | .listKeys ns p, .okKeys keys =>
    if keys.isPerm ((allEntries (store ns) p).map Prod.fst) then some (.ok keys, store) else none
  | .fetchAll ns p, .okEntries es =>
    if es.isPerm (allEntries (store ns) p) then some (.ok es, store) else none
  | .insert _ _ _, .fails e => some (.error e, store)
  | .get _ _, .fails e => some (.error e, store)
  | .delete _ _, .fails e => some (.error e, store)
  | .listKeys _ _, .fails e => some (.error e, store)
  | .fetchAll _ _, .fails e => some (.error e, store)
  | _, _ => none

/-- One page of a listing: the entries after the last key of the page before, up to its own last
key, which is missing on the page that ends the listing. -/
def isPage (c : Content) (first : Option String) (items : Listing) (last : Option String) : Bool :=
  items.isPerm (range Prod.fst first last (allEntries c none)) && last.all (after first)

/-- The pages so far and what is left of the listing make up all entries. -/
def Fetched (c : Content) (first : Option String) (output : Listing) : Prop :=
  (output ++ range Prod.fst first none (allEntries c none)).Perm (allEntries c none)

section pages
variable {c : Content} {first : Option String} {output items : Listing}

theorem fetched_nil (c : Content) : Fetched c none [] := by
  simp [Fetched, range, after, upTo]

theorem Fetched.next {last : String} (h : Fetched c first output)
    (hpage : isPage c first items (some last) = true) : Fetched c (some last) (output ++ items) := by
  obtain ⟨hitems, hlast⟩ := Bool.and_eq_true_iff.mp hpage
  have hsplit := range_append_range Prod.fst hlast (allEntries c none)
  have hleft := ((List.isPerm_iff.mp hitems).append_right _).trans hsplit
  rw [Fetched, List.append_assoc]
  exact (hleft.append_left output).trans h

theorem Fetched.last (h : Fetched c first output) (hpage : isPage c first items none = true) :
    (output ++ items).Perm (allEntries c none) := by
  have hitems := List.isPerm_iff.mp (Bool.and_eq_true_iff.mp hpage).1
  exact (hitems.append_left output).trans h

end pages

/-- Every backend call reads or changes the entries of one namespace. -/
def BackendRequest.ns : BackendRequest → String
  | .insert ns _ _ => ns
  | .get ns _ => ns
  | .delete ns _ => ns
  | .listKeys ns _ => ns
  | .fetchAll ns _ => ns

/-- Two contents with the same entries, in whatever order. -/
def SameEntries (c c' : Content) : Prop := c.entries.Perm c'.entries

theorem SameEntries.allEntries {c c' : Content} (h : SameEntries c c') (p : Option String) :
    (allEntries c p).Perm (allEntries c' p) :=
  (h.filter _).map _

theorem SameEntries.lookup {c c' : Content} (h : SameEntries c c') (key : String) :
    c.lookup key = c'.lookup key :=
  AList.perm_lookup h

section related
variable {P : String → Prop} {store store' : Store}

theorem related_update (h : ∀ ns, P ns → SameEntries (store ns) (store' ns)) (n : String)
    {c c' : Content} (hc : SameEntries c c') (ns : String) (hns : P ns) :
    SameEntries (Function.update store n c ns) (Function.update store' n c' ns) := by
  by_cases he : ns = n
  · subst he
    simpa using hc
  · simpa [he] using h ns hns

/-- A call answers alike on two stores that agree on its namespace, and they agree afterwards
wherever they did. -/
theorem backendReply_related {u : Store} {b : BackendRequest} {o : Outcome} {r : BackendReply b}
    (h : ∀ ns, P ns → SameEntries (store ns) (store' ns)) (hb : P b.ns)
    (hr : backendReply store b o = some (r, u)) :
    ∃ u', backendReply store' b o = some (r, u') ∧ ∀ ns, P ns → SameEntries (u ns) (u' ns) := by
  have hn := h b.ns hb
  cases o with
  | ok =>
    cases b with
    | insert n key value =>
      have hl : (store n).lookup key = (store' n).lookup key := hn.lookup key
      cases hr
      rw [hl]
      exact ⟨_, rfl, related_update h n (AList.perm_insert hn)⟩
    | delete n key =>
      have hl : (store n).lookup key = (store' n).lookup key := hn.lookup key
      cases hr
      rw [hl]
      exact ⟨_, rfl, related_update h n (AList.perm_erase hn)⟩
    | get n key =>
      have hl : (store n).lookup key = (store' n).lookup key := hn.lookup key
      cases hr
      rw [hl]
      exact ⟨store', rfl, h⟩
    | _ => cases hr
  | okKeys keys =>
    cases b with
    | listKeys n p =>
      simp only [backendReply] at hr ⊢
      split at hr
      · rename_i hp
        cases hr
        have hp' := (List.isPerm_iff.mp hp).trans ((hn.allEntries p).map Prod.fst)
        exact ⟨store', if_pos (List.isPerm_iff.mpr hp'), h⟩
      · cases hr
    | _ => cases hr
  | okEntries es =>
    cases b with
    | fetchAll n p =>
      simp only [backendReply] at hr ⊢
      split at hr
      · rename_i hp
        cases hr
        have hp' := (List.isPerm_iff.mp hp).trans (hn.allEntries p)
        exact ⟨store', if_pos (List.isPerm_iff.mpr hp'), h⟩
      · cases hr
    | _ => cases hr
  | okPage items last => cases b <;> cases hr
  | fails e => cases b <;> cases hr <;> exact ⟨store', rfl, h⟩

end related

/-- What a listing can answer: all entries in some order, or a failure. -/
theorem fetchAll_reply {store store' : Store} {ns : String} {p : Option String} {o : Outcome}
    {r : Except StorageError Listing}
    (h : backendReply store (.fetchAll ns p) o = some (r, store')) :
    store' = store ∧
      ((∃ all, r = .ok all ∧ all.Perm (allEntries (store ns) p)) ∨ ∃ e, r = .error e) := by
  cases o with
  | okEntries all =>
    simp only [backendReply] at h
    split at h
    · rename_i hp
      cases h
      exact ⟨rfl, Or.inl ⟨all, rfl, List.isPerm_iff.mp hp⟩⟩
    · cases h
  | fails e =>
    cases h
    exact ⟨rfl, Or.inr ⟨e, rfl⟩⟩
  | _ => cases h

/-- Bytes of one entry: its key and its value. -/
def entrySize (key : String) (value : Bytes) : ℕ := key.utf8ByteSize + value.length

/-- Bytes actually stored in a namespace. -/
def byteSize (c : Content) : ℕ := weight entrySize c

def listedSize (e : String × Option Bytes) : ℕ :=
  addU64 e.1.utf8ByteSize (e.2.elim 0 List.length)

/-- `get_namespace_byte_size` on the entries `fetch_all` returned. -/
def getNamespaceByteSize (all : Listing) : ℕ := sumU64 (all.map listedSize)

theorem allEntries_none (c : Content) :
    allEntries c none = c.entries.map fun e => (e.1, some e.2) := by
  simp [allEntries, startsWith]

/-- The size read back at boot is the number of bytes stored, whatever the listing order. -/
theorem getNamespaceByteSize_listing {c : Content} {all : Listing}
    (h : all.Perm (allEntries c none)) (hc : byteSize c < 2 ^ 64) :
    getNamespaceByteSize all = byteSize c := by
  have hsum : ((allEntries c none).map fun e => e.1.utf8ByteSize + e.2.elim 0 List.length).sum =
      byteSize c := by
    simp [allEntries_none, byteSize, weight, entrySize, Function.comp_def]
  have hperm := (h.map fun e => e.1.utf8ByteSize + e.2.elim 0 List.length).sum_eq
  have he : all.map listedSize =
      all.map fun e => e.1.utf8ByteSize + e.2.elim 0 List.length := by
    apply List.map_congr_left
    intro e he
    apply addU64_of_lt
    have := List.single_le_sum (l := all.map fun e => e.1.utf8ByteSize + e.2.elim 0 List.length)
      (by simp) _ (List.mem_map.mpr ⟨e, he, rfl⟩)
    omega
  rw [getNamespaceByteSize, he, sumU64_of_lt (by omega)]
  omega

end PlaidRuntime.StorageProvider
