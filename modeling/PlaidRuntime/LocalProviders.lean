import PlaidRuntime.ProviderCalls
import PlaidRuntime.SledStore

/-!
# The in-memory and the sled provider

`storage/in_memory/mod.rs` and `storage/sled/mod.rs`, and that each of them simulates the map.
-/
namespace PlaidRuntime.LocalProviders
open KeyedContent GuestMemory StorageProvider ProviderCalls SledStore

/-- `HashMap<String, HashMap<String, Vec<u8>>>`. -/
abbrev InMemoryDb : Type := AList fun _ : String => Content

/-- The order in which a `HashMap` iterates. -/
structure Iteration where
  entries : Content → List (Σ _ : String, Bytes)
  perm : ∀ c, (entries c).Perm c.entries

namespace InMemoryDb
variable (db : InMemoryDb) (order : Iteration)

def insert (ns key : String) (value : Bytes) :
    Except StorageError (Option Bytes) × InMemoryDb :=
  let c := (db.lookup ns).getD ∅
  (.ok (c.lookup key), AList.insert ns (c.insert key value) db)

def get (ns key : String) : Except StorageError (Option Bytes) :=
  .ok ((db.lookup ns).bind fun c => c.lookup key)

def delete (ns key : String) : Except StorageError (Option Bytes) × InMemoryDb :=
  match db.lookup ns with
  | some c => (.ok (c.lookup key), AList.insert ns (c.erase key) db)
  | none => (.ok none, db)

def listKeys (ns : String) (p : Option String) : Except StorageError (List String) :=
  .ok (((db.lookup ns).map fun c =>
    ((order.entries c).map Sigma.fst).filter (startsWith p)).getD [])

def fetchAll (ns : String) (p : Option String) : Except StorageError Listing :=
  .ok (((db.lookup ns).map fun c =>
    ((order.entries c).filter fun e => startsWith p e.1).map fun e => (e.1, some e.2)).getD [])

end InMemoryDb

def inMemoryProvider (order : Iteration) : Provider InMemoryDb
  | db, .insert ns key value => db.insert ns key value
  | db, .get ns key => (db.get ns key, db)
  | db, .delete ns key => db.delete ns key
  | db, .listKeys ns p => (db.listKeys order ns p, db)
  | db, .fetchAll ns p => (db.fetchAll order ns p, db)

/-- A namespace that was never written counts as empty. -/
def InMemoryDb.Holds (db : InMemoryDb) (store : Store) : Prop :=
  ∀ ns, (db.lookup ns).getD ∅ = store ns

section inMemory
variable {db : InMemoryDb} {store : Store} {order : Iteration}

theorem InMemoryDb.Holds.write (h : db.Holds store) (ns : String) (c : Content) :
    InMemoryDb.Holds (AList.insert ns c db) (Function.update store ns c) := by
  intro ns'
  by_cases hn : ns' = ns
  · subst hn
    simp
  · rw [AList.lookup_insert_ne hn, Function.update_of_ne hn]
    exact h ns'

theorem InMemoryDb.Holds.lookup (h : db.Holds store) (ns key : String) :
    ((db.lookup ns).bind fun c => c.lookup key) = (store ns).lookup key := by
  rw [← h ns]
  cases db.lookup ns <;> rfl

variable (order) in
theorem InMemoryDb.fetchAll_perm (h : db.Holds store) (ns : String) (p : Option String) :
    ∃ l, db.fetchAll order ns p = .ok l ∧ l.Perm (allEntries (store ns) p) := by
  refine ⟨_, rfl, ?_⟩
  rw [← h ns]
  cases db.lookup ns with
  | none => exact .refl _
  | some c => exact ((order.perm c).filter _).map _

variable (order) in
theorem InMemoryDb.listKeys_perm (h : db.Holds store) (ns : String) (p : Option String) :
    ∃ l, db.listKeys order ns p = .ok l ∧ l.Perm ((allEntries (store ns) p).map Prod.fst) := by
  refine ⟨_, rfl, ?_⟩
  rw [← h ns]
  cases db.lookup ns with
  | none => exact .refl _
  | some c =>
    have hkeys := ((order.perm c).map Sigma.fst).filter (startsWith p)
    simpa [allEntries, List.filter_map, Function.comp_def] using hkeys

theorem inMemory_simulates (order : Iteration) :
    Simulates (inMemoryProvider order) InMemoryDb.Holds fun _ => True := by
  intro db store b h _
  cases b with
  | insert ns key value =>
    simp only [inMemoryProvider, InMemoryDb.insert, mapProvider, h ns]
    exact ⟨.value _, h.write ns _⟩
  | get ns key =>
    simp only [inMemoryProvider, InMemoryDb.get, mapProvider, h.lookup]
    exact ⟨.value _, h⟩
  | delete ns key =>
    simp only [inMemoryProvider, InMemoryDb.delete, mapProvider]
    have hns := h ns
    cases hl : db.lookup ns with
    | none =>
      rw [hl] at hns
      have hempty : store ns = ∅ := hns.symm
      have hsame : Function.update store ns ((store ns).erase key) = store := by
        rw [erase_of_lookup_none _ _ (by rw [hempty]; rfl), Function.update_eq_self]
      rw [hsame, hempty]
      exact ⟨.value _, h⟩
    | some c =>
      rw [hl] at hns
      have hc : c = store ns := hns
      rw [hc]
      exact ⟨.value _, h.write ns _⟩
  | listKeys ns p =>
    obtain ⟨l, hl, hperm⟩ := InMemoryDb.listKeys_perm order h ns p
    simp only [inMemoryProvider, mapProvider, hl]
    exact ⟨.keys hperm, h⟩
  | fetchAll ns p =>
    obtain ⟨l, hl, hperm⟩ := InMemoryDb.fetchAll_perm order h ns p
    simp only [inMemoryProvider, mapProvider, hl]
    exact ⟨.entries hperm, h⟩

end inMemory
/-! The wrapper around a sled database. Trees iterate in the order of their keys. -/
namespace Sled
variable (db : Db)

def iter (tree : Tree) : List (Σ _ : Bytes, Bytes) :=
  tree.entries.mergeSort fun a b => decide (a.1 ≤ b.1)

def scanPrefix (tree : Tree) (p : Bytes) : List (Σ _ : Bytes, Bytes) :=
  (iter tree).filter fun e => p.isPrefixOf e.1

def keyIter (tree : Tree) : Option String → List (Σ _ : Bytes, Bytes)
  | some p => scanPrefix tree (asBytes p)
  | none => iter tree

def insert (ns key : String) (value : Bytes) : Except StorageError (Option Bytes) × Db :=
  let db := db.openTree (asBytes ns)
  let tree := db.tree (asBytes ns)
  (.ok (tree.lookup (asBytes key)), db.setTree (asBytes ns) (tree.insert (asBytes key) value))

def get (ns key : String) : Except StorageError (Option Bytes) × Db :=
  let db := db.openTree (asBytes ns)
  (.ok ((db.tree (asBytes ns)).lookup (asBytes key)), db)

def delete (ns key : String) : Except StorageError (Option Bytes) × Db :=
  let db := db.openTree (asBytes ns)
  let tree := db.tree (asBytes ns)
  (.ok (tree.lookup (asBytes key)), db.setTree (asBytes ns) (tree.erase (asBytes key)))

def listKeys (ns : String) (p : Option String) : Except StorageError (List String) × Db :=
  let db := db.openTree (asBytes ns)
  (.ok ((keyIter (db.tree (asBytes ns)) p).filterMap fun e => fromUtf8 e.1), db)

def fetchAll (ns : String) (p : Option String) : Except StorageError Listing × Db :=
  let db := db.openTree (asBytes ns)
  (.ok ((keyIter (db.tree (asBytes ns)) p).filterMap fun e =>
    (fromUtf8 e.1).map fun key => (key, some e.2)), db)

end Sled

def sledProvider : Provider Db
  | db, .insert ns key value => Sled.insert db ns key value
  | db, .get ns key => Sled.get db ns key
  | db, .delete ns key => Sled.delete db ns key
  | db, .listKeys ns p => Sled.listKeys db ns p
  | db, .fetchAll ns p => Sled.fetchAll db ns p

/-- The tree of a namespace has the entries of the namespace and no others. -/
structure Sled.Holds (db : Db) (store : Store) : Prop where
  lookup : ∀ ns key, (db.tree (asBytes ns)).lookup (asBytes key) = (store ns).lookup key
  keys : ∀ ns b, b ∈ db.tree (asBytes ns) → ∃ key, b = asBytes key

section sled
variable {db : Db} {store : Store} {tree : Tree} {c : Content}

theorem Sled.Holds.openTree (h : Sled.Holds db store) (ns : String) :
    Sled.Holds (db.openTree (asBytes ns)) store := by
  constructor
  · intro ns' key
    rw [Db.tree_openTree]
    exact h.lookup ns' key
  · intro ns' b hb
    rw [Db.tree_openTree] at hb
    exact h.keys ns' b hb

theorem Sled.Holds.setTree (h : Sled.Holds db store) (ns : String)
    (hl : ∀ key, tree.lookup (asBytes key) = c.lookup key)
    (hk : ∀ b ∈ tree, ∃ key, b = asBytes key) :
    Sled.Holds (db.setTree (asBytes ns) tree) (Function.update store ns c) := by
  constructor
  · intro ns' key
    by_cases hn : ns' = ns
    · subst hn
      rw [Db.tree_setTree, Function.update_self]
      exact hl key
    · rw [Db.tree_setTree_of_ne _ (fun he => hn (asBytes_inj he)), Function.update_of_ne hn]
      exact h.lookup ns' key
  · intro ns' b hb
    by_cases hn : ns' = ns
    · subst hn
      rw [Db.tree_setTree] at hb
      exact hk b hb
    · rw [Db.tree_setTree_of_ne _ (fun he => hn (asBytes_inj he))] at hb
      exact h.keys ns' b hb

theorem lookup_insert_asBytes (hl : ∀ key, tree.lookup (asBytes key) = c.lookup key)
    (key : String) (value : Bytes) (key' : String) :
    (tree.insert (asBytes key) value).lookup (asBytes key') =
      (c.insert key value).lookup key' := by
  by_cases hk : key' = key
  · subst hk
    rw [AList.lookup_insert, AList.lookup_insert]
  · rw [AList.lookup_insert_ne (fun he => hk (asBytes_inj he)), AList.lookup_insert_ne hk]
    exact hl key'

theorem lookup_erase_asBytes (hl : ∀ key, tree.lookup (asBytes key) = c.lookup key)
    (key key' : String) :
    (tree.erase (asBytes key)).lookup (asBytes key') = (c.erase key).lookup key' := by
  by_cases hk : key' = key
  · subst hk
    rw [AList.lookup_erase, AList.lookup_erase]
  · rw [AList.lookup_erase_ne (fun he => hk (asBytes_inj he)), AList.lookup_erase_ne hk]
    exact hl key'

theorem startsWith_iff {p key : String} :
    startsWith (some p) key = true ↔ asBytes p <+: asBytes key := by
  rw [asBytes_prefix_iff]
  exact List.isPrefixOf_iff_prefix

theorem Sled.mem_keyIter {p : Option String} {key : String} {value : Bytes} :
    (⟨asBytes key, value⟩ : Σ _ : Bytes, Bytes) ∈ Sled.keyIter tree p ↔
      tree.lookup (asBytes key) = some value ∧ startsWith p key = true := by
  have hiter : (⟨asBytes key, value⟩ : Σ _ : Bytes, Bytes) ∈ Sled.iter tree ↔
      tree.lookup (asBytes key) = some value := by
    rw [← Option.mem_def, AList.mem_lookup_iff]
    exact (List.mergeSort_perm _ _).mem_iff
  cases p with
  | none => simpa [Sled.keyIter, startsWith] using hiter
  | some p =>
    rw [startsWith_iff, ← List.isPrefixOf_iff_prefix, ← hiter]
    exact List.mem_filter

theorem Sled.keyIter_keys_nodup (p : Option String) :
    ((Sled.keyIter tree p).map Sigma.fst).Nodup := by
  have hiter : ((Sled.iter tree).map Sigma.fst).Nodup :=
    ((List.mergeSort_perm _ _).map Sigma.fst).nodup_iff.mpr tree.keys_nodup
  cases p with
  | none => exact hiter
  | some p => exact (List.filter_sublist.map Sigma.fst).nodup hiter

/-- The keys of a listing are those that decode. -/
theorem Sled.listed_keys (l : List (Σ _ : Bytes, Bytes)) :
    (l.filterMap fun e => (fromUtf8 e.1).map fun key => (key, some e.2)).map Prod.fst =
      l.filterMap fun e => fromUtf8 e.1 := by
  induction l with
  | nil => rfl
  | cons e l ih =>
    cases h : fromUtf8 e.1 with
    | none => simpa [h] using ih
    | some key => simpa [h] using ih

theorem Sled.fetchAll_perm (h : Sled.Holds db store) (ns : String) (p : Option String) :
    ((Sled.keyIter (db.tree (asBytes ns)) p).filterMap fun e =>
      (fromUtf8 e.1).map fun key => (key, some e.2)).Perm (allEntries (store ns) p) := by
  apply listing_perm
  · rw [Sled.listed_keys]
    have hmap : (Sled.keyIter (db.tree (asBytes ns)) p).filterMap (fun e => fromUtf8 e.1) =
        ((Sled.keyIter (db.tree (asBytes ns)) p).map Sigma.fst).filterMap fromUtf8 := by
      rw [List.filterMap_map]
      rfl
    rw [hmap]
    refine (Sled.keyIter_keys_nodup p).filterMap fun b b' key hb hb' => ?_
    rw [← asBytes_of_fromUtf8 hb, ← asBytes_of_fromUtf8 hb']
  · intro key v
    rw [List.mem_filterMap]
    constructor
    · rintro ⟨⟨b, w⟩, hmem, hkey⟩
      obtain ⟨key', hdecode, heq⟩ := Option.map_eq_some_iff.mp hkey
      cases heq
      obtain rfl : asBytes key = b := asBytes_of_fromUtf8 hdecode
      rw [Sled.mem_keyIter, h.lookup] at hmem
      exact ⟨w, rfl, hmem⟩
    · rintro ⟨w, rfl, hmem⟩
      rw [← h.lookup, ← Sled.mem_keyIter] at hmem
      exact ⟨_, hmem, by simp [fromUtf8_asBytes]⟩

theorem sled_simulates : Simulates sledProvider Sled.Holds fun _ => True := by
  intro db store b h _
  cases b with
  | insert ns key value =>
    have ho := h.openTree ns
    simp only [sledProvider, Sled.insert, mapProvider, ho.lookup]
    refine ⟨.value _, ho.setTree ns ?_ ?_⟩
    · exact lookup_insert_asBytes (ho.lookup ns) key value
    · intro b hb
      rcases (AList.mem_insert _).mp hb with rfl | hb
      · exact ⟨key, rfl⟩
      · exact ho.keys ns b hb
  | get ns key =>
    have ho := h.openTree ns
    simp only [sledProvider, Sled.get, mapProvider, ho.lookup]
    exact ⟨.value _, ho⟩
  | delete ns key =>
    have ho := h.openTree ns
    simp only [sledProvider, Sled.delete, mapProvider, ho.lookup]
    refine ⟨.value _, ho.setTree ns (lookup_erase_asBytes (ho.lookup ns) key) ?_⟩
    exact fun b hb => ho.keys ns b (AList.mem_erase.mp hb).2
  | listKeys ns p =>
    have ho := h.openTree ns
    have hperm := (Sled.fetchAll_perm ho ns p).map Prod.fst
    rw [Sled.listed_keys] at hperm
    exact ⟨.keys hperm, ho⟩
  | fetchAll ns p =>
    have ho := h.openTree ns
    exact ⟨.entries (Sled.fetchAll_perm ho ns p), ho⟩

end sled
end PlaidRuntime.LocalProviders
