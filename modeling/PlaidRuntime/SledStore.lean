import PlaidRuntime.GuestMemory

/-!
# A sled database

Named trees, each a map from byte strings to byte strings. The unnamed default tree is the one
that sled keeps under a name of its own.
-/
namespace PlaidRuntime.SledStore
open GuestMemory

abbrev Tree := AList fun _ : Bytes => Bytes

def defaultTreeName : Bytes := asBytes "__sled__default"

structure Db where
  trees : AList fun _ : Bytes => Tree
  has_default : defaultTreeName ∈ trees

/-- A tree that has never been opened is empty. -/
def Db.tree (db : Db) (name : Bytes) : Tree := (db.trees.lookup name).getD ∅

def Db.setTree (db : Db) (name : Bytes) (t : Tree) : Db where
  trees := db.trees.insert name t
  has_default := (AList.mem_insert db.trees).mpr (Or.inr db.has_default)

/-- Opening a tree creates it. -/
def Db.openTree (db : Db) (name : Bytes) : Db := db.setTree name (db.tree name)

def Db.empty : Db where
  trees := AList.singleton defaultTreeName ∅
  has_default := by simp [AList.mem_keys]

variable (db : Db) (name : Bytes)

@[simp] theorem Db.tree_setTree (t : Tree) : (db.setTree name t).tree name = t := by
  simp [Db.tree, Db.setTree]

theorem Db.tree_setTree_of_ne {name other : Bytes} (h : other ≠ name) (t : Tree) :
    (db.setTree name t).tree other = db.tree other := by
  simp [Db.tree, Db.setTree, AList.lookup_insert_ne h]

@[simp] theorem Db.tree_openTree (other : Bytes) : (db.openTree name).tree other = db.tree other := by
  by_cases h : other = name
  · subst h
    exact db.tree_setTree other _
  · exact db.tree_setTree_of_ne h _

@[simp] theorem Db.tree_empty (name : Bytes) : Db.empty.tree name = ∅ := by
  unfold Db.tree
  cases h : Db.empty.trees.lookup name with
  | none => rfl
  | some t =>
    have hmem : name ∈ Db.empty.trees := AList.lookup_isSome.mp (by rw [h]; rfl)
    obtain rfl : name = defaultTreeName := by simpa [Db.empty, AList.mem_keys] using hmem
    have ht : some (∅ : Tree) = some t := by
      rw [← h]
      rfl
    exact (Option.some.inj ht).symm

/-- A tree with an entry has been opened. -/
theorem Db.mem_trees_of_lookup {key value : Bytes} (h : (db.tree name).lookup key = some value) :
    name ∈ db.trees := by
  rw [← AList.lookup_isSome]
  unfold Db.tree at h
  cases hl : db.trees.lookup name with
  | none =>
    rw [hl] at h
    cases h
  | some t => rfl

end PlaidRuntime.SledStore
