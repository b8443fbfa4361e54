import PlaidRuntime.DynamodbProvider

/-! # Any provider will do

The three providers, started empty, give the same answers as one map for each namespace. -/
namespace PlaidRuntime.ProviderEquivalence
open GuestMemory StorageProvider ProviderCalls SledStore LocalProviders DynamodbProvider

/-- What is left open during a call: the order of a `HashMap` and the pages of a query. -/
structure Conditions where
  order : Iteration
  splitting : Splitting

def inMemory (c : Conditions) : Provider InMemoryDb := inMemoryProvider c.order

def sled (_ : Conditions) : Provider Db := sledProvider

def dynamodb (svc : Service) (c : Conditions) : Provider Table := dynamodbProvider svc c.splitting

def emptyStore : Store := fun _ => ∅

theorem inMemory_empty : InMemoryDb.Holds ∅ emptyStore := fun _ => rfl

theorem sled_empty : Sled.Holds Db.empty emptyStore := by
  constructor
  · intro ns key
    rw [Db.tree_empty]
    rfl
  · intro ns b hb
    rw [Db.tree_empty] at hb
    exact absurd hb (AList.notMem_empty b)

theorem dynamodb_empty : Holds ∅ emptyStore := fun _ _ => rfl

/-- Call by call the providers give the same result, up to the order of a listing, and it is
what the map gives. -/
theorem providers_interchangeable (svc : Service) (calls : List (Conditions × Call))
    (haccepts : ∀ c ∈ calls, svc.Accepts c.2.backend) :
    List.Forall₂ SameReply (replies inMemory ∅ calls) (replies sled Db.empty calls) ∧
      List.Forall₂ SameReply (replies inMemory ∅ calls) (replies (dynamodb svc) ∅ calls) ∧
      List.Forall₂ SameReply (replies inMemory ∅ calls)
        (replies (fun _ => mapProvider) emptyStore calls) := by
  have hmemory : List.Forall₂ SameReply (replies inMemory ∅ calls)
      (replies (fun _ => mapProvider) emptyStore calls) :=
    replies_of_simulates (fun c : Conditions => inMemory_simulates c.order) inMemory_empty
      fun _ _ => trivial
  have hsled : List.Forall₂ SameReply (replies sled Db.empty calls)
      (replies (fun _ => mapProvider) emptyStore calls) :=
    replies_of_simulates (fun _ : Conditions => sled_simulates) sled_empty fun _ _ => trivial
  have hdynamodb : List.Forall₂ SameReply (replies (dynamodb svc) ∅ calls)
      (replies (fun _ => mapProvider) emptyStore calls) :=
    replies_of_simulates (fun c : Conditions => dynamodb_simulates c.splitting) dynamodb_empty
      haccepts
  exact ⟨forall₂_common hmemory hsled, forall₂_common hmemory hdynamodb, hmemory⟩

section run

/-- The service as it is with regard to empty names. -/
def nonEmptyNames : Service where
  accepts x := decide (x ≠ "")
  acceptsItem _ := true
  rejection := "ValidationException"
  rawResponse := "raw response not available"

def plain : Iteration := ⟨AList.entries, fun _ => .refl _⟩

/-- One page up to the key `b`, and the rest. -/
def twoPages : Conditions := ⟨plain, ⟨["b"], List.pairwise_singleton _ _⟩⟩

def sampleCalls : List (Conditions × Call) :=
  [(twoPages, .request (.insert "ns" "a" [1])), (twoPages, .request (.insert "ns" "c" [2])),
    (twoPages, .request (.listKeys "ns" (some ""))), (twoPages, .getNamespaceByteSize "ns")]

theorem sampleCalls_interchangeable :
    (∀ c ∈ sampleCalls, nonEmptyNames.Accepts c.2.backend) ∧
      List.Forall₂ SameReply (replies inMemory ∅ sampleCalls)
        (replies (dynamodb nonEmptyNames) ∅ sampleCalls) := by
  have haccepts : ∀ c ∈ sampleCalls, nonEmptyNames.Accepts c.2.backend := by
    intro c hc
    simp only [sampleCalls, List.mem_cons, List.not_mem_nil, or_false] at hc
    rcases hc with rfl | rfl | rfl | rfl
    · exact ⟨rfl, rfl, rfl⟩
    · exact ⟨rfl, rfl, rfl⟩
    · exact ⟨rfl, fun x hx hne => decide_eq_true hne⟩
    · exact ⟨rfl, fun x hx hne => decide_eq_true hne⟩
  exact ⟨haccepts, (providers_interchangeable nonEmptyNames sampleCalls haccepts).2.1⟩

end run
end PlaidRuntime.ProviderEquivalence
