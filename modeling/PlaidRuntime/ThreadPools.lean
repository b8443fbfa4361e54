import PlaidRuntime.StepMachine
import PlaidRuntime.LogbackMessage

/-!
# Execution thread pools

A general pool and one pool for each log type that has dedicated threads. Messages of POST
webhooks are routed by their type; every other producer holds a sender of the general pool
(`executor/thread_pools.rs`, `executor/mod.rs`, `bin/plaid.rs`).
-/
namespace PlaidRuntime.ThreadPools
open StepMachine LogbackMessage

structure ExecutionThreadPools where
  generalThreads : UInt8
  dedicated : AList fun _ : String => UInt8

/-- The pool dedicated to a log type, `none` for the general one. -/
abbrev Pool := Option String

namespace ExecutionThreadPools
variable (pools : ExecutionThreadPools)

def poolOf (type_ : String) : Pool := if (pools.dedicated.lookup type_).isSome then some type_ else none

def numThreads : Pool → ℕ
  | none => pools.generalThreads.toNat
  | some type_ => (pools.dedicated.lookup type_).elim 0 UInt8.toNat

end ExecutionThreadPools

variable {pools : ExecutionThreadPools}

/-- The threads that `Executor::new` spawns. -/
structure Thread (pools : ExecutionThreadPools) where
  pool : Pool
  index : ℕ
  index_lt : index < pools.numThreads pool
  deriving DecidableEq

/-- Who sends messages besides the POST webhooks. -/
inductive Producer
  | webhookGet
  | immediateLogback
  | delayedLogback
  | dataGenerator
  | intervalJob
  deriving DecidableEq, Repr

structure Executor (pools : ExecutionThreadPools) where
  queues : Pool → List Message
  executing : Thread pools → Option Message

inductive Event (pools : ExecutionThreadPools)
  | post (m : Message) (sent : Bool)
  | produce (p : Producer) (m : Message) (sent : Bool)
  | receive (t : Thread pools)
  | finish (t : Thread pools)

def enqueue (s : Executor pools) (pool : Pool) (m : Message) : Executor pools :=
  { s with queues := Function.update s.queues pool (s.queues pool ++ [m]) }

/-- `execute_webhook_message`; a full queue refuses the message. -/
def executeWebhookMessage (s : Executor pools) (m : Message) (sent : Bool) : Executor pools :=
  if sent then enqueue s (pools.poolOf m.type_) m else s

def step (s : Executor pools) : Event pools → Option (Executor pools)
  | .post m sent => some (executeWebhookMessage s m sent)
  | .produce _ m sent => some (if sent then enqueue s none m else s)
  | .receive t =>
    match s.executing t, s.queues t.pool with
    | none, m :: queue => some
        ⟨Function.update s.queues t.pool queue, Function.update s.executing t (some m)⟩
    | _, _ => none
  | .finish t =>
    match s.executing t with
    | some _ => some { s with executing := Function.update s.executing t none }
    | none => none

structure Booted (s : Executor pools) : Prop where
  queues : ∀ pool, s.queues pool = []
  executing : ∀ t, s.executing t = none

/-- Producers that do not route send only types without dedicated threads. -/
def routed (pools : ExecutionThreadPools) (_ : Executor pools) : Event pools → Bool
  | .produce _ m _ => (pools.poolOf m.type_).isNone
  | _ => true

/-- Every message is in the queue of its own pool or executed by a thread of that pool. -/
structure Sorted (s : Executor pools) : Prop where
  queues : ∀ pool, ∀ m ∈ s.queues pool, pools.poolOf m.type_ = pool
  executing : ∀ t m, s.executing t = some m → pools.poolOf m.type_ = t.pool

theorem Booted.sorted {s : Executor pools} (h : Booted s) : Sorted s := by
  constructor
  · intro pool m hm
    rw [h.queues pool] at hm
    cases hm
  · intro t m hm
    rw [h.executing t] at hm
    cases hm

theorem Sorted.enqueue {s : Executor pools} (h : Sorted s) {m : Message} {pool : Pool}
    (hm : pools.poolOf m.type_ = pool) : Sorted (enqueue s pool m) := by
  refine { h with queues := fun p x hx => ?_ }
  simp only [ThreadPools.enqueue, Function.update_apply] at hx
  split at hx
  · rename_i hp
    subst hp
    rcases List.mem_append.mp hx with hx | hx
    · exact h.queues p x hx
    · cases List.mem_singleton.mp hx
      exact hm
  · exact h.queues p x hx

theorem Sorted.step {s s' : Executor pools} {e : Event pools} (h : Sorted s)
    (hr : routed pools s e = true) (hs : step s e = some s') : Sorted s' := by
  cases e with
  | post m sent =>
    cases hs
    unfold executeWebhookMessage
    split
    · exact h.enqueue rfl
    · exact h
  | produce p m sent =>
    cases hs
    split
    · exact h.enqueue (Option.isNone_iff_eq_none.mp hr)
    · exact h
  | receive t =>
    simp only [ThreadPools.step] at hs
    split at hs
    · rename_i m queue ht hq
      cases hs
      have hhead := h.queues t.pool m (by rw [hq]; exact List.mem_cons_self)
      constructor
      · intro p x hx
        simp only [Function.update_apply] at hx
        split at hx
        · rename_i hp
          subst hp
          exact h.queues t.pool x (by rw [hq]; exact List.mem_cons_of_mem m hx)
        · exact h.queues p x hx
      · intro u x hx
        simp only [Function.update_apply] at hx
        split at hx
        · rename_i hu
          subst hu
          cases hx
          exact hhead
        · exact h.executing u x hx
    · cases hs
  | finish t =>
    simp only [ThreadPools.step] at hs
    split at hs
    · cases hs
      refine { h with executing := fun u x hx => ?_ }
      simp only [Function.update_apply] at hx
      split at hx
      · cases hx
      · exact h.executing u x hx
    · cases hs

/-- A pool has no more threads than configured. -/
theorem card_le_numThreads (ts : Finset (Thread pools)) {pool : Pool} (h : ∀ t ∈ ts, t.pool = pool) :
    ts.card ≤ pools.numThreads pool := by
  have hrange : ∀ t ∈ ts, t.index ∈ Finset.range (pools.numThreads pool) := by
    intro t ht
    rw [Finset.mem_range, ← h t ht]
    exact t.index_lt
  have hinj : Set.InjOn Thread.index (ts : Set (Thread pools)) := by
    rintro ⟨p, i, hi⟩ ht ⟨q, j, hj⟩ hu heq
    have hp := h _ ht
    have hq := h _ hu
    simp only at hp hq heq
    subst hp hq heq
    rfl
  calc ts.card ≤ (Finset.range (pools.numThreads pool)).card :=
        Finset.card_le_card_of_injOn Thread.index hrange hinj
    _ = pools.numThreads pool := Finset.card_range _

/-- As long as only types without dedicated threads enter past the routing, a message is
executed by a thread of the pool of its type, so no type with dedicated threads has more
messages in execution than threads. -/
theorem pools_isolated {s s' : Executor pools} {es : List (Event pools)} (hb : Booted s)
    (hP : Along step (fun s e => routed pools s e = true) s es) (hr : run step s es = some s') :
    (∀ t m, s'.executing t = some m → t.pool = pools.poolOf m.type_) ∧
    ∀ type_ n, pools.dedicated.lookup type_ = some n → ∀ ts : Finset (Thread pools),
      (∀ t ∈ ts, ∃ m, s'.executing t = some m ∧ m.type_ = type_) → ts.card ≤ n.toNat := by
  have hsorted : Sorted s' := run_invariant_along
    (fun s e s' h hr hs => Sorted.step h hr hs) hb.sorted hP hr
  refine ⟨fun t m ht => (hsorted.executing t m ht).symm, fun type_ n hn ts hts => ?_⟩
  have hpool : ∀ t ∈ ts, t.pool = some type_ := by
    intro t ht
    obtain ⟨m, hm, rfl⟩ := hts t ht
    rw [← hsorted.executing t m hm, ExecutionThreadPools.poolOf, if_pos (by simp [hn])]
  have hcard := card_le_numThreads ts hpool
  simpa [ExecutionThreadPools.numThreads, hn] using hcard

section instances

/-- One general thread and one thread dedicated to `auth`. -/
def authPools : ExecutionThreadPools := ⟨1, AList.singleton "auth" 1⟩

def idle : Executor authPools := ⟨fun _ => [], fun _ => none⟩

def generalThread : Thread authPools := ⟨none, 0, by decide⟩
def authThread : Thread authPools := ⟨some "auth", 0, by decide⟩

def authLog (id : String) : Message := .new id "auth" [] (.webhookPost "hook") (.limited 0)
def otherLog (id : String) : Message := .new id "other" [] (.logback "rule") (.limited 0)

theorem idle_booted : Booted idle := ⟨fun _ => rfl, fun _ => rfl⟩

/-- A logback of the dedicated type goes to the general pool, and both threads execute logs of
that type at once. -/
theorem logback_bypasses_routing : Booted idle ∧ authPools.poolOf "auth" = some "auth" ∧
    (run step idle [.post (authLog "a") true, .produce .immediateLogback (authLog "b") true,
      .receive authThread, .receive generalThread]).map
      (fun s => ((s.executing authThread).map Message.type_,
        (s.executing generalThread).map Message.type_)) = some (some "auth", some "auth") :=
  ⟨idle_booted, by decide, by decide +kernel⟩

theorem pools_isolated_sample :
    (run step idle [.post (authLog "a") true, .produce .immediateLogback (otherLog "b") true,
      .receive authThread, .receive generalThread]).map
      (fun s => ((s.executing authThread).map Message.type_,
        (s.executing generalThread).map Message.type_)) = some (some "auth", some "other") ∧
    ∀ s', run step idle [.post (authLog "a") true, .produce .immediateLogback (otherLog "b") true,
      .receive authThread, .receive generalThread] = some s' →
    (∀ t m, s'.executing t = some m → t.pool = authPools.poolOf m.type_) ∧
    ∀ type_ n, authPools.dedicated.lookup type_ = some n → ∀ ts : Finset (Thread authPools),
      (∀ t ∈ ts, ∃ m, s'.executing t = some m ∧ m.type_ = type_) → ts.card ≤ n.toNat := by
  refine ⟨by decide +kernel, fun s' hr => ?_⟩
  refine pools_isolated idle_booted ?_ hr
  decide +kernel

end instances
end PlaidRuntime.ThreadPools
