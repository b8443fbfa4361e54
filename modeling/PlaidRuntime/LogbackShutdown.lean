import PlaidRuntime.StepMachine
import PlaidRuntime.ParcelCustody
import PlaidRuntime.LogbackDelivery

/-!
# No accepted logback is lost

The machine of `LogbackDelivery` refines the custody of parcels, and its shutdown leaves
no logback in a channel behind.
-/
namespace PlaidRuntime.LogbackShutdown
open StepMachine MachineWord LogbackMessage LogbackDelivery ParcelCustody

variable {T : Type} [DecidableEq T]

section custody

def parcel (d : DelayedMessage) : ℕ × Message := (d.delay, d.message)

def receipt (a : Accepted) : Receipt Message where
  item := a.msg
  delay := match a.route with
    | .immediate => none
    | .delayed _ => some (max a.delay.toNat 1)
  clock := a.clock

/-- Who has the logbacks. -/
def custody (s : Plaid T) : Flow Message String where
  clock := s.clock
  queue := s.queue
  received := s.received
  relative := (s.delayed ++ s.listener.drain.heldLogs ++ s.phase.drain.heldLogs).map parcel
  absolute := (s.listener.drain.stampedLogs ++ s.phase.drain.stampedLogs).map parcel
  store k := (s.store.lookup k).map parcel
  snapshot := s.fetcher.heap.map parcel
  forgetting := s.fetcher.forgetting
  accepted := s.accepted.map receipt
  handed := s.handed
  known := s.known

theorem dispatchRoute_delayed_lt {cancelled sender : Bool} {delay : UInt32} {k : ℕ}
    (h : dispatchRoute cancelled delay sender = .delayed k) : k < 2 ^ 33 := by
  have hk := dispatchRoute_delayed h
  have hd : delay.toNat < 2 ^ 32 := delay.toNat_lt
  omega

/-- Readings of the clock lie in the past, and no delay is so long that adding the clock
wraps. -/
structure Clocked (s : Plaid T) : Prop where
  clock : s.clock < 2 ^ 63
  now : ∀ n, s.fetcher.now = some n → n ≤ s.clock
  delays : ∀ d ∈ s.delayed ++ s.listener.drain.heldLogs ++ s.phase.drain.heldLogs, d.delay < 2 ^ 33

theorem Clocked.move {general : T → Bool} {s t : Plaid T} (h : Clocked s) (hm : Move general s t) :
    Clocked t := by
  cases hm with
  | tick hc => exact { h with clock := hc, now := fun n hn => (h.now n hn).trans (Nat.le_succ _) }
  | produce m hp fresh => exact { h with }
  | receive u m queue hg ht hq => exact { h with }
  | inside u st ht hst hsender => exact { h with }
  | refuse u sender cancelled delay msg ht fresh => exact { h with }
  | sendNow u sender cancelled delay msg ht hr fresh => exact { h with }
  | sendLater u sender cancelled delay k msg ht hr fresh =>
    refine { h with delays := fun d hd => ?_ }
    have hd' : d ∈ s.delayed ++ s.listener.drain.heldLogs ++ s.phase.drain.heldLogs ∨
        d = ⟨k, msg⟩ := by
      simp only [setThread, List.mem_append, List.mem_singleton] at hd ⊢
      tauto
    rcases hd' with hd' | rfl
    · exact h.delays d hd'
    · exact dispatchRoute_delayed_lt hr
  | exit u ht hg hd => exact { h with }
  | listener l hs hl he =>
    refine { h with delays := fun d hd => ?_ }
    simp only [hl] at hd
    exact h.delays d (by rw [hs]; exact hd)
  | listenTake log delayed hs hd =>
    refine { h with delays := fun d hd' => ?_ }
    apply h.delays
    simp only [hs, hd, Listener.drain, Drain.heldLogs, List.mem_append, List.mem_cons,
      List.not_mem_nil, or_false] at hd' ⊢
    tauto
  | listenStamp log hs =>
    refine { h with delays := fun d hd' => ?_ }
    apply h.delays
    simp only [hs, Listener.drain, Drain.heldLogs, List.mem_append, List.mem_cons,
      List.not_mem_nil, or_false] at hd' ⊢
    tauto
  | listenStore log hs =>
    refine { h with delays := fun d hd' => ?_ }
    apply h.delays
    simpa only [hs, Listener.drain, Drain.heldLogs] using hd'
  | fetcher f he hs hf hnow hheap =>
    refine { h with now := fun n hn => ?_ }
    rcases hnow n hn with hn | rfl
    · exact h.now n hn
    · exact le_refl _
  | fetchSend now heap i top hs hi hdue =>
    exact { h with now := fun n hn => h.now n (by rw [hs]; exact hn) }
  | fetchDelete now heap id hs =>
    exact { h with now := fun n hn => h.now n (by rw [hs]; exact hn) }
  | cancel hs => exact { h with delays := fun d hd => h.delays d (by rw [hs]; exact hd) }
  | joinTasks hs hl hf => exact { h with delays := fun d hd => h.delays d (by rw [hs]; exact hd) }
  | joinServers hs => exact { h with delays := fun d hd => h.delays d (by rw [hs]; exact hd) }
  | dropSenders hs => exact { h with delays := fun d hd => h.delays d (by rw [hs]; exact hd) }
  | joinThreads hs ht => exact { h with delays := fun d hd => h.delays d (by rw [hs]; exact hd) }
  | flushTake log delayed hs hd =>
    refine { h with delays := fun d hd' => ?_ }
    apply h.delays
    simp only [hs, hd, Phase.drain, Drain.heldLogs, List.mem_append, List.mem_cons,
      List.not_mem_nil, or_false] at hd' ⊢
    tauto
  | flushStamp log hs =>
    refine { h with delays := fun d hd' => ?_ }
    apply h.delays
    simp only [hs, Phase.drain, Drain.heldLogs, List.mem_append, List.mem_cons,
      List.not_mem_nil, or_false] at hd' ⊢
    tauto
  | flushStore log hs =>
    refine { h with delays := fun d hd' => ?_ }
    apply h.delays
    simpa only [hs, Phase.drain, Drain.heldLogs] using hd'
  | flushed hs hd => exact { h with delays := fun d hd' => h.delays d (by rw [hs]; exact hd') }

omit [DecidableEq T] in
theorem Clocked.stamp_eq {s : Plaid T} (h : Clocked s) (log : DelayedMessage)
    (hl : log ∈ s.delayed ++ s.listener.drain.heldLogs ++ s.phase.drain.heldLogs) :
    addU64 log.delay s.clock = log.delay + s.clock := by
  have hd := h.delays log hl
  have hc := h.clock
  exact addU64_of_lt (by omega)

theorem store_insert (store : AList fun _ : String => DelayedMessage) (log : DelayedMessage) :
    (fun k => ((store.insert log.message.id log).lookup k).map parcel) =
      Function.update (fun k => (store.lookup k).map parcel) log.message.id (some (parcel log)) := by
  funext k
  by_cases hk : k = log.message.id
  · subst hk
    simp
  · simp [hk, AList.lookup_insert_ne hk]

theorem store_erase (store : AList fun _ : String => DelayedMessage) (id : String) :
    (fun k => ((store.erase id).lookup k).map parcel) =
      Function.update (fun k => (store.lookup k).map parcel) id none := by
  funext k
  by_cases hk : k = id
  · subst hk
    simp
  · simp [hk, AList.lookup_erase_ne hk]

/-- Every move is a step of the custody of its messages, or none at all. -/
theorem custody_move {general : T → Bool} {s t : Plaid T} (hc : Clocked s) (hm : Move general s t) :
    custody t = custody s ∨ Step Message.id (custody s) (custody t) := by
  cases hm with
  | tick h => exact Or.inr (.tick _ (Nat.le_succ _))
  | produce m hp fresh => exact Or.inr (.produce m fresh)
  | receive u m queue hg ht hq => exact Or.inr (.receive m queue hq)
  | inside u st ht hst hsender => exact Or.inl rfl
  | refuse u sender cancelled delay msg ht fresh => exact Or.inr (.refuse msg fresh)
  | sendNow u sender cancelled delay msg ht hr fresh =>
    have hstep := Step.sendNow (f := custody s) msg fresh
    right
    simpa [custody, setThread, receipt] using hstep
  | sendLater u sender cancelled delay k msg ht hr fresh =>
    have hk := dispatchRoute_delayed hr
    have hstep := Step.sendLater (f := custody s) msg k
      (s.delayed.map parcel ++ (k, msg) ::
        (s.listener.drain.heldLogs.map parcel ++ s.phase.drain.heldLogs.map parcel))
      fresh (by
        intro p
        simp only [custody, List.map_append, List.mem_append, List.mem_cons]
        tauto)
    right
    simpa [custody, setThread, receipt, parcel, ← hk] using hstep
  | exit u ht hg hd => exact Or.inl rfl
  | listener l hs hl he => exact Or.inl (by simp [custody, hs, hl])
  | listenTake log delayed hs hd =>
    have hstep : Step Message.id _ _ := Step.take (f := custody s) (d := log.delay)
      (m := log.message) (a := delayed.map parcel) (b := s.phase.drain.heldLogs.map parcel)
      (by simp [custody, hs, hd, Listener.drain, Drain.heldLogs, parcel])
    right
    simpa [custody, hs, Listener.drain, Drain.heldLogs, Drain.stampedLogs, parcel]
      using hstep
  | listenStamp log hs =>
    have hadd := hc.stamp_eq log (by simp [hs, Listener.drain, Drain.heldLogs])
    have hstep : Step Message.id _ _ := Step.stampOne (f := custody s) (d := log.delay)
      (m := log.message) (a := s.delayed.map parcel) (b := s.phase.drain.heldLogs.map parcel)
      (c := []) (e := s.phase.drain.stampedLogs.map parcel)
      (by simp [custody, hs, Listener.drain, Drain.heldLogs, parcel])
      (by simp [custody, hs, Listener.drain, Drain.stampedLogs])
    right
    simpa [custody, hadd, Listener.drain, Drain.heldLogs, Drain.stampedLogs, parcel]
      using hstep
  | listenStore log hs =>
    have hstep : Step Message.id _ _ := Step.persistOne (f := custody s) (d := log.delay)
      (m := log.message) (c := []) (e := s.phase.drain.stampedLogs.map parcel)
      (by simp [custody, hs, Listener.drain, Drain.stampedLogs, parcel])
    right
    simpa [custody, hs, Listener.drain, Drain.heldLogs, Drain.stampedLogs,
      store_insert, parcel] using hstep
  | fetcher f he hs hf hnow hheap =>
    have hstep : Step Message.id _ _ := Step.look (f := custody s) (f.heap.map parcel)
      (by
        intro p hp
        obtain ⟨d, hd, rfl⟩ := List.mem_map.mp hp
        rcases hheap d hd with hd | ⟨k, hk⟩
        · exact Or.inl (List.mem_map_of_mem hd)
        · exact Or.inr ⟨k, by simp [custody, hk]⟩)
    right
    simpa [custody, hs, hf] using hstep
  | fetchSend now heap i top hs hi hdue =>
    have hmem : top ∈ heap := List.mem_of_getElem? hi
    have hstep : Step Message.id _ _ := Step.handOver (f := custody s) top.delay
      top.message ((heap.eraseIdx i).map parcel)
      (by
        simp only [custody, hs, Fetcher.heap]
        exact List.mem_map_of_mem hmem)
      (by
        intro p hp
        obtain ⟨d, hd, rfl⟩ := List.mem_map.mp hp
        simp only [custody, hs, Fetcher.heap]
        exact List.mem_map_of_mem (List.mem_of_mem_eraseIdx hd))
      (hdue.trans (hc.now now (by rw [hs]; rfl)))
    exact Or.inr hstep
  | fetchDelete now heap id hs =>
    have hstep : Step Message.id _ _ := Step.forget (f := custody s) id
      (by simp [custody, hs, Fetcher.forgetting])
    right
    simpa [custody, hs, Fetcher.heap, Fetcher.forgetting, store_erase] using hstep
  | cancel hs => exact Or.inl (by simp [custody, hs, Phase.drain])
  | joinTasks hs hl hf => exact Or.inl (by simp [custody, hs, Phase.drain])
  | joinServers hs => exact Or.inl (by simp [custody, hs, Phase.drain])
  | dropSenders hs => exact Or.inl (by simp [custody, hs, Phase.drain])
  | joinThreads hs ht => exact Or.inl (by simp [custody, hs, Phase.drain])
  | flushTake log delayed hs hd =>
    have hstep : Step Message.id _ _ := Step.take (f := custody s) (d := log.delay)
      (m := log.message) (a := delayed.map parcel ++ s.listener.drain.heldLogs.map parcel) (b := [])
      (by simp [custody, hs, hd, Phase.drain, Drain.heldLogs, parcel])
    right
    simpa [custody, hs, Phase.drain, Drain.heldLogs, Drain.stampedLogs, parcel]
      using hstep
  | flushStamp log hs =>
    have hadd := hc.stamp_eq log (by simp [hs, Phase.drain, Drain.heldLogs])
    have hstep : Step Message.id _ _ := Step.stampOne (f := custody s) (d := log.delay)
      (m := log.message) (a := s.delayed.map parcel ++ s.listener.drain.heldLogs.map parcel) (b := [])
      (c := s.listener.drain.stampedLogs.map parcel) (e := [])
      (by simp [custody, hs, Phase.drain, Drain.heldLogs, parcel])
      (by simp [custody, hs, Phase.drain, Drain.stampedLogs])
    right
    simpa [custody, hadd, Phase.drain, Drain.heldLogs, Drain.stampedLogs, parcel]
      using hstep
  | flushStore log hs =>
    have hstep : Step Message.id _ _ := Step.persistOne (f := custody s) (d := log.delay)
      (m := log.message) (c := s.listener.drain.stampedLogs.map parcel) (e := [])
      (by simp [custody, hs, Phase.drain, Drain.stampedLogs, parcel])
    right
    simpa [custody, hs, Phase.drain, Drain.heldLogs, Drain.stampedLogs,
      store_insert, parcel] using hstep
  | flushed hs hd => exact Or.inl (by simp [custody, hs, Phase.drain])

end custody

section lifecycle
variable {general : T → Bool}

/-- How far the shutdown has come, and that a thread of the general pool leaves only a
drained channel behind. -/
structure Lifecycle (general : T → Bool) (s : Plaid T) : Prop where
  tasks : s.phase.tasksJoined = true → s.listener.isEnded = true ∧ s.fetcher.isEnded = true
  drained : ∀ t, general t = true → (s.threads t).isExited = true →
    Disconnected s.phase s.fetcher s.threads ∧ s.queue = []
  joined : s.phase.threadsJoined = true → ∀ t, (s.threads t).isExited = true
  flushed : s.phase = .done → s.delayed = []

theorem dispatchRoute_immediate {cancelled sender : Bool} {delay : UInt32}
    (h : dispatchRoute cancelled delay sender = .immediate) : sender = true := by
  unfold dispatchRoute at h
  split at h
  · rename_i hc
    simp only [Bool.and_eq_true] at hc
    exact hc.2
  · cases h

/-- A thread that is not at its end changes to a state of the same kind; a sender it did not
hold before it can only have from the main thread. -/
theorem Lifecycle.setThread {s s' : Plaid T} (h : Lifecycle general s) {u : T} {st : ThreadState}
    (hu : (s.threads u).isExited = false) (hst : st.isExited = false)
    (hsender : st.holdsSender = true → (s.threads u).holdsSender = true ∨ s.phase.mainSenders = true)
    (hphase : s'.phase = s.phase) (hlistener : s'.listener = s.listener)
    (hfetcher : s'.fetcher = s.fetcher) (hthreads : s'.threads = Function.update s.threads u st)
    (hqueue : Disconnected s.phase s.fetcher s.threads → s.queue = [] → s'.queue = []) :
    Lifecycle general s' := by
  have hnot : s.phase.threadsJoined = false := by
    by_contra hj
    have := h.joined (by simpa using hj) u
    rw [hu] at this
    cases this
  constructor
  · rw [hphase, hlistener, hfetcher]
    exact h.tasks
  · intro v hg hv
    rw [hthreads, Function.update_apply] at hv
    split at hv
    · rw [hst] at hv
      cases hv
    · obtain ⟨hd, hq⟩ := h.drained v hg hv
      refine ⟨?_, hqueue hd hq⟩
      rw [hphase, hfetcher, hthreads]
      refine ⟨hd.main, hd.fetcher, fun w => ?_⟩
      rw [Function.update_apply]
      split
      · by_contra hs
        rcases hsender (by simpa using hs) with hs | hs
        · rw [hd.threads u] at hs
          cases hs
        · rw [hd.main] at hs
          cases hs
      · exact hd.threads w
  · intro hj
    rw [hphase, hnot] at hj
    cases hj
  · intro hd
    rw [hphase] at hd
    rw [hd] at hnot
    cases hnot

omit [DecidableEq T] in
/-- Moves of the tasks happen before they are joined. -/
theorem Lifecycle.not_tasksJoined {s : Plaid T} (h : Lifecycle general s)
    (hs : s.listener.isEnded = false ∨ s.fetcher.isEnded = false) :
    s.phase.tasksJoined = false := by
  by_contra hj
  obtain ⟨hl, hf⟩ := h.tasks (by simpa using hj)
  rcases hs with hs | hs
  · rw [hl] at hs
    cases hs
  · rw [hf] at hs
    cases hs

omit [DecidableEq T] in
/-- A move of the listener or of a poll that has not ended. -/
theorem Lifecycle.task {s s' : Plaid T} (h : Lifecycle general s)
    (hs : s.listener.isEnded = false ∨ s.fetcher.isEnded = false)
    (hphase : s'.phase = s.phase) (hthreads : s'.threads = s.threads)
    (hfetcher : s.fetcher.isEnded = true → s'.fetcher = s.fetcher ∧ s'.queue = s.queue) :
    Lifecycle general s' := by
  have hnot := h.not_tasksJoined hs
  constructor
  · intro hj
    rw [hphase, hnot] at hj
    cases hj
  · intro t hg ht
    rw [hthreads] at ht
    obtain ⟨hd, hq⟩ := h.drained t hg ht
    obtain ⟨hf, hqueue⟩ := hfetcher hd.fetcher
    rw [hphase, hthreads, hf, hqueue]
    exact ⟨hd, hq⟩
  · rw [hphase, hthreads]
    exact h.joined
  · intro hd
    rw [hphase] at hd
    rw [hd] at hnot
    cases hnot

omit [DecidableEq T] in
/-- The main thread goes on to another phase. -/
theorem Lifecycle.toPhase {s s' : Plaid T} (h : Lifecycle general s)
    (hlistener : s'.listener = s.listener) (hfetcher : s'.fetcher = s.fetcher)
    (hthreads : s'.threads = s.threads) (hqueue : s'.queue = s.queue)
    (htasks : s'.phase.tasksJoined = true → s.listener.isEnded = true ∧ s.fetcher.isEnded = true)
    (hmain : s.phase.mainSenders = false → s'.phase.mainSenders = false)
    (hjoined : s'.phase.threadsJoined = true → ∀ t, (s.threads t).isExited = true)
    (hdone : s'.phase = .done → s'.delayed = []) : Lifecycle general s' := by
  constructor
  · rw [hlistener, hfetcher]
    exact htasks
  · intro t hg ht
    rw [hthreads] at ht
    obtain ⟨hd, hq⟩ := h.drained t hg ht
    rw [hfetcher, hthreads, hqueue]
    exact ⟨⟨hmain hd.main, hd.fetcher, hd.threads⟩, hq⟩
  · rw [hthreads]
    exact hjoined
  · exact hdone

theorem Lifecycle.move {s t : Plaid T} (h : Lifecycle general s) (hm : Move general s t) :
    Lifecycle general t := by
  cases hm with
  | tick hc => exact { h with }
  | produce m hp fresh =>
    refine { h with drained := fun t hg ht => ?_ }
    have hd := (h.drained t hg ht).1.main
    cases hph : s.phase <;> simp [hph, Phase.producing, Phase.mainSenders] at hp hd
  | receive u m queue hg ht hq =>
    refine h.setThread (u := u) (by rw [ht]; rfl) rfl (by simp [ThreadState.holdsSender])
      rfl rfl rfl rfl ?_
    intro _ hnil
    rw [hq] at hnil
    cases hnil
  | inside u st ht hst hsender =>
    exact h.setThread ht hst hsender rfl rfl rfl rfl (fun _ hq => hq)
  | refuse u sender cancelled delay msg ht fresh =>
    exact h.setThread (u := u) (by rw [ht]; rfl) rfl (fun hs => Or.inl (by rw [ht]; exact hs))
      rfl rfl rfl rfl (fun _ hq => hq)
  | sendNow u sender cancelled delay msg ht hr fresh =>
    refine h.setThread (u := u) (by rw [ht]; rfl) rfl (fun hs => Or.inl (by rw [ht]; exact hs))
      rfl rfl rfl rfl ?_
    intro hd _
    have hs := hd.threads u
    rw [ht, dispatchRoute_immediate hr] at hs
    cases hs
  | sendLater u sender cancelled delay k msg ht hr fresh =>
    exact h.setThread (u := u) (by rw [ht]; rfl) rfl (fun hs => Or.inl (by rw [ht]; exact hs))
      rfl rfl rfl rfl (fun _ hq => hq)
  | exit u ht hg hd =>
    have hsame : ∀ v, Disconnected s.phase s.fetcher s.threads →
        ((Function.update s.threads u .exited) v).holdsSender = false := by
      intro v hdis
      rw [Function.update_apply]
      split
      · rfl
      · exact hdis.threads v
    refine ⟨h.tasks, fun v hgv hv => ?_, fun hj v => ?_, h.flushed⟩
    · by_cases hvu : v = u
      · subst hvu
        obtain ⟨hq, hdis⟩ := hg hgv
        exact ⟨⟨hdis.main, hdis.fetcher, fun w => hsame w hdis⟩, hq⟩
      · simp only [LogbackDelivery.setThread, Function.update_of_ne hvu] at hv
        obtain ⟨hdis, hq⟩ := h.drained v hgv hv
        exact ⟨⟨hdis.main, hdis.fetcher, fun w => hsame w hdis⟩, hq⟩
    · simp only [LogbackDelivery.setThread, Function.update_apply]
      split
      · rfl
      · exact h.joined hj v
  | listener l hs hl he => exact h.task (Or.inl he) rfl rfl (fun _ => ⟨rfl, rfl⟩)
  | listenTake log delayed hs hd =>
    exact h.task (Or.inl (by rw [hs]; rfl)) rfl rfl (fun _ => ⟨rfl, rfl⟩)
  | listenStamp log hs => exact h.task (Or.inl (by rw [hs]; rfl)) rfl rfl (fun _ => ⟨rfl, rfl⟩)
  | listenStore log hs => exact h.task (Or.inl (by rw [hs]; rfl)) rfl rfl (fun _ => ⟨rfl, rfl⟩)
  | fetcher f he hs hf hnow hheap =>
    refine h.task (Or.inr he) rfl rfl ?_
    intro hend
    rw [he] at hend
    cases hend
  | fetchSend now heap i top hs hi hdue =>
    refine h.task (Or.inr (by rw [hs]; rfl)) rfl rfl ?_
    intro hend
    rw [hs] at hend
    cases hend
  | fetchDelete now heap id hs =>
    refine h.task (Or.inr (by rw [hs]; rfl)) rfl rfl ?_
    intro hend
    rw [hs] at hend
    cases hend
  | cancel hs =>
    refine h.toPhase rfl rfl rfl rfl ?_ (by rw [hs]; exact id) ?_ ?_
    all_goals
      intro hp
      cases hp
  | joinTasks hs hl hf =>
    refine h.toPhase rfl rfl rfl rfl (fun _ => ⟨hl, hf⟩) (by rw [hs]; exact id) ?_ ?_
    all_goals
      intro hp
      cases hp
  | joinServers hs =>
    refine h.toPhase rfl rfl rfl rfl (fun _ => h.tasks (by rw [hs]; rfl)) (by rw [hs]; exact id)
      ?_ ?_
    all_goals
      intro hp
      cases hp
  | dropSenders hs =>
    refine h.toPhase rfl rfl rfl rfl (fun _ => h.tasks (by rw [hs]; rfl)) (fun _ => rfl) ?_ ?_
    all_goals
      intro hp
      cases hp
  | joinThreads hs ht =>
    refine h.toPhase rfl rfl rfl rfl (fun _ => h.tasks (by rw [hs]; rfl)) (fun _ => rfl)
      (fun _ => ht) ?_
    intro hp
    cases hp
  | flushTake log delayed hs hd =>
    refine h.toPhase rfl rfl rfl rfl (fun _ => h.tasks (by rw [hs]; rfl)) (fun _ => rfl)
      (fun _ => h.joined (by rw [hs]; rfl)) ?_
    intro hp
    cases hp
  | flushStamp log hs =>
    refine h.toPhase rfl rfl rfl rfl (fun _ => h.tasks (by rw [hs]; rfl)) (fun _ => rfl)
      (fun _ => h.joined (by rw [hs]; rfl)) ?_
    intro hp
    cases hp
  | flushStore log hs =>
    refine h.toPhase rfl rfl rfl rfl (fun _ => h.tasks (by rw [hs]; rfl)) (fun _ => rfl)
      (fun _ => h.joined (by rw [hs]; rfl)) ?_
    intro hp
    cases hp
  | flushed hs hd =>
    exact h.toPhase rfl rfl rfl rfl (fun _ => h.tasks (by rw [hs]; rfl)) (fun _ => rfl)
      (fun _ => h.joined (by rw [hs]; rfl)) (fun _ => hd)

end lifecycle

section runs

structure Invariant (general : T → Bool) (s : Plaid T) : Prop where
  clocked : Clocked s
  lifecycle : Lifecycle general s
  sound : Sound Message.id (custody s)

theorem Invariant.step [Fintype T] {general : T → Bool} {readable : DelayedMessage → Bool}
    {s t : Plaid T} {e : Event T} (h : Invariant general s)
    (hs : step general readable s e = some t) : Invariant general t := by
  have hm := step_move hs
  refine ⟨h.clocked.move hm, h.lifecycle.move hm, ?_⟩
  rcases custody_move h.clocked hm with hc | hc
  · rw [hc]
    exact h.sound
  · exact h.sound.step hc

omit [DecidableEq T] in
/-- The storage gives each message found at boot an id of its own. -/
theorem booted_known_nodup {s : Plaid T} (h : Booted s) : (s.known.map Message.id).Nodup := by
  have hids : s.known.map Message.id = s.store.keys := by
    rw [h.known, List.map_map]
    apply List.map_congr_left
    rintro ⟨id, d⟩ he
    exact h.stored id d (AList.mem_lookup_iff.mpr he)
  rw [hids]
  exact s.store.nodupKeys

omit [DecidableEq T] in
theorem booted_mem_known {s : Plaid T} (h : Booted s) {id : String} {d : DelayedMessage}
    (hl : s.store.lookup id = some d) : d.message ∈ s.known := by
  rw [h.known]
  exact List.mem_map.mpr ⟨⟨id, d⟩, AList.mem_lookup_iff.mp hl, rfl⟩

omit [DecidableEq T] in
theorem booted_fetcher_idle {s : Plaid T} (h : Booted s) :
    s.fetcher.now = none ∧ s.fetcher.heap = [] ∧ s.fetcher.forgetting = none := by
  rcases h.fetcher with hf | hf
  · rw [hf]
    exact ⟨rfl, rfl, rfl⟩
  · rw [hf]
    exact ⟨rfl, rfl, rfl⟩

omit [DecidableEq T] in
theorem booted_sound {s : Plaid T} (h : Booted s) : Sound Message.id (custody s) := by
  obtain ⟨-, hheap, hforget⟩ := booted_fetcher_idle h
  have haccepted : (custody s).accepted = [] := by simp [custody, h.accepted]
  constructor
  · constructor
    · exact booted_known_nodup h
    · simp [haccepted]
    · simp [custody, h.delayed, h.listener, h.phase, Listener.drain, Phase.drain, Drain.heldLogs]
    · simp [custody, h.listener, h.phase, Listener.drain, Phase.drain, Drain.stampedLogs]
    · intro k d m hs
      obtain ⟨d', hl, hp⟩ := Option.map_eq_some_iff.mp hs
      cases hp
      exact ⟨h.stored k d' hl, booted_mem_known h hl⟩
    · simp [custody, hheap]
    · simp [custody, h.handed]
    · simp [custody, hforget]
  · simp [haccepted]
  · simp [haccepted]

omit [DecidableEq T] in
theorem booted_invariant {s : Plaid T} (h : Booted s) (general : T → Bool) :
    Invariant general s := by
  refine ⟨?_, ?_, booted_sound h⟩
  · constructor
    · exact h.clock
    · simp [(booted_fetcher_idle h).1]
    · simp [h.delayed, h.listener, h.phase, Listener.drain, Phase.drain, Drain.heldLogs]
  · constructor
    · simp [h.phase, Phase.tasksJoined]
    · simp [h.threads, ThreadState.isExited]
    · simp [h.phase, Phase.threadsJoined]
    · simp [h.phase]

omit [DecidableEq T] in
/-- After the last flush no channel and no hand holds a logback. -/
theorem Invariant.settled {general : T → Bool} {t : Plaid T} (h : Invariant general t)
    (hpool : ∃ u, general u = true) (hp : t.phase = .done) : ∀ a ∈ t.accepted,
      a.msg ∈ t.received ∨ ∃ d, t.store.lookup a.msg.id = some d ∧ d.message = a.msg := by
  intro a ha
  obtain ⟨u, hu⟩ := hpool
  have hexited := h.lifecycle.joined (by rw [hp]; rfl) u
  have hqueue := (h.lifecycle.drained u hu hexited).2
  have hdelayed := h.lifecycle.flushed hp
  have hlistener : t.listener.drain = .ready := by
    have hended := (h.lifecycle.tasks (by rw [hp]; rfl)).1
    cases hl : t.listener <;> simp [hl, Listener.isEnded, Listener.drain] at hended ⊢
  have hrelative : (custody t).relative = [] := by
    simp [custody, hdelayed, hlistener, hp, Phase.drain, Drain.heldLogs]
  have habsolute : (custody t).absolute = [] := by
    simp [custody, hlistener, hp, Phase.drain, Drain.stampedLogs]
  rcases h.sound.settled hqueue hrelative habsolute (receipt a) (List.mem_map_of_mem ha) with
    hr | ⟨d, hs⟩
  · exact Or.inl hr
  · obtain ⟨log, hl, hparcel⟩ := Option.map_eq_some_iff.mp hs
    exact Or.inr ⟨log, hl, (Prod.ext_iff.mp hparcel).2⟩

omit [DecidableEq T] in
theorem Invariant.punctual {general : T → Bool} {t : Plaid T} (h : Invariant general t) :
    ∀ a ∈ t.accepted, a.route ≠ .immediate → ∀ c, (a.msg, c) ∈ t.handed →
      a.clock + max a.delay.toNat 1 ≤ c := by
  intro a ha hroute c hc
  have hdelay : (receipt a).delay = some (max a.delay.toNat 1) := by
    cases hr : a.route with
    | immediate => exact absurd hr hroute
    | delayed k => simp [receipt, hr]
  exact (h.sound.punctual (receipt a) (List.mem_map_of_mem ha) _ hdelay).handed c hc

/-- Whatever the schedule, the process that has shut down has given every accepted logback to
an executor thread or to the storage, and none that was delayed has been early. The
configuration gives the general pool at least one thread. -/
theorem no_logback_lost [Fintype T] {general : T → Bool} {readable : DelayedMessage → Bool} {s t : Plaid T}
    {es : List (Event T)} (hb : Booted s) (hpool : ∃ u, general u = true)
    (hr : run (step general readable) s es = some t) :
    (t.phase = .done → t.queue = [] ∧ ∀ a ∈ t.accepted,
      a.msg ∈ t.received ∨ ∃ d, t.store.lookup a.msg.id = some d ∧ d.message = a.msg) ∧
    ∀ a ∈ t.accepted, a.route ≠ .immediate → ∀ c, (a.msg, c) ∈ t.handed →
      a.clock + max a.delay.toNat 1 ≤ c := by
  have hi : Invariant general t := run_invariant (fun _ _ _ => Invariant.step)
    (booted_invariant hb general) hr
  refine ⟨fun hp => ⟨?_, hi.settled hpool hp⟩, hi.punctual⟩
  obtain ⟨u, hu⟩ := hpool
  exact (hi.lifecycle.drained u hu (hi.lifecycle.joined (by rw [hp]; rfl) u)).2

def start : Plaid Unit where
  clock := 100
  cancelled := false
  phase := .running
  queue := []
  delayed := []
  store := ∅
  threads _ := .waiting
  listener := .checking
  fetcher := .checking
  received := []
  accepted := []
  handed := []
  known := []

def note (id : String) : Message := .new id "note" [] (.logback "rule") (.limited 1)

/-- A rule sends one logback at once and one with a delay of two seconds, and a third during
the shutdown. The second is persisted and handed over, the third is flushed. -/
def schedule : List (Event Unit) :=
  [.produce (note "webhook"), .receive (), .readToken (), .upgrade (), .call () 0 (note "a"),
    .send () true, .call () 2 (note "b"), .send () true,
    .listen, .listen, .listen, .listen, .listen, .tick, .tick,
    .fetch 0 true, .fetch 0 true, .fetch 0 true, .fetch 0 true, .fetch 0 true, .fetch 0 true,
    .shutdown, .call () 0 (note "c"), .send () true, .finish (), .listen, .fetch 0 true,
    .shutdown, .shutdown, .shutdown,
    .receive (), .readToken (), .finish (), .receive (), .readToken (), .finish (), .exit (),
    .shutdown, .shutdown, .shutdown, .shutdown, .shutdown]

theorem booted_start : Booted start := by
  constructor <;> simp [start]

theorem no_logback_lost_schedule :
    (run (step (fun _ => true) (fun _ => true)) start schedule).map (fun t =>
      (t.phase, t.accepted.map (fun a => a.msg.id), t.received.map Message.id,
        (t.store.lookup "c").map DelayedMessage.delay)) =
      some (.done, ["a", "b", "c"], ["webhook", "a", "b"], some 103) ∧
    ∀ t, run (step (fun _ => true) (fun _ => true)) start schedule = some t →
      (t.phase = .done → t.queue = [] ∧ ∀ a ∈ t.accepted,
        a.msg ∈ t.received ∨ ∃ d, t.store.lookup a.msg.id = some d ∧ d.message = a.msg) ∧
      ∀ a ∈ t.accepted, a.route ≠ .immediate → ∀ c, (a.msg, c) ∈ t.handed →
        a.clock + max a.delay.toNat 1 ≤ c := by
  refine ⟨by decide +kernel, fun t hr => no_logback_lost ?_ ?_ hr⟩
  · exact booted_start
  · exact ⟨(), rfl⟩

end runs
end PlaidRuntime.LogbackShutdown
