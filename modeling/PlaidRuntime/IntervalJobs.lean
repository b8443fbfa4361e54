import PlaidRuntime.EffectProgram
import PlaidRuntime.KeyedContent
import PlaidRuntime.LogbackBudget
import PlaidRuntime.PriorityHeap

/-!
# Interval jobs

`data/interval/mod.rs`: jobs wait in a heap until they are due, are sent to the executor and go
back into the heap for their next occurrence. The clock never goes back; the `cron` crate gives
the first occurrence after it.
-/
namespace PlaidRuntime.IntervalJobs
open EffectProgram Prog GuestMemory KeyedContent LogbackMessage PriorityHeap BinaryHeap
open LogbackBudget (TrySendError)

def nanosPerSecond : ℕ := 1000000000

/-- The `cron` crate. A schedule occurs at whole seconds; instants are nanoseconds. -/
structure Cron (Schedule : Type) where
  occurs : Schedule → ℕ → Prop
  upcoming : Schedule → ℕ → Option ℕ
  upcoming_some : ∀ {s now t}, upcoming s now = some t → ∃ sec, t = sec * nanosPerSecond ∧
    occurs s sec ∧ now < t ∧ ∀ sec', occurs s sec' → now < sec' * nanosPerSecond → sec ≤ sec'
  upcoming_none : ∀ {s now}, upcoming s now = none →
    ∀ sec, occurs s sec → sec * nanosPerSecond ≤ now

structure IntervalJob (Schedule : Type) where
  schedule : Schedule
  logType : String
  data : Option String
  logbacksAllowed : LogbacksAllowed

/-- `HashMap<String, IntervalJob>`. -/
abbrev IntervalConfig (Schedule : Type) : Type := AList fun _ : String => IntervalJob Schedule

structure ScheduledJob (Schedule : Type) where
  executionTime : ℕ
  schedule : Schedule
  message : Message

inductive Request where
  | currentTime
  | utcNow
  | trySend (msg : Message)

abbrev Reply : Request → Type
  | .currentTime => ℕ
  | .utcNow => ℕ
  | .trySend _ => Except TrySendError Unit

abbrev Code (α : Type) := Prog Request Reply α

/-- `get_current_time`, in seconds. -/
def getCurrentTime : Code ℕ := perform Request.currentTime

def utcNow : Code ℕ := perform Request.utcNow

def trySend (msg : Message) : Code (Except TrySendError Unit) := perform (Request.trySend msg)

/-- `time.timestamp_millis() / 1000` of an instant. -/
def executionTimeOf (time : ℕ) : ℕ := time / 1000000 / 1000

section program
variable {Schedule : Type} (cron : Cron Schedule)

/-- `Ord for ScheduledJob`. -/
def cmp (a b : ScheduledJob Schedule) : Ordering := compare a.executionTime b.executionTime

variable (q : BinaryHeap (ScheduledJob Schedule) (reverse cmp)) (ids : String → String)

/-- The message of a job; `ids` are the fresh UUIDs. -/
def messageOf (name : String) (job : IntervalJob Schedule) : Message :=
  .new (ids name) job.logType (asBytes (job.data.getD "")) (.generator (.interval name))
    job.logbacksAllowed

/-- `Interval::new` over the entries of the configuration. -/
def fillHeap : List (String × IntervalJob Schedule) → q.Heap → Code q.Heap
  | [], heap => return heap
  | (name, job) :: jobs, heap => do
    let now ← utcNow
    match cron.upcoming job.schedule now with
    | none => fillHeap jobs heap
    | some time =>
      fillHeap jobs (q.push heap ⟨executionTimeOf time, job.schedule, messageOf ids name job⟩)

def newInterval (jobs : List (String × IntervalJob Schedule)) : Code q.Heap :=
  fillHeap cron q ids jobs q.new

/-- The loop over the top of the heap; `none` is a loop that has not ended after `fuel` turns. -/
def fireDue (currentTime : ℕ) : ℕ → q.Heap → Code (Option (ℕ × q.Heap))
  | 0, _ => return none
  | fuel + 1, heap =>
    match q.pop heap with
    | none => return some (0, heap)
    | some (job, rest) =>
      if currentTime < job.executionTime then
        return some (job.executionTime - currentTime, heap)
      else do
        -- whatever the channel says is only reported
        let _ ← trySend job.message.createDuplicate
        let now ← utcNow
        match cron.upcoming job.schedule now with
        | none => fireDue currentTime fuel rest
        | some time =>
          fireDue currentTime fuel
            (q.push rest ⟨executionTimeOf time, job.schedule, job.message.createDuplicate⟩)

/-- `fetch_interval_jobs`: the seconds to wait and the heap. -/
def fetchIntervalJobs (heap : q.Heap) : Code (Option (ℕ × q.Heap)) := do
  let currentTime ← getCurrentTime
  fireDue cron q currentTime (q.len heap + 1) heap

end program

/-- The clock, the seconds `get_current_time` read last, and the messages it was tried to send. -/
structure World where
  clock : ℕ
  currentTime : ℕ
  tried : List Message

/-- Every reading of the clock is at least the one before; sending may succeed or fail. -/
def handle : Handler Request Reply World
  | w, .currentTime, r, w' => ∃ now, w.clock ≤ now ∧ r = now / nanosPerSecond ∧
      w' = { w with clock := now, currentTime := r }
  | w, .utcNow, now, w' => w.clock ≤ now ∧ w' = { w with clock := now }
  | w, .trySend msg, _, w' => w' = { w with tried := w.tried ++ [msg] }

section runs
variable {Schedule : Type} (cron : Cron Schedule)
  (q : BinaryHeap (ScheduledJob Schedule) (reverse cmp)) (ids : String → String)
  (config : IntervalConfig Schedule)

/-- No occurrence comes after the instant. -/
def Exhausted (schedule : Schedule) (now : ℕ) : Prop :=
  ∀ sec, cron.occurs schedule sec → sec * nanosPerSecond ≤ now

/-- What the start and any number of calls lead to, the entries of the configuration being read
in any order. -/
inductive Reachable : q.Heap → World → Prop where
  | new {jobs w heap w'} : jobs.Perm (pairs config) →
      Exec handle (newInterval cron q ids jobs) w heap w' → Reachable heap w'
  | call {heap w ret heap' w'} : Reachable heap w →
      Exec handle (fetchIntervalJobs cron q heap) w (some (ret, heap')) w' → Reachable heap' w'

def source (job : ScheduledJob Schedule) : LogSource := job.message.source

/-- What one call does to the jobs, at the current time it read. -/
structure CallMeets (heap : q.Heap) (w : World) (ret : ℕ) (heap' : q.Heap) (w' : World) :
    Prop where
  fired : ∃ sent, w'.tried = w.tried ++ sent ∧ (sent : Multiset Message) =
    ((q.contents heap).filter fun job => job.executionTime ≤ w'.currentTime).map
      fun job => job.message.createDuplicate
  later : ∀ job ∈ q.contents heap', w'.currentTime < job.executionTime
  kept : ∀ name job, config.lookup name = some job → ¬ Exhausted cron job.schedule w'.clock →
    ((q.contents heap').map source).count (.generator (.interval name)) = 1
  configured : ∀ entry ∈ q.contents heap', ∃ name job, config.lookup name = some job ∧
    entry.schedule = job.schedule ∧ entry.message = messageOf ids name job ∧
    cron.occurs job.schedule entry.executionTime
  dropped : ∀ job ∈ q.contents heap, source job ∉ (q.contents heap').map source →
    Exhausted cron job.schedule w'.clock
  once : ((q.contents heap').map source).Nodup
  returned : q.contents heap' = 0 ∧ ret = 0 ∨ ∃ job ∈ q.contents heap',
    (∀ other ∈ q.contents heap', job.executionTime ≤ other.executionTime) ∧
    ret = job.executionTime - w'.currentTime

end runs

section loop
variable {Schedule : Type} {cron : Cron Schedule}
  {q : BinaryHeap (ScheduledJob Schedule) (reverse cmp)} {α : Type} {a : α} {w w' : World}

theorem executionTimeOf_seconds (sec : ℕ) : executionTimeOf (sec * nanosPerSecond) = sec := by
  simp only [executionTimeOf, nanosPerSecond]
  omega

/-- The next occurrence is later than any second that has begun. -/
theorem upcoming_later {schedule : Schedule} {now time seconds : ℕ}
    (h : cron.upcoming schedule now = some time) (hnow : seconds * nanosPerSecond ≤ now) :
    seconds < executionTimeOf time ∧ cron.occurs schedule (executionTimeOf time) := by
  obtain ⟨sec, rfl, hsec, hlt, -⟩ := cron.upcoming_some h
  rw [executionTimeOf_seconds]
  refine ⟨?_, hsec⟩
  simp only [nanosPerSecond] at hnow hlt
  omega

theorem Exhausted.mono {schedule : Schedule} {now later : ℕ} (h : Exhausted cron schedule now)
    (hle : now ≤ later) : Exhausted cron schedule later :=
  fun sec hsec => (h sec hsec).trans hle

theorem exec_utcNow {next : ℕ → Code α} : Exec handle (utcNow >>= next) w a w' ↔
    ∃ now, w.clock ≤ now ∧ Exec handle (next now) { w with clock := now } a w' := by
  rw [utcNow, perform_bind, exec_request_iff]
  simp only [handle]
  constructor
  · intro h
    obtain ⟨now, _, ⟨hle, rfl⟩, hrest⟩ := h
    exact ⟨now, hle, hrest⟩
  · intro h
    obtain ⟨now, hle, hrest⟩ := h
    exact ⟨now, _, ⟨hle, rfl⟩, hrest⟩

theorem exec_trySend {msg : Message} {next : Except TrySendError Unit → Code α}:
    Exec handle (trySend msg >>= next) w a w' ↔
      ∃ r, Exec handle (next r) { w with tried := w.tried ++ [msg] } a w' := by
  rw [trySend, perform_bind, exec_request_iff]
  simp only [handle]
  constructor
  · intro h
    obtain ⟨r, _, rfl, hrest⟩ := h
    exact ⟨r, hrest⟩
  · intro h
    obtain ⟨r, hrest⟩ := h
    exact ⟨r, _, rfl, hrest⟩

/-- What is put back of a job, but for the time. -/
def template (job : ScheduledJob Schedule) : Schedule × Message :=
  (job.schedule, job.message.createDuplicate)

def withoutTime (job : ScheduledJob Schedule) : Schedule × Message := (job.schedule, job.message)

/-- The loop so far: `fired` have been sent, `stay` have not been touched, and `back` are the
fired ones that were put back. -/
structure Progress (cron : Cron Schedule) (q : BinaryHeap (ScheduledJob Schedule) (reverse cmp))
    (heap₀ : q.Heap) (w₀ : World) (heap : q.Heap) (w : World)
    (fired stay back : Multiset (ScheduledJob Schedule)) : Prop where
  before : q.contents heap₀ = fired + stay
  now : q.contents heap = stay + back
  sent : ∃ sent, w.tried = w₀.tried ++ sent ∧
    (sent : Multiset Message) = fired.map fun job => job.message.createDuplicate
  due : ∀ job ∈ fired, job.executionTime ≤ w.currentTime
  later : ∀ job ∈ back, w.currentTime < job.executionTime
  occurs : ∀ job ∈ back, cron.occurs job.schedule job.executionTime
  same : back.map withoutTime ≤ fired.map template
  left : ∀ job ∈ fired, template job ∈ back.map withoutTime ∨ Exhausted cron job.schedule w.clock
  began : w.currentTime * nanosPerSecond ≤ w.clock
  advanced : w₀.clock ≤ w.clock

theorem Progress.start {heap : q.Heap} {w : World}
    (h : w.currentTime * nanosPerSecond ≤ w.clock) :
    Progress cron q heap w heap w 0 (q.contents heap) 0 where
  before := by simp
  now := by simp
  sent := ⟨[], by simp⟩
  due := by simp
  later := by simp
  occurs := by simp
  same := by simp
  left := by simp
  began := h
  advanced := le_rfl

section step
variable {heap₀ heap rest : q.Heap} {w₀ : World} {fired stay back : Multiset (ScheduledJob Schedule)}
  {job : ScheduledJob Schedule} {now : ℕ}

/-- The job on top of the heap, when it is due, is one that has not been touched. -/
theorem Progress.untouched (h : Progress cron q heap₀ w₀ heap w fired stay back)
    (hpop : q.pop heap = some (job, rest)) (hdue : job.executionTime ≤ w.currentTime) :
    ∃ stay', stay = job ::ₘ stay' ∧ q.contents rest = stay' + back := by
  have hcontents := (q.pop_some heap job rest hpop).1
  have hmem : job ∈ stay + back := by
    rw [← h.now, hcontents]
    exact Multiset.mem_cons_self _ _
  obtain hmem | hmem := Multiset.mem_add.mp hmem
  · obtain ⟨stay', rfl⟩ := Multiset.exists_cons_of_mem hmem
    refine ⟨stay', rfl, ?_⟩
    rw [h.now, Multiset.cons_add] at hcontents
    exact ((Multiset.cons_inj_right _).mp hcontents).symm
  · have := h.later job hmem
    omega

/-- The message of one more job is sent. -/
theorem Progress.sent_cons (h : Progress cron q heap₀ w₀ heap w fired stay back)
    (job : ScheduledJob Schedule) :
    ∃ sent, w.tried ++ [job.message.createDuplicate] = w₀.tried ++ sent ∧
      (sent : Multiset Message) = (job ::ₘ fired).map fun job => job.message.createDuplicate := by
  obtain ⟨sent, htried, hsent⟩ := h.sent
  refine ⟨sent ++ [job.message.createDuplicate], by simp [htried], ?_⟩
  rw [Multiset.map_cons, ← hsent, Multiset.cons_coe, Multiset.coe_eq_coe]
  exact List.perm_append_singleton _ _

theorem Progress.due_cons (h : Progress cron q heap₀ w₀ heap w fired stay back)
    (hdue : job.executionTime ≤ w.currentTime) :
    ∀ other ∈ job ::ₘ fired, other.executionTime ≤ w.currentTime := by
  intro other hother
  obtain rfl | hother := Multiset.mem_cons.mp hother
  · exact hdue
  · exact h.due other hother

/-- The job is sent and has no occurrence left. -/
theorem Progress.drop (h : Progress cron q heap₀ w₀ heap w fired (job ::ₘ stay) back)
    (hrest : q.contents rest = stay + back) (hdue : job.executionTime ≤ w.currentTime)
    (hnow : w.clock ≤ now) (hnone : cron.upcoming job.schedule now = none) :
    Progress cron q heap₀ w₀ rest
      { w with clock := now, tried := w.tried ++ [job.message.createDuplicate] }
      (job ::ₘ fired) stay back where
  before := by simp [h.before]
  now := hrest
  sent := h.sent_cons job
  due := h.due_cons hdue
  later := h.later
  occurs := h.occurs
  same := h.same.trans (Multiset.map_le_map (Multiset.le_cons_self _ _))
  left := by
    intro other hother
    obtain rfl | hother := Multiset.mem_cons.mp hother
    · exact Or.inr (cron.upcoming_none hnone)
    · exact (h.left other hother).imp_right fun he => he.mono hnow
  began := h.began.trans hnow
  advanced := h.advanced.trans hnow

/-- The job is sent and put back for its next occurrence. -/
theorem Progress.putBack {time : ℕ} (h : Progress cron q heap₀ w₀ heap w fired (job ::ₘ stay) back)
    (hrest : q.contents rest = stay + back) (hdue : job.executionTime ≤ w.currentTime)
    (hnow : w.clock ≤ now) (hsome : cron.upcoming job.schedule now = some time) :
    Progress cron q heap₀ w₀
      (q.push rest ⟨executionTimeOf time, job.schedule, job.message.createDuplicate⟩)
      { w with clock := now, tried := w.tried ++ [job.message.createDuplicate] }
      (job ::ₘ fired) stay
      (⟨executionTimeOf time, job.schedule, job.message.createDuplicate⟩ ::ₘ back) where
  before := by simp [h.before]
  now := by simp [q.contents_push, hrest]
  sent := h.sent_cons job
  due := h.due_cons hdue
  later := by
    intro other hother
    obtain rfl | hother := Multiset.mem_cons.mp hother
    · exact (upcoming_later hsome (h.began.trans hnow)).1
    · exact h.later other hother
  occurs := by
    intro other hother
    obtain rfl | hother := Multiset.mem_cons.mp hother
    · exact (upcoming_later hsome (h.began.trans hnow)).2
    · exact h.occurs other hother
  same := by
    simp only [Multiset.map_cons]
    exact Multiset.cons_le_cons _ h.same
  left := by
    intro other hother
    simp only [Multiset.map_cons, Multiset.mem_cons]
    obtain rfl | hother := Multiset.mem_cons.mp hother
    · exact Or.inl (Or.inl rfl)
    · exact (h.left other hother).imp Or.inr fun he => he.mono hnow
  began := h.began.trans hnow
  advanced := h.advanced.trans hnow

end step

/-- The seconds to wait: until the first job of the heap, none when it is empty. -/
def Wait (q : BinaryHeap (ScheduledJob Schedule) (reverse cmp)) (heap : q.Heap)
    (currentTime ret : ℕ) : Prop :=
  q.contents heap = 0 ∧ ret = 0 ∨ ∃ job ∈ q.contents heap,
    (∀ other ∈ q.contents heap, job.executionTime ≤ other.executionTime) ∧
    ret = job.executionTime - currentTime

/-- The loop ends when no job is due any more; it has one turn for each that is. -/
theorem fireDue_exec {heap₀ heap : q.Heap} {w₀ : World}
    {fired stay back : Multiset (ScheduledJob Schedule)} {fuel currentTime : ℕ}
    {r : Option (ℕ × q.Heap)} (h : Progress cron q heap₀ w₀ heap w fired stay back)
    (hcurrent : w.currentTime = currentTime) (hfuel : stay.card < fuel)
    (hx : Exec handle (fireDue cron q currentTime fuel heap) w r w') :
    ∃ ret heap' fired' stay' back', r = some (ret, heap') ∧
      Progress cron q heap₀ w₀ heap' w' fired' stay' back' ∧ w'.currentTime = currentTime ∧
      (∀ job ∈ q.contents heap', currentTime < job.executionTime) ∧ Wait q heap' currentTime ret := by
  induction fuel generalizing heap w fired stay back with
  | zero => omega
  | succ fuel ih =>
    rw [fireDue] at hx
    cases hpop : q.pop heap with
    | none =>
      have hempty := q.pop_none heap hpop
      simp only [hpop, pure_eq_done, exec_done_iff] at hx
      obtain ⟨rfl, rfl⟩ := hx
      exact ⟨0, heap, fired, stay, back, rfl, h, hcurrent, by simp [hempty], Or.inl ⟨hempty, rfl⟩⟩
    | some top =>
      obtain ⟨job, rest⟩ := top
      obtain ⟨hcontents, htop⟩ := q.pop_some heap job rest hpop
      have hleast : ∀ other ∈ q.contents heap, job.executionTime ≤ other.executionTime :=
        fun other hother => Nat.isLE_compare.mp (htop other hother)
      simp only [hpop] at hx
      split_ifs at hx with hlate
      · simp only [pure_eq_done, exec_done_iff] at hx
        obtain ⟨rfl, rfl⟩ := hx
        refine ⟨_, heap, fired, stay, back, rfl, h, hcurrent, ?_, Or.inr ⟨job, ?_, hleast, rfl⟩⟩
        · intro other hother
          have := hleast other hother
          omega
        · rw [hcontents]
          exact Multiset.mem_cons_self _ _
      · have hdue : job.executionTime ≤ w.currentTime := by omega
        obtain ⟨stay, rfl, hrest⟩ := h.untouched hpop hdue
        rw [exec_trySend] at hx
        obtain ⟨_, hx⟩ := hx
        rw [exec_utcNow] at hx
        obtain ⟨now, hnow, hx⟩ := hx
        have hnow : w.clock ≤ now := hnow
        have hstay : stay.card < fuel := by
          rw [Multiset.card_cons] at hfuel
          omega
        cases hup : cron.upcoming job.schedule now with
        | none =>
          simp only [hup] at hx
          exact ih (h.drop hrest hdue hnow hup) hcurrent hstay hx
        | some time =>
          simp only [hup] at hx
          exact ih (h.putBack hrest hdue hnow hup) hcurrent hstay hx

end loop

section invariant
variable {Schedule : Type} {cron : Cron Schedule}
  {q : BinaryHeap (ScheduledJob Schedule) (reverse cmp)} {ids : String → String}
  {known : List (String × IntervalJob Schedule)}

/-- The heap holds each of the known jobs once, unless it has no occurrence left. -/
structure Holds (cron : Cron Schedule) (q : BinaryHeap (ScheduledJob Schedule) (reverse cmp))
    (ids : String → String) (known : List (String × IntervalJob Schedule)) (heap : q.Heap)
    (clock : ℕ) : Prop where
  listed : ∀ entry ∈ q.contents heap, ∃ job ∈ known, entry.schedule = job.2.schedule ∧
    entry.message = messageOf ids job.1 job.2 ∧ cron.occurs job.2.schedule entry.executionTime
  once : ((q.contents heap).map source).Nodup
  held : ∀ job ∈ known, (∃ entry ∈ q.contents heap, entry.schedule = job.2.schedule ∧
    entry.message = messageOf ids job.1 job.2) ∨ Exhausted cron job.2.schedule clock

theorem source_messageOf (name : String) (job : IntervalJob Schedule) :
    (messageOf ids name job).source = .generator (.interval name) := rfl

theorem createDuplicate_messageOf (name : String) (job : IntervalJob Schedule) :
    (messageOf ids name job).createDuplicate = messageOf ids name job := rfl

section filling
variable {heap heap' : q.Heap} {w w' : World} {job : String × IntervalJob Schedule}

theorem Holds.mono {clock later : ℕ} (h : Holds cron q ids known heap clock) (hle : clock ≤ later) :
    Holds cron q ids known heap later :=
  ⟨h.listed, h.once, fun job hjob => (h.held job hjob).imp_right fun he => he.mono hle⟩

theorem Holds.perm {clock : ℕ} {jobs : List (String × IntervalJob Schedule)}
    (h : Holds cron q ids known heap clock) (hperm : known.Perm jobs) :
    Holds cron q ids jobs heap clock := by
  refine ⟨fun entry hentry => ?_, h.once, fun job hjob => h.held job (hperm.mem_iff.mpr hjob)⟩
  obtain ⟨job, hjob, hrest⟩ := h.listed entry hentry
  exact ⟨job, hperm.mem_iff.mp hjob, hrest⟩

theorem Holds.skip {now : ℕ} (h : Holds cron q ids known heap now)
    (hnone : cron.upcoming job.2.schedule now = none) :
    Holds cron q ids (known ++ [job]) heap now := by
  refine ⟨fun entry hentry => ?_, h.once, fun other hother => ?_⟩
  · obtain ⟨found, hfound, hrest⟩ := h.listed entry hentry
    exact ⟨found, by simp [hfound], hrest⟩
  · obtain hother | hother := List.mem_append.mp hother
    · exact h.held other hother
    · rw [List.mem_singleton.mp hother]
      exact Or.inr (cron.upcoming_none hnone)

theorem Holds.add {now time : ℕ} (h : Holds cron q ids known heap now)
    (hnew : job.1 ∉ known.map Prod.fst) (hsome : cron.upcoming job.2.schedule now = some time) :
    Holds cron q ids (known ++ [job])
      (q.push heap ⟨executionTimeOf time, job.2.schedule, messageOf ids job.1 job.2⟩) now := by
  refine ⟨fun entry hentry => ?_, ?_, fun other hother => ?_⟩
  · rw [q.contents_push, Multiset.mem_cons] at hentry
    obtain rfl | hentry := hentry
    · exact ⟨job, by simp, rfl, rfl, (upcoming_later hsome (by simp : 0 * nanosPerSecond ≤ now)).2⟩
    · obtain ⟨found, hfound, hrest⟩ := h.listed entry hentry
      exact ⟨found, by simp [hfound], hrest⟩
  · rw [q.contents_push, Multiset.map_cons, Multiset.nodup_cons]
    refine ⟨fun hmem => ?_, h.once⟩
    obtain ⟨entry, hentry, heq⟩ := Multiset.mem_map.mp hmem
    obtain ⟨found, hfound, -, hmessage, -⟩ := h.listed entry hentry
    have hname : found.1 = job.1 := by simpa [source, hmessage, source_messageOf] using heq
    exact hnew (List.mem_map.mpr ⟨found, hfound, hname⟩)
  · simp only [q.contents_push, Multiset.mem_cons]
    obtain hother | hother := List.mem_append.mp hother
    · refine (h.held other hother).imp_left fun he => ?_
      obtain ⟨entry, hentry, hmessage⟩ := he
      exact ⟨entry, Or.inr hentry, hmessage⟩
    · rw [List.mem_singleton.mp hother]
      exact Or.inl ⟨_, Or.inl rfl, rfl, rfl⟩

/-- `Interval::new` puts every job that has an occurrence into the heap. -/
theorem fillHeap_exec {jobs : List (String × IntervalJob Schedule)}
    (h : Holds cron q ids known heap w.clock) (hnodup : ((known ++ jobs).map Prod.fst).Nodup)
    (hx : Exec handle (fillHeap cron q ids jobs heap) w heap' w') :
    Holds cron q ids (known ++ jobs) heap' w'.clock := by
  induction jobs generalizing known heap w with
  | nil =>
    simp only [fillHeap, pure_eq_done, exec_done_iff] at hx
    obtain ⟨rfl, rfl⟩ := hx
    simpa using h
  | cons job jobs ih =>
    obtain ⟨name, job⟩ := job
    rw [fillHeap, exec_utcNow] at hx
    obtain ⟨now, hnow, hx⟩ := hx
    have hmono := h.mono hnow
    have happend : known ++ (name, job) :: jobs = (known ++ [(name, job)]) ++ jobs := by simp
    rw [happend] at hnodup ⊢
    cases hup : cron.upcoming job.schedule now with
    | none =>
      simp only [hup] at hx
      exact ih (hmono.skip hup) hnodup hx
    | some time =>
      have hnew : name ∉ known.map Prod.fst := by
        intro hin
        rw [List.append_assoc, List.map_append, List.nodup_append] at hnodup
        exact hnodup.2.2 name hin name (by simp) rfl
      simp only [hup] at hx
      exact ih (hmono.add hnew hup) hnodup hx

end filling

/-- A call keeps the invariant. -/
theorem Holds.progress {heap₀ heap : q.Heap} {w₀ w : World}
    {fired stay back : Multiset (ScheduledJob Schedule)} (h : Holds cron q ids known heap₀ w₀.clock)
    (hp : Progress cron q heap₀ w₀ heap w fired stay back) :
    Holds cron q ids known heap w.clock := by
  have hback : ∀ entry ∈ back, ∃ job ∈ fired, template job = withoutTime entry := by
    intro entry hentry
    exact Multiset.mem_map.mp (Multiset.mem_of_le hp.same (Multiset.mem_map_of_mem _ hentry))
  refine ⟨fun entry hentry => ?_, ?_, fun job hjob => ?_⟩
  · rw [hp.now] at hentry
    obtain hentry | hentry := Multiset.mem_add.mp hentry
    · exact h.listed entry (by simp [hp.before, hentry])
    · obtain ⟨job, hjob, heq⟩ := hback entry hentry
      obtain ⟨hschedule, hmessage⟩ := Prod.mk.inj heq
      obtain ⟨found, hfound, hs, hm, -⟩ := h.listed job (by simp [hp.before, hjob])
      have hoccurs := hp.occurs entry hentry
      rw [← hschedule, hs] at hoccurs
      exact ⟨found, hfound, by rw [← hschedule, hs],
        by rw [← hmessage, hm, createDuplicate_messageOf], hoccurs⟩
  · have hsources : back.map source ≤ fired.map source := by
      have := Multiset.map_le_map (f := fun x : Schedule × Message => x.2.source) hp.same
      rwa [Multiset.map_map, Multiset.map_map] at this
    have hbefore := h.once
    rw [hp.before, Multiset.map_add, add_comm] at hbefore
    rw [hp.now, Multiset.map_add]
    exact Multiset.nodup_of_le (add_le_add_right hsources _) hbefore
  · obtain ⟨entry, hentry, hs, hm⟩ | he := h.held job hjob
    · rw [hp.before] at hentry
      obtain hentry | hentry := Multiset.mem_add.mp hentry
      · obtain hin | he := hp.left entry hentry
        · obtain ⟨put, hput, heq⟩ := Multiset.mem_map.mp hin
          obtain ⟨hschedule, hmessage⟩ := Prod.mk.inj heq
          refine Or.inl ⟨put, by simp [hp.now, hput], by rw [hschedule, hs], ?_⟩
          rw [hmessage, hm, createDuplicate_messageOf]
        · exact Or.inr (hs ▸ he)
      · exact Or.inl ⟨entry, by simp [hp.now, hentry], hs, hm⟩
    · exact Or.inr (he.mono hp.advanced)

/-- A call from a heap that holds the known jobs ends and does what it should. -/
theorem fetchIntervalJobs_exec {heap : q.Heap} {w w' : World} {r : Option (ℕ × q.Heap)}
    {config : IntervalConfig Schedule} (h : Holds cron q ids (pairs config) heap w.clock)
    (hx : Exec handle (fetchIntervalJobs cron q heap) w r w') :
    ∃ ret heap', r = some (ret, heap') ∧ CallMeets cron q ids config heap w ret heap' w' ∧
      Holds cron q ids (pairs config) heap' w'.clock := by
  rw [fetchIntervalJobs, getCurrentTime, perform_bind, exec_request_iff] at hx
  obtain ⟨currentTime, _, ⟨now, hnow, hcurrent, rfl⟩, hx⟩ := hx
  have hbegan : currentTime * nanosPerSecond ≤ now := hcurrent ▸ Nat.div_mul_le_self now _
  have hstart : Progress cron q heap _ heap ⟨now, currentTime, w.tried⟩ 0 (q.contents heap) 0 :=
    Progress.start hbegan
  obtain ⟨ret, heap', fired, stay, back, hr, hp, hsame, hlater, hwait⟩ :=
    fireDue_exec hstart rfl (Nat.lt_succ_self _) hx
  have hholds := (h.mono hnow).progress hp
  subst hsame
  refine ⟨ret, heap', hr, ?_, hholds⟩
  constructor
  case fired =>
    obtain ⟨sent, htried, hsent⟩ := hp.sent
    refine ⟨sent, htried, ?_⟩
    have hdue : fired.filter (fun job => job.executionTime ≤ w'.currentTime) = fired :=
      Multiset.filter_eq_self.mpr hp.due
    have hstay : stay.filter (fun job => job.executionTime ≤ w'.currentTime) = 0 := by
      refine Multiset.filter_eq_nil.mpr fun job hjob => ?_
      have : w'.currentTime < job.executionTime := hlater job (by simp [hp.now, hjob])
      omega
    rw [hsent, hp.before, Multiset.filter_add, hdue, hstay, add_zero]
  case later => exact hlater
  case kept =>
    intro name job hlookup hleft
    obtain ⟨entry, hentry, -, hmessage⟩ | he := hholds.held (name, job) (mem_pairs.mpr hlookup)
    · refine Multiset.count_eq_one_of_mem hholds.once (Multiset.mem_map.mpr ⟨entry, hentry, ?_⟩)
      simp [source, hmessage, source_messageOf]
    · exact absurd he hleft
  case configured =>
    intro entry hentry
    obtain ⟨job, hjob, hrest⟩ := hholds.listed entry hentry
    exact ⟨job.1, job.2, mem_pairs.mp hjob, hrest⟩
  case dropped =>
    intro job hjob hgone
    rw [hp.before] at hjob
    obtain hjob | hjob := Multiset.mem_add.mp hjob
    · refine (hp.left job hjob).resolve_left fun hin => hgone ?_
      obtain ⟨put, hput, heq⟩ := Multiset.mem_map.mp hin
      refine Multiset.mem_map.mpr ⟨put, by simp [hp.now, hput], ?_⟩
      exact congrArg (fun x : Schedule × Message => x.2.source) heq
    · exact absurd (Multiset.mem_map_of_mem _ (by simp [hp.now, hjob])) hgone
  case once => exact hholds.once
  case returned => exact hwait

theorem reachable_holds {heap : q.Heap} {w : World} {config : IntervalConfig Schedule}
    (h : Reachable cron q ids config heap w) : Holds cron q ids (pairs config) heap w.clock := by
  induction h with
  | new hperm hx =>
    have hnodup := ((hperm.map Prod.fst).nodup_iff).mpr (pairs_keys_nodup config)
    have hempty : ∀ clock, Holds cron q ids [] q.new clock := fun clock =>
      ⟨by simp [q.contents_new], by simp [q.contents_new], by simp⟩
    exact (fillHeap_exec (hempty _) (by simpa using hnodup) hx).perm hperm
  | call _ hx ih =>
    obtain ⟨ret, heap', heq, -, hholds⟩ := fetchIntervalJobs_exec ih hx
    obtain ⟨rfl, rfl⟩ := Prod.mk.inj (Option.some.inj heq)
    exact hholds

end invariant

/-- In every run each call ends, sends exactly the jobs that are due, each once, and leaves every
job with an occurrence to come in the heap, once and later than the call. -/
theorem interval_jobs_fire_once {Schedule : Type} {cron : Cron Schedule}
    {q : BinaryHeap (ScheduledJob Schedule) (reverse cmp)} {ids : String → String}
    {config : IntervalConfig Schedule} {heap : q.Heap} {w w' : World} {r : Option (ℕ × q.Heap)}
    (h : Reachable cron q ids config heap w)
    (hx : Exec handle (fetchIntervalJobs cron q heap) w r w') :
    ∃ ret heap', r = some (ret, heap') ∧ CallMeets cron q ids config heap w ret heap' w' := by
  obtain ⟨ret, heap', hr, hmeets, -⟩ := fetchIntervalJobs_exec (reachable_holds h) hx
  exact ⟨ret, heap', hr, hmeets⟩

section sample

/-- Schedules given as the list of their seconds. -/
def listedCron : Cron (List ℕ) where
  occurs l sec := sec ∈ l
  upcoming l now :=
    (l.filter fun sec => now < sec * nanosPerSecond).min?.map (· * nanosPerSecond)
  upcoming_some := by
    intro l now t h
    obtain ⟨sec, hsec, rfl⟩ := Option.map_eq_some_iff.mp h
    obtain ⟨hmem, hleast⟩ := List.min?_eq_some_iff.mp hsec
    simp only [List.mem_filter, decide_eq_true_eq] at hmem hleast
    exact ⟨sec, rfl, hmem.1, hmem.2, fun sec' hin hlater => hleast sec' ⟨hin, hlater⟩⟩
  upcoming_none := by
    intro l now h sec hsec
    have hnil := List.min?_eq_none_iff.mp (Option.map_eq_none_iff.mp h)
    have := List.filter_eq_nil_iff.mp hnil sec hsec
    simpa using this

def tickJob : IntervalJob (List ℕ) := ⟨[20, 30], "tick", none, .limited 0⟩

def reportJob : IntervalJob (List ℕ) := ⟨[40], "report", none, .limited 0⟩

def tickConfig : IntervalConfig (List ℕ) :=
  (AList.singleton "tick" tickJob).insert "report" reportJob

def tickMessage : Message := messageOf id "tick" tickJob

def waitingReport : ScheduledJob (List ℕ) := ⟨40, [40], messageOf id "report" reportJob⟩

/-- A job for the seconds 20 and 30 fires at 20 and waits for 30, the job for 40 just waits. -/
theorem tick_fires_once : CallMeets listedCron (ofKey ScheduledJob.executionTime) id tickConfig
    [⟨20, [20, 30], tickMessage⟩, waitingReport] ⟨10000000000, 0, []⟩ 10
    [⟨30, [20, 30], tickMessage⟩, waitingReport] ⟨20500000000, 20, [tickMessage]⟩ := by
  have hnew : Exec handle (newInterval listedCron (ofKey ScheduledJob.executionTime) id
      (pairs tickConfig)) ⟨10000000000, 0, []⟩ [⟨20, [20, 30], tickMessage⟩, waitingReport]
      ⟨10000000000, 0, []⟩ :=
    exec_utcNow.mpr ⟨10000000000, le_rfl, exec_utcNow.mpr ⟨10000000000, le_rfl, .done _ _⟩⟩
  have hcall : Exec handle (fetchIntervalJobs listedCron (ofKey ScheduledJob.executionTime)
      [⟨20, [20, 30], tickMessage⟩, waitingReport]) ⟨10000000000, 0, []⟩
      (some (10, [⟨30, [20, 30], tickMessage⟩, waitingReport]))
      ⟨20500000000, 20, [tickMessage]⟩ := by
    refine exec_request_iff.mpr
      ⟨(20 : ℕ), ⟨20500000000, 20, []⟩, ⟨20500000000, by decide, rfl, rfl⟩, ?_⟩
    exact exec_trySend.mpr ⟨.error .full, exec_utcNow.mpr ⟨20500000000, le_rfl, .done _ _⟩⟩
  obtain ⟨ret, heap', heq, hmeets⟩ := interval_jobs_fire_once (.new (.refl _) hnew) hcall
  obtain ⟨rfl, rfl⟩ := Prod.mk.inj (Option.some.inj heq)
  exact hmeets

end sample

end PlaidRuntime.IntervalJobs
