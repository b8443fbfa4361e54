import PlaidRuntime.Fallible
import PlaidRuntime.KeyedContent

/-!
# The performance report

The performance monitoring system (`performance/mod.rs`) adds up what each module used until the
sending end has gone, and then writes the averages. The sums are machine integers; a module whose
sums would overflow is frozen.
-/
namespace PlaidRuntime.PerformanceReport
open Fallible KeyedContent

/-- A `u128` of microseconds and a `u64` of computation. -/
structure ModulePerformanceMetadata where
  module : String
  executionTime : ℕ
  computationUsed : ℕ
  executionTime_lt : executionTime < 2 ^ 128
  computationUsed_lt : computationUsed < 2 ^ 64
  deriving DecidableEq

structure AggregatePerformanceData where
  runs : ℕ
  totalExecutionTime : ℕ
  totalComputationUsed : ℕ
  maxedOut : Bool
  deriving DecidableEq, Repr

def checkedAdd (bits a b : ℕ) : Option ℕ := if a + b < 2 ^ bits then some (a + b) else none

def AggregatePerformanceData.new (message : ModulePerformanceMetadata) : AggregatePerformanceData :=
  ⟨1, message.executionTime, message.computationUsed, false⟩

def AggregatePerformanceData.update (data : AggregatePerformanceData)
    (message : ModulePerformanceMetadata) : AggregatePerformanceData :=
  if data.maxedOut then data
  else match checkedAdd 128 data.totalExecutionTime message.executionTime,
      checkedAdd 64 data.totalComputationUsed message.computationUsed with
    | some newTotalExecutionTime, some newTotalComputationUsed =>
      ⟨(data.runs + 1) % 2 ^ 64, newTotalExecutionTime, newTotalComputationUsed, false⟩
    | _, _ => { data with maxedOut := true }

abbrev Aggregates := AList fun _ : String => AggregatePerformanceData

/-- What `recv_timeout` returns. -/
inductive Event
  | received (message : ModulePerformanceMetadata)
  | timeout
  | disconnected

/-- The entry of the module is updated, or a new one is made. -/
def record (aggregates : Aggregates) (message : ModulePerformanceMetadata) : Aggregates :=
  aggregates.insert message.module
    (match aggregates.lookup message.module with
    | some aggregate => aggregate.update message
    | none => .new message)

/-- The loop only ends when the sending end is disconnected. -/
def performanceMonitoringLoop (aggregates : Aggregates) : List Event → Option Aggregates
  | [] => none
  | .received message :: events => performanceMonitoringLoop (record aggregates message) events
  | .timeout :: events => performanceMonitoringLoop aggregates events
  | .disconnected :: _ => some aggregates

/-- The lines of one module. -/
def moduleLines (module : String) (runs averageComputation averageTime : ℕ) : List String :=
  [s!"Module: {module}\n", s!"\tRuns: {runs}\n",
    s!"\tAverage Computation Used: {averageComputation}\n",
    s!"\tAverage Execution Time (microseconds): {averageTime}\n", "\n"]

/-- The map is written in any order. A division by zero would panic. -/
def generateReport (aggregates : Aggregates) : Option (List String) :=
  ((pairs aggregates).mapM fun e =>
    if e.2.runs = 0 then none
    else some (moduleLines e.1 e.2.runs (e.2.totalComputationUsed / e.2.runs)
      (e.2.totalExecutionTime / e.2.runs))).map fun lines => "Performance Report:\n" :: lines.flatten

section sums

def timeOf (l : List ModulePerformanceMetadata) : ℕ :=
  (l.map ModulePerformanceMetadata.executionTime).sum

def computationOf (l : List ModulePerformanceMetadata) : ℕ :=
  (l.map ModulePerformanceMetadata.computationUsed).sum

/-- The sums fit into their machine integers. -/
def Fits (l : List ModulePerformanceMetadata) : Prop :=
  timeOf l < 2 ^ 128 ∧ computationOf l < 2 ^ 64
  deriving Decidable

@[simp]
theorem timeOf_append (l l' : List ModulePerformanceMetadata) :
    timeOf (l ++ l') = timeOf l + timeOf l' := by
  simp [timeOf]

@[simp]
theorem computationOf_append (l l' : List ModulePerformanceMetadata) :
    computationOf (l ++ l') = computationOf l + computationOf l' := by
  simp [computationOf]

theorem Fits.of_prefix {l l' : List ModulePerformanceMetadata} (h : Fits l) (hp : l' <+: l) :
    Fits l' := by
  obtain ⟨rest, rfl⟩ := hp
  rw [Fits, timeOf_append, computationOf_append] at h
  exact ⟨by omega, by omega⟩

/-- The measurements that count: the longest part from the start whose sums fit. -/
structure Counted (all counted : List ModulePerformanceMetadata) : Prop where
  start : counted <+: all
  nonempty : counted ≠ []
  fits : Fits counted
  longest : ∀ l, l <+: all → Fits l → l.length ≤ counted.length

structure Summary (all : List ModulePerformanceMetadata) (data : AggregatePerformanceData)
    (counted : List ModulePerformanceMetadata) : Prop where
  counts : Counted all counted
  runs : data.runs = counted.length
  time : data.totalExecutionTime = timeOf counted
  computation : data.totalComputationUsed = computationOf counted
  frozen : data.maxedOut = true ↔ counted ≠ all

variable {all counted : List ModulePerformanceMetadata} {data : AggregatePerformanceData}
  {message : ModulePerformanceMetadata}

theorem Counted.unique {counted' : List ModulePerformanceMetadata} (h : Counted all counted)
    (h' : Counted all counted') : counted = counted' :=
  have hlength : counted.length = counted'.length :=
    le_antisymm (h'.longest _ h.start h.fits) (h.longest _ h'.start h'.fits)
  (List.prefix_of_prefix_length_le h.start h'.start hlength.le).eq_of_length hlength

theorem Counted.whole (hne : all ≠ []) (hfits : Fits all) : Counted all all :=
  ⟨List.prefix_refl _, hne, hfits, fun _ hl _ => hl.length_le⟩

theorem summary_new (message : ModulePerformanceMetadata) : Summary [message] (.new message) [message] where
  counts := .whole (by simp) (by simpa [Fits, timeOf, computationOf] using
    ⟨message.executionTime_lt, message.computationUsed_lt⟩)
  runs := rfl
  time := by simp [AggregatePerformanceData.new, timeOf]
  computation := by simp [AggregatePerformanceData.new, computationOf]
  frozen := by simp [AggregatePerformanceData.new]

/-- A part that starts what has come so far, or all of it with the next message. -/
theorem prefix_append_singleton {l : List ModulePerformanceMetadata} (h : l <+: all ++ [message]) :
    l <+: all ∨ l = all ++ [message] := by
  obtain h | h := List.prefix_concat_iff.mp (by simpa [List.concat_eq_append] using h)
  · exact .inr (by simpa [List.concat_eq_append] using h)
  · exact .inl h

theorem update_eq (h : data.maxedOut = false) : data.update message =
    if data.totalExecutionTime + message.executionTime < 2 ^ 128 ∧
        data.totalComputationUsed + message.computationUsed < 2 ^ 64 then
      ⟨(data.runs + 1) % 2 ^ 64, data.totalExecutionTime + message.executionTime,
        data.totalComputationUsed + message.computationUsed, false⟩
    else { data with maxedOut := true } := by
  simp only [AggregatePerformanceData.update, h, Bool.false_eq_true, if_false, checkedAdd]
  by_cases ht : data.totalExecutionTime + message.executionTime < 2 ^ 128
  · by_cases hc : data.totalComputationUsed + message.computationUsed < 2 ^ 64
    · rw [if_pos ht, if_pos hc, if_pos ⟨ht, hc⟩]
    · rw [if_pos ht, if_neg hc, if_neg fun hboth => hc hboth.2]
  · have hnot : ¬ (data.totalExecutionTime + message.executionTime < 2 ^ 128 ∧
        data.totalComputationUsed + message.computationUsed < 2 ^ 64) := fun hboth => ht hboth.1
    rw [if_neg ht, if_neg hnot]

/-- Where the next message does not change what counts, what counts stays as it is. -/
theorem Counted.keep (h : Counted all counted)
    (hwhy : counted ≠ all ∨ ¬ Fits (all ++ [message])) : Counted (all ++ [message]) counted where
  start := h.start.trans (List.prefix_append _ _)
  nonempty := h.nonempty
  fits := h.fits
  longest := by
    intro l hl hfits
    obtain hl | rfl := prefix_append_singleton hl
    · exact h.longest l hl hfits
    · obtain hne | hnot := hwhy
      · -- a longer part that fits would make `all` itself fit
        have hall := h.longest all (List.prefix_refl _) (hfits.of_prefix (List.prefix_append _ _))
        exact absurd (h.start.eq_of_length_le hall) hne
      · exact absurd hfits hnot

/-- One message keeps the account: it is added, or the module is frozen at what has been counted. -/
theorem Summary.update (h : Summary all data counted) (hfew : all.length + 1 < 2 ^ 64) :
    ∃ counted', Summary (all ++ [message]) (data.update message) counted' := by
  have hne : counted ≠ all ++ [message] := by
    intro heq
    have hle := h.counts.start.length_le
    simp [heq] at hle
  cases hmax : data.maxedOut with
  | true =>
    have hsame : data.update message = data := by rw [AggregatePerformanceData.update, if_pos hmax]
    rw [hsame]
    exact ⟨counted, h.counts.keep (.inl (h.frozen.mp hmax)), h.runs, h.time, h.computation,
      by simp [hmax, hne]⟩
  | false =>
    obtain rfl : counted = all := by
      by_contra hc
      simp [h.frozen.mpr hc] at hmax
    have htime : timeOf (counted ++ [message]) = data.totalExecutionTime + message.executionTime := by
      simp [h.time, timeOf]
    have hcomp : computationOf (counted ++ [message]) =
        data.totalComputationUsed + message.computationUsed := by
      simp [h.computation, computationOf]
    rw [update_eq hmax, ← htime, ← hcomp]
    split_ifs with hfits
    · refine ⟨counted ++ [message], .whole (by simp) hfits, ?_, rfl, rfl, by simp⟩
      have hruns := h.runs
      simp only [List.length_append, List.length_singleton]
      omega
    · exact ⟨counted, h.counts.keep (.inr hfits), h.runs, h.time, h.computation, by simp⟩

end sums

section loop

/-- The messages that come before the sending end is disconnected. -/
def arrived : List Event → List ModulePerformanceMetadata
  | [] => []
  | .received message :: events => message :: arrived events
  | .timeout :: events => arrived events
  | .disconnected :: _ => []

def messagesOf (module : String) (events : List Event) : List ModulePerformanceMetadata :=
  (arrived events).filter fun message => message.module = module

theorem performanceMonitoringLoop_some {aggregates result : Aggregates} {events : List Event}
    (h : performanceMonitoringLoop aggregates events = some result) :
    result = (arrived events).foldl record aggregates := by
  induction events generalizing aggregates with
  | nil => cases h
  | cons event events ih =>
    cases event with
    | received message => exact ih h
    | timeout => exact ih h
    | disconnected =>
      cases h
      rfl

/-- Every module with a message has an entry, which accounts for its messages. -/
theorem lookup_foldl_record (l : List ModulePerformanceMetadata) (hfew : l.length < 2 ^ 64)
    (module : String) :
    match (l.foldl record ∅).lookup module with
    | none => l.filter (fun message => message.module = module) = []
    | some data => ∃ counted, Summary (l.filter fun message => message.module = module) data counted := by
  induction l using List.reverseRecOn with
  | nil => rfl
  | append_singleton l message ih =>
    rw [List.length_append, List.length_singleton] at hfew
    have hold := ih (by omega)
    rw [List.foldl_append, List.filter_append]
    simp only [List.foldl_cons, List.foldl_nil]
    rw [record, lookup_insert_if]
    by_cases hm : module = message.module
    · subst hm
      simp only [if_true, decide_true, List.filter_cons_of_pos, List.filter_nil]
      cases hl : (l.foldl record ∅).lookup message.module with
      | none =>
        simp only [hl] at hold
        rw [hold, List.nil_append]
        exact ⟨_, summary_new message⟩
      | some data =>
        simp only [hl] at hold
        obtain ⟨counted, hsummary⟩ := hold
        have hlen := List.length_filter_le (fun m => decide (m.module = message.module)) l
        exact hsummary.update (by omega)
    · have hnot : (decide (message.module = module)) = false := by simpa using Ne.symm hm
      simp only [hm, if_false, List.filter_cons, hnot, Bool.false_eq_true, List.filter_nil,
        List.append_nil]
      exact hold

/-- What is written when the sending end has gone: every module that was measured, once, with the
number and the averages of the longest run of measurements from the start whose sums fit. -/
theorem report_accounts {events : List Event} {aggregates : Aggregates}
    (h : performanceMonitoringLoop ∅ events = some aggregates)
    (hfew : (arrived events).length < 2 ^ 64) :
    (∀ module, module ∈ aggregates.keys ↔ messagesOf module events ≠ []) ∧
    ∃ counted : String → List ModulePerformanceMetadata,
      (∀ module ∈ aggregates.keys, Counted (messagesOf module events) (counted module)) ∧
      generateReport aggregates = some ("Performance Report:\n" ::
        aggregates.keys.flatMap fun module => moduleLines module (counted module).length
          (computationOf (counted module) / (counted module).length)
          (timeOf (counted module) / (counted module).length)) := by
  have hagg := performanceMonitoringLoop_some h
  have hlookup := lookup_foldl_record (arrived events) hfew
  rw [← hagg] at hlookup
  have hsummary : ∀ module, ∃ counted, ∀ data, aggregates.lookup module = some data →
      Summary (messagesOf module events) data counted := by
    intro module
    cases hl : aggregates.lookup module with
    | none => exact ⟨[], fun data hd => by cases hd⟩
    | some data =>
      have hthis := hlookup module
      simp only [hl] at hthis
      obtain ⟨counted, hs⟩ := hthis
      exact ⟨counted, fun _ hd => by cases hd; exact hs⟩
  choose counted hcounted using hsummary
  have hkeys : ∀ module ∈ aggregates.keys, ∃ data, aggregates.lookup module = some data := fun module hm =>
    Option.isSome_iff_exists.mp (AList.lookup_isSome.mpr hm)
  refine ⟨fun module => ⟨fun hm => ?_, fun hm => ?_⟩, counted, fun module hm => ?_, ?_⟩
  · obtain ⟨data, hd⟩ := hkeys module hm
    have hs := (hcounted module data hd).counts
    intro hnil
    rw [hnil] at hs
    exact hs.nonempty (List.prefix_nil.mp hs.start)
  · by_contra hnot
    have hthis := hlookup module
    simp only [AList.lookup_eq_none.mpr hnot] at hthis
    exact hm hthis
  · obtain ⟨data, hd⟩ := hkeys module hm
    exact (hcounted module data hd).counts
  · have hentry : ∀ e ∈ pairs aggregates, Summary (messagesOf e.1 events) e.2 (counted e.1) :=
      fun e he => hcounted e.1 e.2 (mem_pairs.mp he)
    have hlines := mapM_some_of_mem (f := fun e : String × AggregatePerformanceData =>
        if e.2.runs = 0 then none
        else some (moduleLines e.1 e.2.runs (e.2.totalComputationUsed / e.2.runs)
          (e.2.totalExecutionTime / e.2.runs)))
      (g := fun e => moduleLines e.1 (counted e.1).length
        (computationOf (counted e.1) / (counted e.1).length)
        (timeOf (counted e.1) / (counted e.1).length)) (l := pairs aggregates) fun e he => by
      have hs := hentry e he
      have hpos := List.length_pos_iff.mpr hs.counts.nonempty
      rw [hs.runs, hs.time, hs.computation, if_neg (by omega)]
    rw [generateReport, hlines, Option.map_some, ← pairs_keys, List.flatMap_map]
    rfl

def heavyRun : ModulePerformanceMetadata := ⟨"heavy.wasm", 900, 2 ^ 63, by decide, by decide⟩

def smallRun : ModulePerformanceMetadata := ⟨"heavy.wasm", 3, 1, by decide, by decide⟩

def quickRun (time : ℕ) (h : time < 2 ^ 128) : ModulePerformanceMetadata :=
  ⟨"quick.wasm", time, 7, h, by decide⟩

/-- The second run of `heavy.wasm` does not fit, and the small one after it is not counted either. -/
def measured : List Event :=
  [.received heavyRun, .received (quickRun 20 (by decide)), .timeout, .received heavyRun,
    .received smallRun, .received (quickRun 31 (by decide)), .disconnected]

theorem report_accounts_sample :
    ∃ aggregates, performanceMonitoringLoop ∅ measured = some aggregates ∧
      generateReport aggregates = some ("Performance Report:\n" ::
        (moduleLines "quick.wasm" 2 7 25 ++ moduleLines "heavy.wasm" 1 (2 ^ 63) 900)) := by
  obtain ⟨-, counted, hcounted, hreport⟩ := @report_accounts measured _ rfl (by decide)
  have hquick := (hcounted "quick.wasm" (by decide)).unique (.whole (by decide) (by decide))
  have hfrozen : Counted ([heavyRun] ++ [heavyRun] ++ [smallRun]) [heavyRun] :=
    ((Counted.whole (by decide) (by decide)).keep (.inr (by decide))).keep (.inl (by decide))
  have hheavy := (hcounted "heavy.wasm" (by decide)).unique hfrozen
  refine ⟨_, rfl, hreport.trans (congrArg (fun lines => some (_ :: lines)) ?_)⟩
  trans ["quick.wasm", "heavy.wasm"].flatMap fun module => moduleLines module (counted module).length
    (computationOf (counted module) / (counted module).length)
    (timeOf (counted module) / (counted module).length)
  · rfl
  · rw [List.flatMap_cons, List.flatMap_singleton, hquick, hheavy]
    rfl

end loop

end PlaidRuntime.PerformanceReport
