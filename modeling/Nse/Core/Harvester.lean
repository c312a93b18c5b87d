/-
  Nse.Core.Harvester — the attributes of a `TraceHarvester` and the methods that neither
  wait nor touch a process (`nse/core/trace_harvester.py`).
-/

import Mathlib.Data.List.Induction
import Nse.Core.TraceParser

namespace Nse

inductive HarvestState where
  | notStarted
  | running
  /-- Stdout closed after a stop was requested. -/
  | stopped
  /-- Stdout closed although nobody asked for it. -/
  | cleanEof
  | timeout
  /-- The read loop raised. -/
  | error
  deriving DecidableEq, Repr

structure Harvester where
  state : HarvestState := .notStarted
  /-- `repr` of the exception that ended the read loop. -/
  error : Option String := none
  ready : Bool := false
  eventSignal : Bool := false
  stopRequested : Bool := false
  deadline : Nat := 0
  /-- In first-seen order. -/
  seenTraceIds : List String := []
  unparsedTraceLines : Nat := 0
  unparsedOtherLines : Nat := 0
  unparsedSamples : List String := []
  deriving DecidableEq, Repr

namespace Harvester

def maxUnparsedSamples : Nat := 5

def armEventSignal (h : Harvester) : Harvester := { h with eventSignal := false }

def extendDeadline (now seconds : Nat) (h : Harvester) : Harvester :=
  { h with deadline := max h.deadline (now + seconds) }

/-- What `start` resets before it launches the monitor. -/
def reset (h : Harvester) : Harvester :=
  { h with ready := false, eventSignal := false, stopRequested := false, error := none }

/-- The end of `start`: the monitor runs and the read loop is scheduled. -/
def launched (now timeout : Nat) (h : Harvester) : Harvester := { h with state := .running, deadline := now + timeout }

def countUnparsed [PyStr.Unicode] (line : String) (h : Harvester) : Harvester :=
  if (TraceParser.traceLineRe.match line).isSome then { h with unparsedTraceLines := h.unparsedTraceLines + 1 }
  else { h with unparsedOtherLines := h.unparsedOtherLines + 1 }

def keepSample (line : String) (h : Harvester) : Harvester :=
  if h.unparsedSamples.length < maxUnparsedSamples then { h with unparsedSamples := h.unparsedSamples ++ [line] } else h

def recordUnparsed [PyStr.Unicode] (line : String) (h : Harvester) : Harvester := (h.countUnparsed line).keepSample line

/-- An event's id, recorded the first time it is seen. -/
def recordId (e : TraceEvent) (h : Harvester) : Harvester :=
  match e.traceId with
  | some id => if id = "" ∨ id ∈ h.seenTraceIds then h else { h with seenTraceIds := h.seenTraceIds ++ [id] }
  | none => h

/-- The read loop's `if self.state is HarvestState.RUNNING: self.state = …`. -/
def endAs (st : HarvestState) (h : Harvester) : Harvester := if h.state = .running then { h with state := st } else h

def healthErrors [U : PyStr.Unicode] (h : Harvester) : List String :=
  let problems := match h.state with
    | .timeout => ["trace monitor timed out while still running: the verdict stream is truncated"]
    | .cleanEof =>
      ["trace monitor exited on its own before the run finished " ++
        "(is `nft monitor trace` available inside the namespace?)"]
    | .error => ["trace read loop crashed: " ++ h.error.getD "None"]
    | .notStarted => ["trace monitor was never started"]
    | .running | .stopped => []
  if h.unparsedTraceLines ≠ 0 then
    problems ++ [toString h.unparsedTraceLines ++ " trace line(s) could not be parsed - the " ++
      "parser does not understand this nftables/kernel output: " ++
      PyStr.join "; " ((h.unparsedSamples.take 3).map U.repr)]
  else problems

/-! ## Basics -/

section

variable (h : Harvester)

@[simp] theorem armEventSignal_seen : h.armEventSignal.seenTraceIds = h.seenTraceIds := rfl
@[simp] theorem armEventSignal_state : h.armEventSignal.state = h.state := rfl
@[simp] theorem armEventSignal_signal : h.armEventSignal.eventSignal = false := rfl
@[simp] theorem armEventSignal_stop : h.armEventSignal.stopRequested = h.stopRequested := rfl
@[simp] theorem armEventSignal_unparsed : h.armEventSignal.unparsedTraceLines = h.unparsedTraceLines := rfl
@[simp] theorem extendDeadline_seen (n d : Nat) : (h.extendDeadline n d).seenTraceIds = h.seenTraceIds := rfl
@[simp] theorem extendDeadline_state (n d : Nat) : (h.extendDeadline n d).state = h.state := rfl
@[simp] theorem extendDeadline_signal (n d : Nat) : (h.extendDeadline n d).eventSignal = h.eventSignal := rfl
@[simp] theorem extendDeadline_stop (n d : Nat) : (h.extendDeadline n d).stopRequested = h.stopRequested := rfl
@[simp] theorem endAs_seen (st : HarvestState) : (h.endAs st).seenTraceIds = h.seenTraceIds := by
  unfold endAs; split <;> rfl
@[simp] theorem endAs_signal (st : HarvestState) : (h.endAs st).eventSignal = h.eventSignal := by
  unfold endAs; split <;> rfl
@[simp] theorem endAs_stop (st : HarvestState) : (h.endAs st).stopRequested = h.stopRequested := by
  unfold endAs; split <;> rfl
@[simp] theorem recordUnparsed_seen [PyStr.Unicode] (l : String) :
    (h.recordUnparsed l).seenTraceIds = h.seenTraceIds := by
  unfold recordUnparsed countUnparsed keepSample; split <;> split <;> rfl
@[simp] theorem recordUnparsed_state [PyStr.Unicode] (l : String) : (h.recordUnparsed l).state = h.state := by
  unfold recordUnparsed countUnparsed keepSample; split <;> split <;> rfl
@[simp] theorem recordUnparsed_signal [PyStr.Unicode] (l : String) :
    (h.recordUnparsed l).eventSignal = h.eventSignal := by
  unfold recordUnparsed countUnparsed keepSample; split <;> split <;> rfl
@[simp] theorem recordUnparsed_stop [PyStr.Unicode] (l : String) :
    (h.recordUnparsed l).stopRequested = h.stopRequested := by
  unfold recordUnparsed countUnparsed keepSample; split <;> split <;> rfl
@[simp] theorem recordUnparsed_deadline [PyStr.Unicode] (l : String) : (h.recordUnparsed l).deadline = h.deadline := by
  unfold recordUnparsed countUnparsed keepSample; split <;> split <;> rfl
@[simp] theorem recordId_state (e : TraceEvent) : (h.recordId e).state = h.state := by
  unfold recordId; split <;> (try split) <;> rfl
@[simp] theorem recordId_deadline (e : TraceEvent) : (h.recordId e).deadline = h.deadline := by
  unfold recordId; split <;> (try split) <;> rfl
@[simp] theorem recordId_signal (e : TraceEvent) : (h.recordId e).eventSignal = h.eventSignal := by
  unfold recordId; split <;> (try split) <;> rfl
@[simp] theorem recordId_stop (e : TraceEvent) : (h.recordId e).stopRequested = h.stopRequested := by
  unfold recordId; split <;> (try split) <;> rfl

theorem recordId_counts (e : TraceEvent) : (h.recordId e).unparsedTraceLines = h.unparsedTraceLines ∧
    (h.recordId e).unparsedOtherLines = h.unparsedOtherLines ∧ (h.recordId e).unparsedSamples = h.unparsedSamples := by
  unfold recordId
  split
  · split <;> exact ⟨rfl, rfl, rfl⟩
  · exact ⟨rfl, rfl, rfl⟩

end

/-- A harvester with no health errors and no loop left running was stopped on request
    and understood every line. -/
theorem healthErrors_nil [PyStr.Unicode] {h : Harvester} (hh : h.healthErrors = []) (hr : h.state ≠ .running) :
    h.state = .stopped ∧ h.unparsedTraceLines = 0 := by
  unfold healthErrors at hh
  by_cases hu : h.unparsedTraceLines = 0
  · refine ⟨?_, hu⟩
    cases hst : h.state <;> simp_all
  · simp [hu] at hh

/-- A loop that ended early has something to complain about. -/
theorem healthErrors_ne_nil [PyStr.Unicode] {h : Harvester}
    (hst : h.state = .timeout ∨ h.state = .cleanEof ∨ h.state = .error) : h.healthErrors ≠ [] := by
  intro hnil
  have hrunning : h.state ≠ .running := by rcases hst with hst | hst | hst <;> rw [hst] <;> exact nofun
  have hstopped := (healthErrors_nil hnil hrunning).1
  rcases hst with hst | hst | hst <;> rw [hst] at hstopped <;> cases hstopped

theorem healthErrors_length [PyStr.Unicode] (h : Harvester) : h.healthErrors.length ≤ 2 := by
  unfold healthErrors
  cases h.state <;> by_cases hu : h.unparsedTraceLines = 0 <;> simp [hu]

/-- An event's id joins the ids seen, if it has one. -/
theorem mem_recordId_iff (e : TraceEvent) (h : Harvester) (id : String) :
    id ∈ (h.recordId e).seenTraceIds ↔ id ∈ h.seenTraceIds ∨ (id ≠ "" ∧ e.traceId = some id) := by
  unfold recordId
  split
  · rename_i id' he
    simp only [he, Option.some.injEq]
    split
    · rename_i hc
      refine ⟨.inl, ?_⟩
      rintro (hm | ⟨hne, rfl⟩)
      · exact hm
      · exact hc.resolve_left hne
    · rename_i hc
      simp only [List.mem_append, List.mem_singleton]
      refine or_congr_right ⟨?_, fun h => h.2.symm⟩
      rintro rfl
      exact ⟨fun hne => hc (.inl hne), rfl⟩
  · rename_i he
    simp [he]

theorem nodup_recordId (e : TraceEvent) {h : Harvester} (hn : h.seenTraceIds.Nodup) :
    (h.recordId e).seenTraceIds.Nodup := by
  unfold recordId
  split
  · split
    · exact hn
    · rename_i id _ hc
      refine List.nodup_append.mpr ⟨hn, by simp, ?_⟩
      rintro a ha b hb rfl
      exact hc (.inr (List.mem_singleton.mp hb ▸ ha))
  · exact hn

end Harvester

theorem eraseDups_snoc (xs : List String) (x : String) :
    (xs ++ [x]).eraseDups = if x ∈ xs then xs.eraseDups else xs.eraseDups ++ [x] := by
  rw [List.eraseDups_append]
  by_cases hx : x ∈ xs <;> simp [hx, List.removeAll, List.eraseDups_cons]

theorem eraseDups_nodup (xs : List String) : xs.eraseDups.Nodup := by
  induction xs using List.reverseRecOn with
  | nil => simp
  | append_singleton xs x ih =>
    rw [eraseDups_snoc]
    split
    · exact ih
    · rename_i hx
      refine List.nodup_append.mpr ⟨ih, by simp, ?_⟩
      intro y hy z hz hyz
      rw [List.mem_singleton.mp hz] at hyz
      exact hx (List.mem_eraseDups.mp (hyz ▸ hy))

namespace Harvester

/-- An id that is recorded joins the distinct ids, if it is new. -/
theorem recordId_seen {e : TraceEvent} {h : Harvester} {id : String} {ids : List String} (he : e.traceId = some id)
    (hne : id ≠ "") (hids : h.seenTraceIds = ids.eraseDups) :
      (h.recordId e).seenTraceIds = (ids ++ [id]).eraseDups := by
  have hmem : id ∈ h.seenTraceIds ↔ id ∈ ids := by
    rw [hids]
    exact List.mem_eraseDups
  rw [eraseDups_snoc, ← hids]
  unfold recordId
  rw [he]
  by_cases hin : id ∈ ids
  · simp [hin, hmem]
  · simp [hin, hmem, hne]

/-- The ids seen only grow at their end. -/
theorem seen_prefix_recordId (e : TraceEvent) (h : Harvester) : h.seenTraceIds <+: (h.recordId e).seenTraceIds := by
  unfold recordId
  split
  · split
    · exact List.prefix_rfl
    · exact List.prefix_append _ _
  · exact List.prefix_rfl

end Harvester

end Nse
