/-
  Nse.Cli.Reduction — `reduce_verdicts`, one trace id at a time.

  The reducer's fold keeps one row for each id, in first-seen order, with the verdicts the
  user's tables gave it (`reduced`). So its result is the ids in that order, each with what
  its own events decide (`reduceVerdicts_eq`), and the events of one id alone reduce to
  what they decide in the whole stream (`reduceVerdicts_filter`).
-/

import Mathlib.Data.List.Basic
import Nse.Cli.RunnerProofs

namespace Nse.Runner

variable [U : PyStr.Unicode]

/-! ## What counts for an id -/

/-- The event is counted for this id. -/
def carries (id : String) (e : TraceEvent) : Bool := e.type != .error && e.hasId id

/-- The verdict taken from an event. -/
def usedVerdict (e : TraceEvent) : Option String :=
  if reaches e then (e.verdict.filter (· ≠ "")).map PyStr.upper else none

/-- Some event took this id to the user's ruleset. -/
def reached (events : List TraceEvent) (id : String) : Bool := events.any fun e => carries id e && reaches e

/-- The verdicts of one id. -/
def verdictsOf (events : List TraceEvent) (id : String) : List String :=
  (events.filter (carries id)).filterMap usedVerdict

/-- What the events of one id decide. -/
def verdictFor (events : List TraceEvent) (id : String) : Option String :=
  if reached events id then decideVerdict (verdictsOf events id) else none

/-- The ids in first-seen order. -/
def idsSeen (events : List TraceEvent) : List String := (events.foldl reduceEvent {}).verdicts.map (·.1)

section Carries

omit U

variable {id id' : String} {e : TraceEvent} {events : List TraceEvent}

theorem carries_iff : carries id e = true ↔ e.type ≠ .error ∧ id ≠ "" ∧ e.traceId = some id := by
  simp [carries, TraceEvent.hasId]

theorem carries_unique (h : carries id e = true) (h' : carries id' e = true) : id' = id := by
  have := (carries_iff.mp h).2.2.symm.trans (carries_iff.mp h').2.2
  exact (Option.some.inj this).symm

theorem reached_iff : reached events id = true ↔ ∃ e ∈ events, carries id e = true ∧ reaches e = true := by
  simp [reached]

end Carries

/-! ## One event -/

section Step

variable {r : Reduction} {id : String} {e : TraceEvent}

theorem reduceEvent_skip (h : ∀ id, carries id e = false) : reduceEvent r e = r := by
  unfold reduceEvent
  split
  · rfl
  · rename_i id hid
    have hnot := h id
    rw [carries, TraceEvent.hasId, hid] at hnot
    by_cases hskip : e.type = .error ∨ id = ""
    · rw [if_pos hskip]
    · simp only [not_or] at hskip
      simp [hskip.1, hskip.2] at hnot

/-- A counted event opens its id's row and adds its verdict to it. -/
theorem reduceEvent_carries (h : carries id e = true) :
    (reduceEvent r e).verdicts =
        (r.open id).verdicts.map (fun row => if row.1 = id then (row.1, row.2 ++ (usedVerdict e).toList) else row) ∧
      (reduceEvent r e).reached = if reaches e then id :: r.reached else r.reached := by
  obtain ⟨htype, hne, hid⟩ := carries_iff.mp h
  have hsame : ∀ rows : List (String × List String),
      rows.map (fun row => if row.1 = id then (row.1, row.2 ++ []) else row) = rows := by
    intro rows
    refine (List.map_congr_left fun row _ => ?_).trans (List.map_id _)
    split <;> simp
  have hopen : (r.open id).reached = r.reached := by
    unfold Reduction.open
    split <;> rfl
  unfold reduceEvent usedVerdict
  simp only [hid, htype, hne, or_self, if_false]
  by_cases hr : reaches e = true
  · simp only [hr, if_true]
    cases hv : e.verdict with
    | none => exact ⟨(hsame _).symm, by simp [hopen]⟩
    | some v =>
      by_cases hempty : v = ""
      · simp [hempty, Option.filter, hopen]
      · simp [hempty, Option.filter, Reduction.append, hopen]
  · simp only [hr, Bool.false_eq_true, if_false]
    exact ⟨(hsame _).symm, hopen⟩

/-- The ids of the rows after it. -/
theorem reduceEvent_keys (h : carries id e = true) :
    (reduceEvent r e).verdicts.map (·.1) = (r.open id).verdicts.map (·.1) := by
  rw [(reduceEvent_carries h).1, List.map_map]
  refine List.map_congr_left fun row _ => ?_
  simp only [Function.comp_apply]
  split <;> rfl

end Step

/-! ## The whole stream -/

/-- The reducer's locals after these events. -/
structure Reduced (events : List TraceEvent) (r : Reduction) : Prop where
  nodup : (r.verdicts.map (·.1)).Nodup
  seen : ∀ id, id ∈ r.verdicts.map (·.1) ↔ ∃ e ∈ events, carries id e = true
  verdicts : ∀ row ∈ r.verdicts, row.2 = verdictsOf events row.1
  reached : ∀ id, id ∈ r.reached ↔ reached events id = true

section Reduced

variable {events : List TraceEvent} {r : Reduction} {e : TraceEvent} {id : String}

theorem verdictsOf_append (e : TraceEvent) (id : String) :
    verdictsOf (events ++ [e]) id = verdictsOf events id ++ if carries id e then (usedVerdict e).toList else [] := by
  unfold verdictsOf
  rw [List.filter_append, List.filterMap_append]
  congr 1
  by_cases hc : carries id e = true
  · cases hu : usedVerdict e <;> simp [hc, hu]
  · simp [hc]

omit U in
theorem reached_append (e : TraceEvent) (id : String) :
    reached (events ++ [e]) id = (reached events id || (carries id e && reaches e)) := by
  simp [reached]

/-- An id that was not seen has no verdict. -/
theorem verdictsOf_unseen (h : ¬∃ e ∈ events, carries id e = true) : verdictsOf events id = [] := by
  have hnone : events.filter (carries id) = [] := List.filter_eq_nil_iff.mpr fun e he hc => h ⟨e, he, hc⟩
  rw [verdictsOf, hnone, List.filterMap_nil]

/-- Opening a row for the id of the next event. -/
theorem Reduced.open (h : Reduced events r) (id : String) :
    ((r.open id).verdicts.map (·.1)).Nodup ∧
      (∀ id', id' ∈ (r.open id).verdicts.map (·.1) ↔ id' = id ∨ ∃ e ∈ events, carries id' e = true) ∧
      ∀ row ∈ (r.open id).verdicts, row.2 = verdictsOf events row.1 := by
  unfold Reduction.open
  by_cases hmem : id ∈ r.verdicts.map (·.1)
  · rw [if_pos hmem]
    refine ⟨h.nodup, fun id' => ?_, h.verdicts⟩
    rw [h.seen]
    refine ⟨.inr, ?_⟩
    rintro (rfl | hseen)
    · exact (h.seen _).mp hmem
    · exact hseen
  · rw [if_neg hmem]
    refine ⟨?_, fun id' => ?_, fun row hrow => ?_⟩
    · rw [List.map_append]
      refine List.nodup_append.mpr ⟨h.nodup, by simp, fun x hx y hy => ?_⟩
      rw [List.map_singleton, List.mem_singleton] at hy
      rintro rfl
      have hid : x = id := hy
      exact hmem (hid ▸ hx)
    · rw [List.map_append, List.mem_append, h.seen, or_comm]
      simp
    · rcases List.mem_append.mp hrow with hrow | hrow
      · exact h.verdicts row hrow
      · rw [List.mem_singleton.mp hrow]
        exact (verdictsOf_unseen fun hseen => hmem ((h.seen id).mpr hseen)).symm

theorem Reduced.step (h : Reduced events r) (e : TraceEvent) : Reduced (events ++ [e]) (reduceEvent r e) := by
  by_cases hc : ∃ id, carries id e = true
  · obtain ⟨id, hc⟩ := hc
    have hother : ∀ {id'}, id' ≠ id → carries id' e = false := fun hne =>
      Bool.eq_false_iff.mpr fun hc' => hne (carries_unique hc hc')
    obtain ⟨hverdicts, hreached⟩ := reduceEvent_carries (r := r) hc
    obtain ⟨hnodup, hseen, hrows⟩ := h.open id
    have hkeys := reduceEvent_keys (r := r) hc
    refine ⟨hkeys ▸ hnodup, fun id' => ?_, fun row hrow => ?_, fun id' => ?_⟩
    · rw [hkeys, hseen]
      by_cases hid : id' = id
      · subst hid
        simp [hc]
      · simp [hid, hother hid]
    · rw [hverdicts] at hrow
      obtain ⟨row', hrow', rfl⟩ := List.mem_map.mp hrow
      by_cases hid : row'.1 = id
      · simp only [hid, if_true]
        rw [verdictsOf_append, if_pos hc, hrows row' hrow', hid]
      · simp only [hid, if_false]
        rw [verdictsOf_append, if_neg (by simp [hother hid]), List.append_nil, hrows row' hrow']
    · rw [hreached, reached_append, Bool.or_eq_true, ← h.reached]
      by_cases hid : id' = id
      · subst hid
        by_cases hr : reaches e = true <;> simp [hr, hc]
      · by_cases hr : reaches e = true <;> simp [hr, hid, hother hid]
  · have hnone : ∀ id, carries id e = false := fun id => Bool.eq_false_iff.mpr fun h => hc ⟨id, h⟩
    rw [reduceEvent_skip hnone]
    refine ⟨h.nodup, fun id => ?_, fun row hrow => ?_, fun id => ?_⟩
    · simp [h.seen, hnone]
    · rw [verdictsOf_append, if_neg (by simp [hnone]), List.append_nil]
      exact h.verdicts row hrow
    · rw [reached_append, hnone, Bool.false_and, Bool.or_false]
      exact h.reached id

theorem Reduced.run (h : Reduced events r) (more : List TraceEvent) :
    Reduced (events ++ more) (more.foldl reduceEvent r) := by
  induction more generalizing events r with
  | nil => simpa using h
  | cons e more ih =>
    have := ih (h.step e)
    rwa [List.append_assoc] at this

theorem reduced (events : List TraceEvent) : Reduced events (events.foldl reduceEvent {}) := by
  have hinit : Reduced [] {} := ⟨List.nodup_nil, by simp, by simp, by simp [Runner.reached]⟩
  simpa using hinit.run events

theorem idsSeen_nodup (events : List TraceEvent) : (idsSeen events).Nodup := (reduced events).nodup

theorem mem_idsSeen : id ∈ idsSeen events ↔ ∃ e ∈ events, carries id e = true := (reduced events).seen id

/-- The ids in first-seen order, each with what its own events decide. -/
theorem reduceVerdicts_eq (events : List TraceEvent) :
    reduceVerdicts events = (idsSeen events).filterMap (verdictFor events) := by
  have hr := reduced events
  unfold reduceVerdicts idsSeen
  rw [List.filterMap_map]
  refine List.filterMap_congr fun row hrow => ?_
  rw [Reduction.verdict, Function.comp_apply, verdictFor, hr.verdicts row hrow]
  by_cases hreach : reached events row.1 = true
  · rw [if_pos hreach, if_pos ((hr.reached row.1).mpr hreach)]
  · rw [if_neg hreach, if_neg fun h => hreach ((hr.reached row.1).mp h)]

/-- What does not count for an id, or does not reach the user's ruleset, can be left out. -/
theorem verdictFor_filter {own : TraceEvent → Bool}
    (h : ∀ e ∈ events, carries id e = true → reaches e = true → own e = true) :
    verdictFor (events.filter own) id = verdictFor events id := by
  have hreached : reached (events.filter own) id = reached events id := by
    rw [Bool.eq_iff_iff, reached_iff, reached_iff]
    constructor
    · rintro ⟨e, he, hc⟩
      exact ⟨e, (List.mem_filter.mp he).1, hc⟩
    · rintro ⟨e, he, hc, hr⟩
      exact ⟨e, List.mem_filter.mpr ⟨he, h e he hc hr⟩, hc, hr⟩
  have hverdicts : ∀ es : List TraceEvent,
      (∀ e ∈ es, carries id e = true → reaches e = true → own e = true) →
        verdictsOf (es.filter own) id = verdictsOf es id := by
    intro es hes
    induction es with
    | nil => rfl
    | cons e es ih =>
      have hrest := ih fun e' he' => hes e' (List.mem_cons_of_mem _ he')
      by_cases hown : own e = true
      · unfold verdictsOf at hrest ⊢
        rw [List.filter_cons_of_pos hown]
        by_cases hc : carries id e = true
        · rw [List.filter_cons_of_pos hc, List.filter_cons_of_pos hc, List.filterMap_cons, List.filterMap_cons, hrest]
        · rw [List.filter_cons_of_neg hc, List.filter_cons_of_neg hc, hrest]
      · rw [List.filter_cons_of_neg hown, hrest]
        unfold verdictsOf
        by_cases hc : carries id e = true
        · have hunused : usedVerdict e = none := by
            rw [usedVerdict, if_neg fun hr => hown (hes e List.mem_cons_self hc hr)]
          rw [List.filter_cons_of_pos hc, List.filterMap_cons_none hunused]
        · rw [List.filter_cons_of_neg hc]
  rw [verdictFor, verdictFor, hreached, hverdicts events h]

/-- Events that all carry one id reduce to what they decide. -/
theorem reduceVerdicts_single (h : ∀ e ∈ events, ∀ id', carries id' e = true → id' = id) :
    reduceVerdicts events = (verdictFor events id).toList := by
  have hsub : ∀ id' ∈ idsSeen events, id' = id := by
    intro id' hid
    obtain ⟨e, he, hc⟩ := mem_idsSeen.mp hid
    exact h e he id' hc
  rw [reduceVerdicts_eq]
  cases hids : idsSeen events with
  | nil =>
    have hunseen : reached events id = false := by
      refine Bool.eq_false_iff.mpr fun hr => ?_
      obtain ⟨e, he, hc, -⟩ := reached_iff.mp hr
      have := mem_idsSeen.mpr ⟨e, he, hc⟩
      rw [hids] at this
      cases this
    simp [verdictFor, hunseen]
  | cons x xs =>
    have hnodup := idsSeen_nodup events
    rw [hids] at hsub hnodup
    have hx : x = id := hsub x List.mem_cons_self
    have hxs : xs = [] := by
      refine List.eq_nil_iff_forall_not_mem.mpr fun y hy => ?_
      have hy' : y = x := (hsub y (List.mem_cons_of_mem _ hy)).trans hx.symm
      exact (List.nodup_cons.mp hnodup).1 (hy' ▸ hy)
    subst hx hxs
    cases hv : verdictFor events x <;> simp [hv]

/-- The events of one id, alone, reduce to what they decide in the whole stream. -/
theorem reduceVerdicts_filter {own : TraceEvent → Bool}
    (hown : ∀ e ∈ events, own e = true → ∀ id', carries id' e = true → id' = id)
    (h : ∀ e ∈ events, carries id e = true → reaches e = true → own e = true) :
    reduceVerdicts (events.filter own) = (verdictFor events id).toList := by
  rw [reduceVerdicts_single fun e he => hown e (List.mem_filter.mp he).1 (List.mem_filter.mp he).2,
    verdictFor_filter h]

end Reduced

end Nse.Runner
