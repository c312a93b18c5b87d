/-
  Nse.Cli.ReductionSpec — what `reduce_verdicts` is for.

  `IsReduction` says which ids get an entry, in which order and with which verdict, without
  the reducer's locals. It has one solution (`IsReduction.unique`), and that is what the
  reducer returns (`isReduction`). So the result depends on the order of the events only
  through the order of the ids' first events (`entries_perm`), it only grows or turns to
  DROP when events are appended (`entries_append`), and deleting the events of some ids
  deletes their entries (`entries_delete`).
-/

import Mathlib.Data.List.Induction
import Nse.Cli.Reduction
import Nse.Core.Pipeline

namespace Nse.Runner

variable [U : PyStr.Unicode]

/-! ## The specification -/

/-- The event says this word about this id, in any letter case, in a table of the user's. -/
structure Says (id word : String) (e : TraceEvent) : Prop where
  type : e.type ≠ .error
  ne : id ≠ ""
  traceId : e.traceId = some id
  table : ∃ t, e.table = some t ∧ t ≠ "" ∧ t ≠ "nse_trace"
  verdict : ∃ v, e.verdict = some v ∧ PyStr.upper v = word

/-- Some event does. -/
def Said (events : List TraceEvent) (id word : String) : Prop := ∃ e ∈ events, Says id word e

/-- The id an event is counted for. -/
def countedId (e : TraceEvent) : Option String := if e.type = .error then none else e.traceId.filter (· ≠ "")

/-- The distinct ids, in the order of their first events. -/
def firstIds (events : List TraceEvent) : List String := (events.filterMap countedId).eraseDups

/-- One entry, an id and its verdict, for each id with a verdict. -/
structure IsReduction (events : List TraceEvent) (entries : List (String × String)) : Prop where
  order : (entries.map (·.1)).Sublist (firstIds events)
  ids : ∀ id, id ∈ entries.map (·.1) ↔ Said events id "ACCEPT" ∨ Said events id "DROP" ∨ Said events id "REJECT"
  denied : ∀ id v, (id, v) ∈ entries → Said events id "DROP" ∨ Said events id "REJECT" → v = "DROP"
  accepted : ∀ id v, (id, v) ∈ entries → ¬(Said events id "DROP" ∨ Said events id "REJECT") → v = "ACCEPT"

/-- The events without those of some ids. -/
def deleteIds (gone : String → Bool) (events : List TraceEvent) : List TraceEvent :=
  events.filter fun e => !e.traceId.any fun id => id != "" && gone id

/-- The list `_without_canaries` returns. -/
def withoutCanaries (events : List TraceEvent) (canaryIds : List String) : List TraceEvent :=
  match Pipeline.withoutCanaries events canaryIds with
  | .fresh list => list
  | .collected => events

/-- What the reducer returns, each verdict with its id. -/
def entries (events : List TraceEvent) : List (String × String) :=
  (idsSeen events).filterMap fun id => (verdictFor events id).map (Prod.mk id)

/-! ## The ids -/

section Ids

variable {events : List TraceEvent} {e : TraceEvent} {id : String}

omit U in
theorem countedId_iff : countedId e = some id ↔ carries id e = true := by
  rw [carries_iff, countedId]
  by_cases ht : e.type = .error
  · simp [ht]
  · rw [if_neg ht, Option.filter_eq_some_iff, decide_eq_true_iff]
    constructor
    · rintro ⟨hid, hne⟩
      exact ⟨ht, hne, hid⟩
    · rintro ⟨-, hne, hid⟩
      exact ⟨hid, hne⟩

omit U in
theorem open_keys (r : Reduction) (id : String) : (r.open id).verdicts.map (·.1) =
    if id ∈ r.verdicts.map (·.1) then r.verdicts.map (·.1) else r.verdicts.map (·.1) ++ [id] := by
  unfold Reduction.open
  split <;> simp

/-- The reducer keeps the ids in the order of their first events. -/
theorem idsSeen_eq (events : List TraceEvent) : idsSeen events = firstIds events := by
  induction events using List.reverseRecOn with
  | nil => rfl
  | append_singleton events e ih =>
    have hfold : idsSeen (events ++ [e]) = (reduceEvent (events.foldl reduceEvent {}) e).verdicts.map (·.1) := by
      simp [idsSeen]
    rw [hfold, firstIds, List.filterMap_append]
    cases hc : countedId e with
    | none =>
      have hskip : ∀ id, carries id e = false := by
        intro id
        cases hid : carries id e with
        | false => rfl
        | true =>
          rw [← countedId_iff, hc] at hid
          cases hid
      rw [reduceEvent_skip hskip, List.filterMap_cons_none hc]
      exact ih.trans (by simp [firstIds])
    | some id =>
      rw [reduceEvent_keys (countedId_iff.mp hc), List.filterMap_cons_some hc, List.filterMap_nil, eraseDups_snoc]
      have hkeys : (events.foldl reduceEvent {}).verdicts.map (·.1) = (events.filterMap countedId).eraseDups := ih
      rw [open_keys, hkeys]
      simp only [List.mem_eraseDups]

omit U in
theorem firstIds_nodup (events : List TraceEvent) : (firstIds events).Nodup := eraseDups_nodup _

end Ids

/-! ## The words -/

section Words

variable {events : List TraceEvent} {e : TraceEvent} {id word : String}

theorem says_iff (hword : word ≠ "") : Says id word e ↔ carries id e = true ∧ usedVerdict e = some word := by
  have hupper : PyStr.upper "" = "" := PyStr.upper_of_ascii rfl
  have hreaches : reaches e = true ↔ ∃ t, e.table = some t ∧ t ≠ "" ∧ t ≠ "nse_trace" := by
    simp [reaches, Option.any_eq_true, scaffoldTable]
  rw [carries_iff, usedVerdict]
  constructor
  · rintro ⟨htype, hne, hid, htable, v, hv, rfl⟩
    refine ⟨⟨htype, hne, hid⟩, ?_⟩
    have hv' : v ≠ "" := by
      rintro rfl
      exact hword hupper
    simp [hreaches.mpr htable, hv, hv', Option.filter]
  · rintro ⟨⟨htype, hne, hid⟩, hused⟩
    split at hused
    · rename_i hr
      obtain ⟨v, hv, rfl⟩ := Option.map_eq_some_iff.mp hused
      exact ⟨htype, hne, hid, hreaches.mp hr, v, (Option.filter_eq_some_iff.mp hv).1, rfl⟩
    · cases hused

theorem said_iff (hword : word ≠ "") : Said events id word ↔ word ∈ verdictsOf events id := by
  simp only [Said, verdictsOf, List.mem_filterMap, List.mem_filter, says_iff hword, and_assoc]

/-- An id that did not reach the user's ruleset has no verdicts either. -/
theorem verdictFor_eq : verdictFor events id = decideVerdict (verdictsOf events id) := by
  unfold verdictFor
  split
  · rfl
  · rename_i hr
    have hnone : verdictsOf events id = [] := by
      refine List.eq_nil_iff_forall_not_mem.mpr ?_
      intro v hv
      obtain ⟨e, he, hv⟩ := List.mem_filterMap.mp hv
      obtain ⟨he, hc⟩ := List.mem_filter.mp he
      unfold usedVerdict at hv
      split at hv
      · rename_i hreach
        exact hr (reached_iff.mpr ⟨e, he, hc, hreach⟩)
      · cases hv
    rw [hnone]
    rfl

/-- DROP, where some event says DROP or REJECT; else ACCEPT, where some event says so. -/
theorem verdictFor_iff {v : String} : verdictFor events id = some v ↔
    (Said events id "DROP" ∨ Said events id "REJECT") ∧ v = "DROP" ∨
      ¬(Said events id "DROP" ∨ Said events id "REJECT") ∧ Said events id "ACCEPT" ∧ v = "ACCEPT" := by
  rw [verdictFor_eq, said_iff (by decide), said_iff (by decide), said_iff (by decide), decideVerdict]
  have hdenied : ((verdictsOf events id).any fun v => v == "DROP" || v == "REJECT") = true ↔
      "DROP" ∈ verdictsOf events id ∨ "REJECT" ∈ verdictsOf events id := by
    simp only [List.any_eq_true, Bool.or_eq_true, beq_iff_eq]
    constructor
    · rintro ⟨v, hv, rfl | rfl⟩
      · exact .inl hv
      · exact .inr hv
    · rintro (h | h)
      · exact ⟨_, h, .inl rfl⟩
      · exact ⟨_, h, .inr rfl⟩
  have haccepted : ((verdictsOf events id).any (· == "ACCEPT")) = true ↔ "ACCEPT" ∈ verdictsOf events id := by
    simp [List.any_eq_true]
  by_cases hd : "DROP" ∈ verdictsOf events id ∨ "REJECT" ∈ verdictsOf events id
  · simp [hdenied.mpr hd, hd, eq_comm]
  · rw [if_neg fun h => hd (hdenied.mp h)]
    by_cases ha : "ACCEPT" ∈ verdictsOf events id
    · simp [haccepted.mpr ha, hd, ha, eq_comm]
    · rw [if_neg fun h => ha (haccepted.mp h)]
      simp [hd, ha]

end Words

/-! ## The reducer meets it -/

section Entries

variable {events more : List TraceEvent} {id v : String}

theorem reduceVerdicts_entries (events : List TraceEvent) : reduceVerdicts events = (entries events).map (·.2) := by
  rw [reduceVerdicts_eq, entries, List.map_filterMap]
  refine List.filterMap_congr ?_
  intro id _
  cases verdictFor events id <;> rfl

theorem entries_ids (events : List TraceEvent) :
    (entries events).map (·.1) = (idsSeen events).filter fun id => (verdictFor events id).isSome := by
  rw [entries, List.map_filterMap, ← List.filterMap_eq_filter]
  refine List.filterMap_congr ?_
  intro id _
  cases hv : verdictFor events id <;> simp [Option.guard, hv]

/-- An id with a word was seen. -/
theorem Said.seen {word : String} (h : Said events id word) : id ∈ idsSeen events := by
  obtain ⟨e, he, hs⟩ := h
  exact mem_idsSeen.mpr ⟨e, he, carries_iff.mpr ⟨hs.type, hs.ne, hs.traceId⟩⟩

theorem mem_entries : (id, v) ∈ entries events ↔ verdictFor events id = some v := by
  simp only [entries, List.mem_filterMap, Option.map_eq_some_iff, Prod.mk.injEq]
  constructor
  · rintro ⟨id', -, v', hv, rfl, rfl⟩
    exact hv
  · intro hv
    refine ⟨id, ?_, v, hv, rfl, rfl⟩
    rcases verdictFor_iff.mp hv with ⟨h | h, -⟩ | ⟨-, h, -⟩ <;> exact h.seen

theorem isReduction (events : List TraceEvent) : IsReduction events (entries events) where
  order := by
    rw [entries_ids, idsSeen_eq]
    exact List.filter_sublist
  ids id := by
    have hmem : id ∈ (entries events).map (·.1) ↔ ∃ v, (id, v) ∈ entries events := by simp
    rw [hmem]
    simp only [mem_entries, verdictFor_iff]
    constructor
    · rintro ⟨v, ⟨h, -⟩ | ⟨-, h, -⟩⟩
      · exact .inr h
      · exact .inl h
    · intro h
      by_cases hd : Said events id "DROP" ∨ Said events id "REJECT"
      · exact ⟨_, .inl ⟨hd, rfl⟩⟩
      · exact ⟨_, .inr ⟨hd, h.resolve_right hd, rfl⟩⟩
  denied id v h hd := by
    rcases verdictFor_iff.mp (mem_entries.mp h) with ⟨-, hv⟩ | ⟨hnot, -⟩
    · exact hv
    · exact absurd hd hnot
  accepted id v h hnot := by
    rcases verdictFor_iff.mp (mem_entries.mp h) with ⟨hd, -⟩ | ⟨-, -, hv⟩
    · exact absurd hd hnot
    · exact hv

omit U in
/-- Two sublists of a list without duplicates are equal when they have the same members. -/
theorem sublist_unique {xs ys zs : List String} (hnodup : zs.Nodup) (hx : xs.Sublist zs) (hy : ys.Sublist zs)
    (h : ∀ x, x ∈ xs ↔ x ∈ ys) : xs = ys := by
  induction hx generalizing ys with
  | slnil => exact (List.sublist_nil.mp hy).symm
  | @cons xs zs z hsub ih =>
    obtain ⟨hz, hnodup⟩ := List.nodup_cons.mp hnodup
    refine ih hnodup ?_ h
    cases hy with
    | cons _ hy => exact hy
    | cons_cons _ hy => exact absurd (hsub.subset ((h z).mpr List.mem_cons_self)) hz
  | @cons_cons xs zs z hsub ih =>
    obtain ⟨hz, hnodup⟩ := List.nodup_cons.mp hnodup
    cases hy with
    | cons _ hy => exact absurd (hy.subset ((h z).mp List.mem_cons_self)) hz
    | @cons_cons ys _ _ hy =>
      congr 1
      refine ih hnodup hy ?_
      intro x
      have hxy := h x
      rw [List.mem_cons, List.mem_cons] at hxy
      constructor
      · intro hmem
        refine (hxy.mp (.inr hmem)).resolve_left ?_
        rintro rfl
        exact hz (hsub.subset hmem)
      · intro hmem
        refine (hxy.mpr (.inr hmem)).resolve_left ?_
        rintro rfl
        exact hz (hy.subset hmem)

/-- The specification has one solution. -/
theorem IsReduction.unique {es : List (String × String)} (h : IsReduction events es) : es = entries events := by
  have hr := isReduction events
  have hids : es.map (·.1) = (entries events).map (·.1) :=
    sublist_unique (firstIds_nodup events) h.order hr.order fun id => (h.ids id).trans (hr.ids id).symm
  have hverdict : ∀ p ∈ es, p ∈ entries events := by
    rintro ⟨id, v⟩ hp
    have hid : id ∈ (entries events).map (·.1) := hids ▸ List.mem_map_of_mem hp
    obtain ⟨⟨id', v'⟩, hp', rfl⟩ := List.mem_map.mp hid
    by_cases hd : Said events id' "DROP" ∨ Said events id' "REJECT"
    · rw [h.denied _ _ hp hd, ← hr.denied _ _ hp' hd]
      exact hp'
    · rw [h.accepted _ _ hp hd, ← hr.accepted _ _ hp' hd]
      exact hp'
  have hform : ∀ {xs : List (String × String)}, (∀ p ∈ xs, p ∈ entries events) →
      (xs.map (·.1)).map (fun id => (id, (verdictFor events id).getD "")) = xs := by
    intro xs hxs
    rw [List.map_map]
    refine (List.map_congr_left ?_).trans (List.map_id xs)
    rintro ⟨id, v⟩ hp
    simp [mem_entries.mp (hxs _ hp)]
  rw [← hform hverdict, hids, hform fun _ hp => hp]

/-! ## Other orders, more events, fewer events -/

/-- Only the order of the ids' first events matters. -/
theorem entries_perm {events' : List TraceEvent} (hperm : events'.Perm events)
    (hfirst : firstIds events' = firstIds events) :
    entries events' = entries events := by
  have hsaid : ∀ id word, Said events' id word ↔ Said events id word := by
    intro id word
    simp only [Said, hperm.mem_iff]
  refine IsReduction.unique ?_
  have hr := isReduction events'
  exact ⟨hfirst ▸ hr.order, fun id => by simpa only [hsaid] using hr.ids id,
    fun id v h => by simpa only [hsaid] using hr.denied id v h,
    fun id v h => by simpa only [hsaid] using hr.accepted id v h⟩

theorem Said.append {word : String} (h : Said events id word) : Said (events ++ more) id word := by
  obtain ⟨e, he, hs⟩ := h
  exact ⟨e, List.mem_append_left _ he, hs⟩

/-- An entry stays, and DROP stays DROP. -/
theorem entries_append (h : (id, v) ∈ entries events) :
    ∃ v', (id, v') ∈ entries (events ++ more) ∧ (v = "DROP" → v' = "DROP") := by
  simp only [mem_entries, verdictFor_iff] at h ⊢
  by_cases hd : Said (events ++ more) id "DROP" ∨ Said (events ++ more) id "REJECT"
  · exact ⟨"DROP", .inl ⟨hd, rfl⟩, fun _ => rfl⟩
  · rcases h with ⟨h | h, -⟩ | ⟨-, ha, rfl⟩
    · exact absurd (.inl h.append) hd
    · exact absurd (.inr h.append) hd
    · exact ⟨"ACCEPT", .inr ⟨hd, ha.append, rfl⟩, fun h => h⟩

/-- Entries only move apart: their ids keep their order. -/
theorem entries_append_order : ((entries events).map (·.1)).Sublist ((entries (events ++ more)).map (·.1)) := by
  have hsub : (firstIds events).Sublist (firstIds (events ++ more)) := by
    rw [firstIds, firstIds, List.filterMap_append, List.eraseDups_append]
    exact List.sublist_append_left _ _
  have hnodup := firstIds_nodup (events ++ more)
  have hkept : (entries events).map (·.1) =
      ((entries (events ++ more)).map (·.1)).filter fun id => decide (id ∈ (entries events).map (·.1)) := by
    refine sublist_unique hnodup ((isReduction events).order.trans hsub)
      (List.filter_sublist.trans (isReduction (events ++ more)).order) ?_
    intro id
    rw [List.mem_filter, decide_eq_true_iff]
    constructor
    · intro hid
      obtain ⟨⟨id, v⟩, hp, rfl⟩ := List.mem_map.mp hid
      have hkept : ∃ v', (id, v') ∈ entries (events ++ more) ∧ (v = "DROP" → v' = "DROP") := entries_append hp
      obtain ⟨v', hv', -⟩ := hkept
      exact ⟨List.mem_map.mpr ⟨_, hv', rfl⟩, hid⟩
    · exact fun h => h.2
  rw [hkept]
  exact List.filter_sublist

section Delete

variable {gone : String → Bool}

omit U in
theorem carries_deleteIds {e : TraceEvent} (hid : gone id = false) (hc : carries id e = true) :
    (!e.traceId.any fun id => id != "" && gone id) = true := by
  simp [(carries_iff.mp hc).2.2, hid]

theorem said_deleteIds {word : String} :
    Said (deleteIds gone events) id word ↔ Said events id word ∧ gone id = false := by
  constructor
  · rintro ⟨e, he, hs⟩
    obtain ⟨he, hkeep⟩ := List.mem_filter.mp he
    refine ⟨⟨e, he, hs⟩, ?_⟩
    simpa [hs.traceId, hs.ne] using hkeep
  · rintro ⟨⟨e, he, hs⟩, hid⟩
    exact ⟨e, List.mem_filter.mpr ⟨he, carries_deleteIds hid (carries_iff.mpr ⟨hs.type, hs.ne, hs.traceId⟩)⟩, hs⟩

omit U in
theorem firstIds_deleteIds : firstIds (deleteIds gone events) = (firstIds events).filter fun id => !gone id := by
  have hids : (deleteIds gone events).filterMap countedId = (events.filterMap countedId).filter fun id => !gone id := by
    rw [deleteIds, List.filterMap_filter, List.filter_filterMap]
    refine List.filterMap_congr ?_
    intro e _
    cases hc : countedId e with
    | none => simp
    | some id =>
      obtain ⟨-, hne, hid⟩ := carries_iff.mp (countedId_iff.mp hc)
      cases hgone : gone id <;> simp [hid, hne, hgone, Option.filter]
  rw [firstIds, hids, firstIds]
  induction events.filterMap countedId using List.reverseRecOn with
  | nil => simp
  | append_singleton xs x ih =>
    rw [List.filter_append, eraseDups_snoc]
    by_cases hx : gone x = true
    · by_cases hmem : x ∈ xs <;> simp [hx, hmem, ih]
    · have hx : gone x = false := by simpa using hx
      rw [List.filter_singleton, hx, Bool.not_false, cond_true, eraseDups_snoc, ih]
      by_cases hmem : x ∈ xs <;> simp [hx, hmem]

/-- Deleting the events of some ids deletes their entries, and no other. -/
theorem entries_delete (gone : String → Bool) (events : List TraceEvent) :
    entries (deleteIds gone events) = (entries events).filter fun p => !gone p.1 := by
  have hr := isReduction events
  symm
  refine IsReduction.unique ⟨?_, ?_, ?_, ?_⟩
  · have hmap : ((entries events).filter fun p => !gone p.1).map (·.1) =
        ((entries events).map (·.1)).filter fun id => !gone id := by
      rw [List.filter_map]
      rfl
    rw [firstIds_deleteIds, hmap]
    exact hr.order.filter _
  · intro id
    simp only [said_deleteIds, ← or_and_right, ← hr.ids]
    simp
  · intro id v hv hd
    simp only [said_deleteIds, ← or_and_right] at hd
    exact hr.denied id v (List.mem_filter.mp hv).1 hd.1
  · intro id v hv hd
    obtain ⟨hv, hid⟩ := List.mem_filter.mp hv
    simp only [said_deleteIds, ← or_and_right] at hd
    exact hr.accepted id v hv fun h => hd ⟨h, by simpa using hid⟩

omit U in
theorem withoutCanaries_eq (events : List TraceEvent) (ids : List String) :
    withoutCanaries events ids = deleteIds ids.contains events := by
  have hkeep : ∀ e : TraceEvent, ids.any e.hasId = e.traceId.any fun id => id != "" && ids.contains id := by
    intro e
    unfold TraceEvent.hasId
    cases e.traceId with
    | none => simp
    | some id =>
      rw [Option.any_some, Bool.eq_iff_iff]
      simp only [List.any_eq_true, Bool.and_eq_true, bne_iff_ne, beq_iff_eq, Option.some.injEq, List.contains_iff_mem]
      constructor
      · rintro ⟨id', hid', hne, rfl⟩
        exact ⟨hne, hid'⟩
      · rintro ⟨hne, hid⟩
        exact ⟨id, hid, hne, rfl⟩
  simp only [withoutCanaries, Pipeline.withoutCanaries, deleteIds, ← hkeep]
  by_cases hids : ids = []
  · simp [hids]
  · simp [hids]

end Delete

end Entries

/-! ## The whole of it -/

/-- The reducer returns the verdicts of the specified entries, and what follows for events
    in another order, for more events and for fewer. -/
theorem reduceVerdicts_spec (events : List TraceEvent) :
    (reduceVerdicts events = (entries events).map (·.2) ∧ ∀ es, IsReduction events es ↔ es = entries events) ∧
      (∀ events', events'.Perm events → firstIds events' = firstIds events →
        entries events' = entries events ∧ reduceVerdicts events' = reduceVerdicts events) ∧
      (∀ more, ((entries events).map (·.1)).Sublist ((entries (events ++ more)).map (·.1)) ∧
        ∀ id v, (id, v) ∈ entries events → ∃ v', (id, v') ∈ entries (events ++ more) ∧ (v = "DROP" → v' = "DROP")) ∧
      (∀ gone : String → Bool, entries (deleteIds gone events) = (entries events).filter fun p => !gone p.1) ∧
      ∀ ids, withoutCanaries events ids = deleteIds ids.contains events := by
  refine ⟨⟨reduceVerdicts_entries events, fun es => ⟨IsReduction.unique, ?_⟩⟩, ?_, ?_, ?_, withoutCanaries_eq events⟩
  · rintro rfl
    exact isReduction events
  · intro events' hperm hfirst
    have h := entries_perm hperm hfirst
    exact ⟨h, by rw [reduceVerdicts_entries, reduceVerdicts_entries, h]⟩
  · intro more
    exact ⟨entries_append_order, fun _ _ => entries_append⟩
  · intro gone
    exact entries_delete gone events

end Nse.Runner
