/-
  Nse.Core.LineAccounting — every line the read loop consumes is accounted for once.

  A consumed line is blank, or parsed to an event, or counted as unparsed. `Accounted` says
  what the loop's six records have to do with these lines: the events are on the queue (or
  in the loop's hand while it waits for room) and were handed to the callback, in order; the
  ids seen are those of the events; the two counters count the unparsed lines, and the
  samples are the first of them; the signal is set once an event comes after it was armed.

  Proved: `every_line_is_accounted_for`, in every session, whatever the callers, the queue
  and the clock do.
-/

import Nse.Core.Heard
import Nse.Core.Rehearsal
import Nse.Core.Session

namespace Nse

open Coroutine

variable [U : PyStr.Unicode] {env : Env}

/-! ## Lines -/

/-- The lines consumed so far that are not blank, stripped. -/
def nonblank (s : St) : List String := ((s.out.take s.nread).map fun x => PyStr.strip x.2).filter (· ≠ "")

/-- Those of them that the parser does not understand. -/
def unparsed (env : Env) (s : St) : List String :=
  (nonblank s).filter fun line => (TraceParser.eventOf env.blind line).isNone

/-- The events of the others. -/
def parsedEvents (env : Env) (s : St) : List TraceEvent := (nonblank s).filterMap (TraceParser.eventOf env.blind)

/-- It looks like trace output. -/
def looksTraced (line : String) : Bool := (TraceParser.traceLineRe.match line).isSome

structure Accounted (env : Env) (σ : Session) : Prop where
  nread : σ.s.nread ≤ σ.s.out.length
  /-- The events of the lines are those produced, one that was lost to a cancellation, and the
      one in hand. -/
  events : parsedEvents env σ.s = σ.s.produced ++ σ.dropped ++ σ.s.loop.inHand
  calls : σ.s.collected = σ.s.produced
  traced : σ.s.h.unparsedTraceLines = (unparsed env σ.s).countP looksTraced
  other : σ.s.h.unparsedOtherLines = (unparsed env σ.s).countP fun line => !looksTraced line
  samples : σ.s.h.unparsedSamples = (unparsed env σ.s).take Harvester.maxUnparsedSamples
  seen : σ.s.h.seenTraceIds = ((parsedEvents env σ.s).filterMap (·.traceId)).eraseDups
  armed : σ.armed ≤ σ.s.produced.length
  signal : σ.armed < σ.s.produced.length → σ.s.h.eventSignal = true
  whole : σ.cancelled = false → σ.dropped = []
  ended : σ.cancelled = true → σ.s.loop.live = false

/-- A line that is not blank is parsed or is not. -/
theorem nonblank_length (env : Env) (s : St) :
    (nonblank s).length = (parsedEvents env s).length + (unparsed env s).length := by
  unfold parsedEvents unparsed
  generalize nonblank s = lines
  induction lines with
  | nil => rfl
  | cons line lines ih =>
    cases hp : TraceParser.eventOf env.blind line with
    | none => simp [hp, ih, Nat.add_assoc]
    | some e =>
      simp only [List.filterMap_cons, hp, List.filter_cons, List.length_cons, ih]
      simp only [Option.isNone_some, Bool.false_eq_true, if_false]
      omega

/-! ## Ids -/

omit U in
/-- A pattern with a header records an id in it. -/
theorem prefixed_traceId {r : Backtrack.Re} {line : String} {m : Backtrack.Groups} (hr : "trace_id" ∉ r.names)
    (h : (TraceParser.prefixed r).match line = some m) : ∃ id, m.get "trace_id" = some id ∧ id ≠ "" := by
  obtain ⟨t, -, hgroup⟩ := Backtrack.literal_some h
  obtain ⟨xs, t', hne, hsplit, -, hrest⟩ := Backtrack.run_plus_some hgroup
  dsimp only at hsplit
  subst hsplit
  obtain ⟨b, hb, own, hown, hnames⟩ := Backtrack.run_some hrest
  have hfresh : ∀ x ∈ own, x.1 ≠ "trace_id" := by
    intro x hx heq
    have hmem : x.1 ∈ "family" :: "table" :: "chain" :: r.names := by
      simpa [Backtrack.Re.seqs, Backtrack.Re.names, TraceParser.ident, TraceParser.quoted, Backtrack.Re.plus]
        using hnames x hx
    rw [heq] at hmem
    rcases List.mem_cons.mp hmem with h | hmem
    · exact absurd h (by decide)
    · rcases List.mem_cons.mp hmem with h | hmem
      · exact absurd h (by decide)
      · rcases List.mem_cons.mp hmem with h | hmem
        · exact absurd h (by decide)
        · exact hr hmem
  refine ⟨String.ofList xs, ?_, ?_⟩
  · cases Option.some.inj hb
    rw [hown]
    refine (Backtrack.get_append hfresh).trans ?_
    rw [Backtrack.record_append]
    rfl
  · intro hempty
    exact hne (String.toList_eq_nil_iff.mpr hempty ▸ (String.toList_ofList).symm)

/-- An event of the parser has an id. -/
theorem parseLine_traceId {blind : Bool} {line : String} {e : TraceEvent}
    (h : TraceParser.parseLine blind line = .ok (some e)) :
    ∃ id, e.traceId = some id ∧ id ≠ "" := by
  obtain ⟨m, hm, rfl⟩ | ⟨m, handle, hm, -, rfl⟩ | ⟨m, hm, rfl⟩ := TraceParser.parseLine_cases h
  · refine prefixed_traceId ?_ hm
    show "trace_id" ∉ ["iif"]
    decide
  · refine prefixed_traceId ?_ hm
    show "trace_id" ∉ ["rule_id", "handle", "rule_text", "verdict"]
    decide
  · refine prefixed_traceId ?_ hm
    show "trace_id" ∉ ["verdict"]
    decide

/-! ## One step -/

/-- What the loop writes down about lines. -/
def Harvester.records (h : Harvester) : Nat × Nat × List String × List String :=
  (h.unparsedTraceLines, h.unparsedOtherLines, h.unparsedSamples, h.seenTraceIds)

omit U in
@[simp] theorem Harvester.records_endAs (h : Harvester) (st : HarvestState) : (h.endAs st).records = h.records := by
  unfold Harvester.endAs
  split <;> rfl

section Step

variable {σ τ : Session}

/-- Nothing is read and nothing produced. -/
theorem Accounted.of_same (h : Accounted env σ) (hn : τ.s.nread ≤ τ.s.out.length) (hlines : nonblank τ.s = nonblank σ.s)
    (hproduced : τ.s.produced = σ.s.produced) (hcalls : τ.s.collected = σ.s.collected)
    (hhand : τ.dropped ++ τ.s.loop.inHand = σ.dropped ++ σ.s.loop.inHand) (hrecords : τ.s.h.records = σ.s.h.records)
    (hsignal : (τ.armed = σ.armed ∧ τ.s.h.eventSignal = σ.s.h.eventSignal) ∨ τ.armed = τ.s.produced.length)
    (hwhole : τ.cancelled = false → τ.dropped = []) (hended : τ.cancelled = true → τ.s.loop.live = false) :
    Accounted env τ := by
  have hunparsed : unparsed env τ.s = unparsed env σ.s := congrArg (List.filter _) hlines
  have hevents : parsedEvents env τ.s = parsedEvents env σ.s := congrArg (List.filterMap _) hlines
  simp only [Harvester.records, Prod.mk.injEq] at hrecords
  obtain ⟨htraced, hother, hsamples, hseen⟩ := hrecords
  refine ⟨hn, ?_, ?_, ?_, ?_, ?_, ?_, ?_, ?_, hwhole, hended⟩
  · rw [hevents, h.events, hproduced, List.append_assoc, List.append_assoc, hhand]
  · rw [hcalls, hproduced, h.calls]
  · rw [htraced, hunparsed, h.traced]
  · rw [hother, hunparsed, h.other]
  · rw [hsamples, hunparsed, h.samples]
  · rw [hseen, hevents, h.seen]
  · have harmed := h.armed
    rw [hproduced] at hsignal ⊢
    rcases hsignal with hsame | hnow <;> omega
  · intro hlt
    rcases hsignal with hsame | hnow
    · rw [hsame.2]
      refine h.signal ?_
      rwa [hsame.1, hproduced] at hlt
    · omega

/-- Consuming one more line. -/
theorem Next.nonblank {s : St} {p : Packet} {line : String} (h : Next s p line) :
    nonblank { s with nread := s.nread + 1 } = nonblank s ++ if line = "" then [] else [line] := by
  obtain ⟨-, raw, hraw, rfl⟩ := h
  unfold Nse.nonblank
  rw [List.take_add_one, hraw, List.map_append, List.filter_append]
  by_cases hblank : PyStr.strip raw = "" <;> simp [hblank]

omit U in
theorem countP_snoc (p : String → Bool) (xs : List String) (x : String) :
    (xs ++ [x]).countP p = xs.countP p + if p x then 1 else 0 := by
  rw [List.countP_append, List.countP_singleton]

theorem countUnparsed_counts (line : String) (h : Harvester) :
    (h.countUnparsed line).unparsedTraceLines = h.unparsedTraceLines + (if looksTraced line then 1 else 0) ∧
      (h.countUnparsed line).unparsedOtherLines = h.unparsedOtherLines + if !looksTraced line then 1 else 0 := by
  unfold Harvester.countUnparsed looksTraced
  by_cases hl : (TraceParser.traceLineRe.match line).isSome = true
  · simp only [hl, if_true, Bool.not_true, Bool.false_eq_true, if_false, Nat.add_zero, and_self]
  · simp only [hl, if_false, Bool.not_false, Bool.false_eq_true, if_true, Nat.add_zero, and_self]

/-- One more unparsed line, in the records. -/
theorem recordUnparsed_records {h : Harvester} {lines : List String} (line : String)
    (htraced : h.unparsedTraceLines = lines.countP looksTraced)
    (hother : h.unparsedOtherLines = lines.countP fun line => !looksTraced line)
    (hsamples : h.unparsedSamples = lines.take Harvester.maxUnparsedSamples) :
    (h.recordUnparsed line).unparsedTraceLines = (lines ++ [line]).countP looksTraced ∧
      (h.recordUnparsed line).unparsedOtherLines = ((lines ++ [line]).countP fun line => !looksTraced line) ∧
        (h.recordUnparsed line).unparsedSamples = (lines ++ [line]).take Harvester.maxUnparsedSamples := by
  have hcount : (h.recordUnparsed line).unparsedTraceLines = (h.countUnparsed line).unparsedTraceLines ∧
      (h.recordUnparsed line).unparsedOtherLines = (h.countUnparsed line).unparsedOtherLines := by
    unfold Harvester.recordUnparsed Harvester.keepSample
    split <;> exact ⟨rfl, rfl⟩
  have hkept : (h.recordUnparsed line).unparsedSamples = (h.keepSample line).unparsedSamples := by
    unfold Harvester.recordUnparsed Harvester.countUnparsed
    split <;> (unfold Harvester.keepSample; split <;> rfl)
  obtain ⟨htrace, hothers⟩ := countUnparsed_counts line h
  rw [hcount.1, hcount.2, hkept, countP_snoc, countP_snoc, htrace, hothers, htraced, hother]
  refine ⟨rfl, rfl, ?_⟩
  · unfold Harvester.keepSample
    have hlength : h.unparsedSamples.length = min Harvester.maxUnparsedSamples lines.length := by
      rw [hsamples, List.length_take]
    split
    · rename_i hroom
      have hshort : lines.length < Harvester.maxUnparsedSamples := by omega
      rw [hsamples, List.take_of_length_le (by omega),
        List.take_of_length_le (by simp only [List.length_append, List.length_singleton]; omega)]
    · rename_i hroom
      have hlong : Harvester.maxUnparsedSamples ≤ lines.length := by omega
      rw [hsamples, List.take_append_of_le_length hlong]

omit U in
theorem produced_put (s : St) (x : Producer × Option TraceEvent) (t : St) (ht : t.puts = s.puts ++ [x]) :
    t.produced = s.produced ++ (fromLoop x).toList := by
  unfold St.produced
  rw [ht, List.filterMap_append, List.filterMap_cons]
  cases fromLoop x <;> rfl

theorem nonblank_write {s : St} (h : s.nread ≤ s.out.length) (x : Packet × String) :
    nonblank { s with out := s.out ++ [x] } = nonblank s := by
  unfold nonblank
  rw [List.take_append_of_le_length h]

/-- A loop that runs has not been cancelled, and has lost nothing. -/
theorem Accounted.running (h : Accounted env σ) (hl : σ.s.loop.live = true) : σ.cancelled = false ∧ σ.dropped = [] := by
  have hgoing : σ.cancelled = false := by
    cases hc : σ.cancelled with
    | false => rfl
    | true => exact absurd hl (by rw [h.ended hc]; decide)
  exact ⟨hgoing, h.whole hgoing⟩

theorem Accounted.move {s : St} (h : Accounted env σ) (hm : Move env σ.s s) : Accounted env { σ with s } := by
  have hn := h.nread
  cases hm with
  | tick ms => exact h.of_same hn rfl rfl rfl rfl rfl (.inl ⟨rfl, rfl⟩) h.whole h.ended
  | exit _ => exact h.of_same hn rfl rfl rfl rfl rfl (.inl ⟨rfl, rfl⟩) h.whole h.ended
  | take _ _ => exact h.of_same hn rfl rfl rfl rfl rfl (.inl ⟨rfl, rfl⟩) h.whole h.ended
  | write p line _ _ _ =>
    refine h.of_same ?_ (nonblank_write hn _) rfl rfl rfl rfl (.inl ⟨rfl, rfl⟩) h.whole h.ended
    simp only [List.length_append, List.length_singleton]
    omega
  | begin hl =>
    refine h.of_same hn rfl rfl rfl ?_ rfl (.inl ⟨rfl, rfl⟩) h.whole ?_
    · simp only [hl, LoopPc.inHand]
    · intro hc
      exact absurd hc (by rw [(h.running (by rw [hl]; rfl)).1]; decide)
  | blank p hnext =>
    refine h.of_same hnext.lt ?_ rfl rfl rfl rfl (.inl ⟨rfl, rfl⟩) h.whole h.ended
    refine hnext.nonblank.trans ?_
    rw [if_pos rfl, List.append_nil]
  | finish st err hl _ =>
    refine h.of_same hn rfl rfl rfl ?_ ?_ (.inl ⟨rfl, ?_⟩) h.whole fun _ => rfl
    · simp only [hl, LoopPc.inHand]
    · simp only [Harvester.records_endAs]
      rfl
    · simp only [Harvester.endAs_signal]
  | close hl _ =>
    refine h.of_same hn rfl ?_ rfl ?_ rfl (.inl ⟨rfl, rfl⟩) h.whole fun _ => rfl
    · rw [produced_put σ.s _ _ rfl]
      simp [fromLoop]
    · simp only [hl, LoopPc.inHand, Loop.close]
  | deliver e hl _ =>
    have hgrown : St.produced _ = σ.s.produced ++ [e] := produced_put σ.s (.readLoop, some e) { σ.s with
      puts := σ.s.puts ++ [(.readLoop, some e)], h := { σ.s.h with eventSignal := true }
      collected := σ.s.collected ++ [e], loop := .reading } rfl
    obtain ⟨hgoing, hwhole⟩ := h.running (by rw [hl]; rfl)
    refine ⟨hn, ?_, ?_, h.traced, h.other, h.samples, h.seen, ?_, fun _ => rfl, h.whole, ?_⟩
    · refine h.events.trans ?_
      rw [hgrown, hwhole, hl]
      simp [LoopPc.inHand]
    · rw [hgrown, ← h.calls]
    · have harmed := h.armed
      rw [hgrown, List.length_append]
      exact Nat.le_add_right_of_le harmed
    · intro hc
      exact absurd hc (by rw [hgoing]; decide)
  | unparsed p line hnext hne hp =>
    have hnone := TraceParser.eventOf_of_ok hp
    have hlines : nonblank { σ.s with nread := σ.s.nread + 1, h := σ.s.h.recordUnparsed line } =
        nonblank σ.s ++ [line] := by
      refine hnext.nonblank.trans ?_
      rw [if_neg hne]
    have hunparsed : unparsed env { σ.s with nread := σ.s.nread + 1, h := σ.s.h.recordUnparsed line } =
        unparsed env σ.s ++ [line] := by
      unfold unparsed
      rw [hlines, List.filter_append]
      simp [hnone]
    have hevents : parsedEvents env { σ.s with nread := σ.s.nread + 1, h := σ.s.h.recordUnparsed line } =
        parsedEvents env σ.s := by
      unfold parsedEvents
      rw [hlines, List.filterMap_append]
      simp [hnone]
    obtain ⟨htraced, hother, hsamples⟩ := recordUnparsed_records line h.traced h.other h.samples
    refine ⟨hnext.lt, ?_, h.calls, ?_, ?_, ?_, ?_, h.armed, ?_, h.whole, h.ended⟩
    · rw [hevents]
      exact h.events
    · rw [hunparsed]
      exact htraced
    · rw [hunparsed]
      exact hother
    · rw [hunparsed]
      exact hsamples
    · rw [hevents]
      exact (Harvester.recordUnparsed_seen _ _).trans h.seen
    · intro hlt
      exact (Harvester.recordUnparsed_signal _ _).trans (h.signal hlt)
  | parsed p line e hnext hne hp =>
    have hsome := TraceParser.eventOf_of_ok hp
    have hlines : nonblank { σ.s with nread := σ.s.nread + 1, h := σ.s.h.recordId e, loop := .putting e } =
        nonblank σ.s ++ [line] := by
      refine hnext.nonblank.trans ?_
      rw [if_neg hne]
    have hunparsed : unparsed env { σ.s with nread := σ.s.nread + 1, h := σ.s.h.recordId e, loop := .putting e } =
        unparsed env σ.s := by
      unfold unparsed
      rw [hlines, List.filter_append]
      simp [hsome]
    have hevents : parsedEvents env { σ.s with nread := σ.s.nread + 1, h := σ.s.h.recordId e, loop := .putting e } =
        parsedEvents env σ.s ++ [e] := by
      unfold parsedEvents
      rw [hlines, List.filterMap_append]
      simp [hsome]
    obtain ⟨id, hid, hidne⟩ := parseLine_traceId hp
    obtain ⟨htraced, hother, hsamples⟩ := Harvester.recordId_counts σ.s.h e
    obtain ⟨hgoing, -⟩ := h.running (by rw [hnext.1]; rfl)
    refine ⟨hnext.lt, ?_, h.calls, ?_, ?_, ?_, ?_, h.armed, ?_, h.whole, ?_⟩
    · rw [hevents, h.events, hnext.1]
      simp only [LoopPc.inHand, List.append_nil, St.produced]
    · rw [hunparsed]
      exact htraced.trans h.traced
    · rw [hunparsed]
      exact hother.trans h.other
    · rw [hunparsed]
      exact hsamples.trans h.samples
    · rw [hevents, List.filterMap_append]
      refine (Harvester.recordId_seen hid hidne h.seen).trans ?_
      simp [hid]
    · intro hlt
      exact (Harvester.recordId_signal _ _).trans (h.signal hlt)
    · intro hc
      exact absurd hc (by rw [hgoing]; decide)

omit U in
/-- Cancelling touches neither the records nor what was produced, and the loop ends. -/
theorem cancel_books (s : St) : (Loop.cancel env s).h.records = s.h.records ∧
    (Loop.cancel env s).h.eventSignal = s.h.eventSignal ∧ (Loop.cancel env s).produced = s.produced ∧
      (Loop.cancel env s).loop.live = false ∧ (Loop.cancel env s).loop.inHand = [] := by
  have hclose : ∀ t : St, (Loop.close t).produced = t.produced := by
    intro t
    refine (produced_put t (.readLoop, none) _ rfl).trans ?_
    simp [fromLoop]
  unfold Loop.cancel
  cases hl : s.loop with
  | idle | done | scheduled | closing =>
    refine ⟨rfl, rfl, rfl, ?_⟩
    simp [hl, LoopPc.live, LoopPc.inHand]
  | reading | putting e =>
    dsimp only
    split
    · exact ⟨rfl, rfl, rfl, rfl, rfl⟩
    · exact ⟨rfl, rfl, hclose _, rfl, rfl⟩

/-- A cancelled loop loses the event in its hand. -/
theorem Accounted.cancel (h : Accounted env σ) (r : Except PyExc Unit) :
    Accounted env (σ.answered env .cancelTask r) := by
  have hn := h.nread
  obtain ⟨hout, hread, -, hcalls, -⟩ := @cancel_frame env σ.s
  obtain ⟨hrecords, hsignal, hproduced, hdead, hempty⟩ := @cancel_books env σ.s
  have hlines : nonblank (Loop.cancel env σ.s) = nonblank σ.s := by
    unfold nonblank
    rw [hout, hread]
  have hread' : (Loop.cancel env σ.s).nread ≤ (Loop.cancel env σ.s).out.length := by
    rw [hout, hread]
    exact hn
  have hanswer : σ.answered env .cancelTask r = if σ.s.loop.live then
      { σ with s := Loop.cancel env σ.s, cancelled := true, dropped := σ.s.loop.inHand }
        else { σ with s := Loop.cancel env σ.s } := by
    unfold Session.answered
    rw [effect_cancelTask]
  rw [hanswer]
  split
  · rename_i hl
    refine h.of_same hread' hlines hproduced hcalls ?_ hrecords (.inl ⟨rfl, hsignal⟩)
      (fun hc => by cases hc) fun _ => hdead
    rw [hempty, (h.running hl).2]
    simp
  · rename_i hl
    refine h.of_same hread' hlines hproduced hcalls ?_ hrecords (.inl ⟨rfl, hsignal⟩) h.whole fun _ => hdead
    have hheld : σ.s.loop.inHand = [] := by
      cases hpc : σ.s.loop with
      | putting e => exact absurd (by rw [hpc]; rfl) hl
      | _ => rfl
    rw [hempty, hheld]

theorem Accounted.answer (h : Accounted env σ) {a : Req} (ha : a.ofCall) (r : Except PyExc (Reply a)) :
    Accounted env (σ.answered env a r) := by
  have hn := h.nread
  cases a with
  | cancelTask => exact h.cancel r
  | armEventSignal => cases r <;> exact h.of_same hn rfl rfl rfl rfl rfl (.inr rfl) h.whole h.ended
  | extendDeadline ms => cases r <;> exact h.of_same hn rfl rfl rfl rfl rfl (.inl ⟨rfl, rfl⟩) h.whole h.ended
  | put item =>
    cases r with
    | ok v =>
      refine h.of_same hn rfl ?_ rfl rfl rfl (.inl ⟨rfl, rfl⟩) h.whole h.ended
      refine (produced_put σ.s (.pipeline, item) _ rfl).trans ?_
      simp [fromLoop]
    | error e => exact h
  | stop =>
    unfold Session.answered
    dsimp only
    cases r <;> split <;> exact h.of_same hn rfl rfl rfl rfl rfl (.inl ⟨rfl, rfl⟩) h.whole h.ended
  | setStopped => cases r <;> exact h.of_same hn rfl rfl rfl rfl rfl (.inl ⟨rfl, rfl⟩) h.whole h.ended
  | taskPending | awaitTask _ | joinTask | harvestState => cases r <;> exact h
  | _ => exact False.elim ha

theorem accounted_started (clock timeout : Nat) : Accounted env (Session.started clock timeout) where
  nread := Nat.le_refl _
  events := rfl
  calls := rfl
  traced := rfl
  other := rfl
  samples := rfl
  seen := rfl
  armed := Nat.le_refl _
  signal h := absurd h (Nat.lt_irrefl _)
  whole _ := rfl
  ended h := by cases h

end Step

/-- In every session. -/
theorem sessions_accounted {clock timeout : Nat} {cs : List (Prog (Option HarvestState))} {σ : Session}
    (h : PoolSteps (sessions env) IsCall ([], Session.started clock timeout) (cs, σ)) : Accounted env σ := by
  have hstable : Stable (sessions env) (Accounted env) := Session.stable_of_moves fun _ _ h hm => h.move hm
  refine (pool_only hstable ?_ (fun c hc => only_call hc) h ⟨?_, accounted_started clock timeout⟩).2
  · rintro σ a r τ ha hσ ⟨-, rfl⟩
    exact hσ.answer ha r
  · intro c hc
    cases hc

/-- Whenever the loop of a session is between two lines and was not cancelled, each line it
    has consumed is blank, an event or counted; the events were put on the queue and handed
    to the callback once each and in order; the ids seen are theirs, in first-seen order; the
    signal is set if an event came since it was armed; and the samples are the first of the
    unparsed lines. -/
theorem every_line_is_accounted_for {clock timeout : Nat} {cs : List (Prog (Option HarvestState))} {σ : Session}
    (h : PoolSteps (sessions env) IsCall ([], Session.started clock timeout) (cs, σ)) (hline : σ.s.loop.inHand = [])
    (hgoing : σ.cancelled = false) :
    (nonblank σ.s).length = σ.s.produced.length + σ.s.h.unparsedTraceLines + σ.s.h.unparsedOtherLines ∧
      σ.s.produced = (nonblank σ.s).filterMap (TraceParser.eventOf env.blind) ∧ σ.s.collected = σ.s.produced ∧
      σ.s.h.seenTraceIds.Nodup ∧ σ.s.h.seenTraceIds = (σ.s.produced.filterMap (·.traceId)).eraseDups ∧
      (σ.armed < σ.s.produced.length → σ.s.h.eventSignal = true) ∧
      σ.s.h.unparsedSamples = (unparsed env σ.s).take 5 := by
  have hall := sessions_accounted h
  have hevents : parsedEvents env σ.s = σ.s.produced := by
    rw [hall.events, hall.whole hgoing, hline, List.append_nil, List.append_nil]
  have hcounts : (unparsed env σ.s).length = σ.s.h.unparsedTraceLines + σ.s.h.unparsedOtherLines := by
    rw [hall.traced, hall.other]
    simpa using List.length_eq_countP_add_countP looksTraced (l := unparsed env σ.s)
  have hseen := hall.seen
  rw [hevents] at hseen
  refine ⟨?_, hevents.symm, hall.calls, ?_, hseen, hall.signal, hall.samples⟩
  · rw [nonblank_length env, hevents, hcounts, Nat.add_assoc]
  · rw [hseen]
    exact eraseDups_nodup _

end Nse

namespace Nse

open Coroutine

attribute [local instance] PyStr.Unicode.ascii

/-- A line the parser understands and one it does not, written and read. -/
def twoLines : List SessionEv :=
  [.ev .begin, .ev (.write (.test 0) "trace id a1 ip filter input verdict accept"),
    .ev (.write (.foreign 0) "trace id a1 ip"),
    .ev .line, .ev .line]

theorem every_line_is_accounted_for_sample : ∃ σ : Session,
    PoolSteps (sessions {}) IsCall ([], Session.started 0 5000) ([], σ) ∧ σ.s.produced.length = 1 ∧
      (nonblank σ.s).length = σ.s.produced.length + σ.s.h.unparsedTraceLines + σ.s.h.unparsedOtherLines := by
  have hplay :
      (((sessionSchedule {} (fun σ => obligingReply σ.s) fun _ _ => []).happen twoLines (Session.started 0 5000)).any
      fun σ => σ.s.loop.inHand.isEmpty && !σ.cancelled && σ.s.produced.length == 1) = true := by
    decide +kernel
  obtain ⟨σ, hσ, hcheck⟩ := (Option.any_eq_true _ _).mp hplay
  simp only [Bool.and_eq_true, List.isEmpty_iff, Bool.not_eq_true', beq_iff_eq] at hcheck
  obtain ⟨⟨hline, hgoing⟩, hone⟩ := hcheck
  have hrun : PoolSteps (sessions {}) IsCall ([], Session.started 0 5000) ([], σ) :=
    happen_steps (sessionSchedule_fits _ _ _) hσ
  exact ⟨σ, hrun, hone, (every_line_is_accounted_for hrun hline hgoing).1⟩

end Nse
