/-
  Nse.Core.Moves — the events of the world, taken apart.

  One event of the read loop does several things at once: it records an id, puts an item,
  looks at the deadline, ends. A `Move` does one of them, and every event is a run of moves
  (`event_moves`), so what each move keeps is stable (`stable_of_moves`).
-/

import Nse.Core.World

namespace Nse

open Coroutine
open Relation (ReflTransGen)

theorem St.with_loop {s : St} {pc : LoopPc} (h : s.loop = pc) : { s with loop := pc } = s := by
  cases s; cases h; rfl

variable [U : PyStr.Unicode] {env : Env}

/-! ## Moves -/

/-- Why the read loop may end in `st`. -/
def MayEnd (s : St) : HarvestState → Prop
  | .stopped => s.h.stopRequested = true
  | .timeout => s.h.stopRequested = false ∧ s.h.deadline ≤ s.clock
  | .cleanEof => s.h.stopRequested = false ∧ s.exited = true ∧ s.out.length ≤ s.nread
  | .error => True
  | _ => False

/-- The loop reads, and the next line is about `p` and this once stripped. -/
def Next (s : St) (p : Packet) (line : String) : Prop :=
  s.loop = .reading ∧ ∃ raw, s.out[s.nread]? = some (p, raw) ∧ PyStr.strip raw = line

inductive Move (env : Env) : St → St → Prop
  | tick (s : St) (ms : Nat) : Move env s { s with clock := s.clock + ms }
  | write (s : St) (p : Packet) (line : String) : s.loop ≠ .idle → s.exited = false → env.writes s p line = true →
      Move env s { s with out := s.out ++ [(p, line)] }
  | exit (s : St) : s.loop ≠ .idle → Move env s { s with exited := true }
  | take (s : St) : env.reader = true → s.taken < s.puts.length → Move env s { s with taken := s.taken + 1 }
  | begin (s : St) : s.loop = .scheduled → Move env s { s with h := { s.h with ready := true }, loop := .reading }
  | blank (s : St) (p : Packet) : Next s p "" → Move env s { s with nread := s.nread + 1 }
  | unparsed (s : St) (p : Packet) (line : String) : Next s p line → line ≠ "" →
    TraceParser.parseLine env.blind line = .ok none →
      Move env s { s with nread := s.nread + 1, h := s.h.recordUnparsed line }
  | parsed (s : St) (p : Packet) (line : String) (e : TraceEvent) : Next s p line → line ≠ "" →
      TraceParser.parseLine env.blind line = .ok (some e) →
      Move env s { s with nread := s.nread + 1, h := s.h.recordId e, loop := .putting e }
  | deliver (s : St) (e : TraceEvent) : s.loop = .putting e → s.full env = false →
      Move env s { s with
        puts := s.puts ++ [(.readLoop, some e)], h := { s.h with eventSignal := true }
        collected := s.collected ++ [e], loop := .reading }
  | finish (s : St) (st : HarvestState) (err : Option String) : s.loop = .reading → MayEnd s st →
      Move env s { s with h := { s.h with error := err }.endAs st, loop := .closing }
  | close (s : St) : s.loop = .closing → s.full env = false → Move env s (Loop.close s)

abbrev Moves (env : Env) : St → St → Prop := ReflTransGen (Move env)

omit U in
theorem finish_read (s : St) (st : HarvestState) :
    (Loop.finish env st s).out = s.out ∧ (Loop.finish env st s).nread = s.nread := by
  unfold Loop.finish Loop.close
  dsimp only
  split <;> exact ⟨rfl, rfl⟩

omit U in
theorem top_read (s : St) : (Loop.top env s).out = s.out ∧ (Loop.top env s).nread = s.nread := by
  unfold Loop.top
  split
  · exact finish_read s _
  · exact ⟨rfl, rfl⟩

/-- A line is consumed, or the parser raises on it and the loop ends. -/
theorem consume_cases (raw : String) (s : St) :
    ((Loop.consume env raw s).out = s.out ∧ (Loop.consume env raw s).nread = s.nread + 1) ∨
      ∃ exc text, TraceParser.parseLine env.blind (PyStr.strip raw) = .error exc ∧
        Loop.consume env raw s = Loop.finish env .error { s with h := { s.h with error := some text } } := by
  unfold Loop.consume
  dsimp only
  split
  · exact .inl (top_read _)
  · split
    · exact .inl (top_read _)
    · unfold Loop.putEvent
      split
      · exact .inl ⟨rfl, rfl⟩
      · exact .inl (top_read _)
    · rename_i exc hraises
      exact .inr ⟨exc, _, hraises, rfl⟩

theorem closing_moves (s : St) :
    Moves env { s with loop := .closing } (if s.full env then { s with loop := .closing } else Loop.close s) := by
  split
  · exact .refl
  · rename_i hfull
    exact .single (.close { s with loop := .closing } rfl (Bool.eq_false_iff.mpr hfull))

theorem finish_moves {s : St} {st : HarvestState} {err : Option String} (hl : s.loop = .reading) (hs : MayEnd s st) :
    Moves env s (Loop.finish env st { s with h := { s.h with error := err } }) :=
  ReflTransGen.head (.finish s st err hl hs) (closing_moves { s with h := { s.h with error := err }.endAs st })

theorem top_moves (s : St) : Moves env { s with loop := .reading } (Loop.top env s) := by
  unfold Loop.top
  split
  · rename_i hd
    have : MayEnd s (if s.h.stopRequested then .stopped else .timeout) := by
      cases hst : s.h.stopRequested
      · exact ⟨hst, hd⟩
      · exact hst
    exact finish_moves (s := { s with loop := .reading }) rfl this
  · exact .refl

theorem reading_moves {s : St} (hl : s.loop = .reading) : Moves env s (Loop.top env s) := by
  have hmoves : Moves env { s with loop := .reading } (Loop.top env s) := top_moves s
  rwa [St.with_loop hl] at hmoves

theorem deliver_moves {s : St} {e : TraceEvent} (hfull : s.full env = false) :
    Moves env { s with loop := .putting e } (Loop.deliver env e s) := by
  have hmove : Move env { s with loop := .putting e } _ := .deliver { s with loop := .putting e } e rfl hfull
  exact ReflTransGen.head hmove (top_moves { s with
    puts := s.puts ++ [(.readLoop, some e)], h := { s.h with eventSignal := true }, collected := s.collected ++ [e] })

theorem consume_moves {s : St} {p : Packet} {raw : String} (hl : s.loop = .reading)
    (hraw : s.out[s.nread]? = some (p, raw)) : Moves env s (Loop.consume env raw s) := by
  have hnext : Next s p (PyStr.strip raw) := ⟨hl, raw, hraw, rfl⟩
  unfold Loop.consume
  dsimp only
  split
  · rename_i hb
    exact ReflTransGen.head (.blank s p (hb ▸ hnext)) (reading_moves hl)
  · rename_i hb
    split
    · rename_i hp
      exact ReflTransGen.head (.unparsed s p _ hnext hb hp) (reading_moves hl)
    · rename_i e hp
      refine ReflTransGen.head (.parsed s p _ e hnext hb hp) ?_
      unfold Loop.putEvent
      split
      · exact .refl
      · rename_i hfull
        exact deliver_moves (s := { s with nread := s.nread + 1, h := s.h.recordId e }) (by simpa using hfull)
    · exact finish_moves hl trivial

/-- An event is a run of moves. -/
theorem event_moves {s s' : St} {e : Ev} (h : event env s e = some s') : Moves env s s' := by
  cases e with
  | tick ms =>
    cases h
    exact .single (.tick s ms)
  | write p line =>
    simp only [event] at h
    split at h
    · rename_i hc
      cases h
      exact .single (.write s p line hc.1 hc.2.1 hc.2.2)
    · cases h
  | exit =>
    simp only [event] at h
    split at h
    · cases h
      exact .single (.exit s ‹_›)
    · cases h
  | take =>
    simp only [event] at h
    split at h
    · rename_i hc
      cases h
      exact .single (.take s hc.1 hc.2)
    · cases h
  | begin =>
    simp only [event] at h
    split at h
    · cases h
      exact ReflTransGen.head (.begin s ‹_›) (top_moves { s with h := { s.h with ready := true } })
    · cases h
  | poll =>
    simp only [event] at h
    split at h
    · rename_i hl
      cases h
      exact reading_moves hl
    · cases h
  | line =>
    simp only [event] at h
    split at h
    · rename_i hl hraw
      cases h
      exact consume_moves hl hraw
    · cases h
  | eof =>
    simp only [event] at h
    split at h
    · rename_i hc
      cases h
      have hends : MayEnd s (if s.h.stopRequested then .stopped else .cleanEof) := by
        cases hst : s.h.stopRequested
        · exact ⟨hst, hc.2⟩
        · exact hst
      exact finish_moves hc.1 hends
    · cases h
  | readError e =>
    simp only [event] at h
    split at h
    · rename_i hc
      cases h
      exact finish_moves hc.1 trivial
    · cases h
  | resume =>
    simp only [event] at h
    split at h
    · cases h
    · rename_i hfull
      have hfull : s.full env = false := by simpa using hfull
      split at h
      · rename_i e hl
        cases h
        have := deliver_moves (e := e) hfull
        rwa [St.with_loop hl] at this
      · rename_i hl
        cases h
        exact .single (.close s hl hfull)
      · cases h

section Move

variable {s s' : St} (h : Move env s s')

include h

theorem Move.marks : s'.marks = s.marks := by cases h <;> rfl
theorem Move.canaryIds : s'.canaryIds = s.canaryIds := by cases h <;> rfl
theorem Move.stopRequested : s'.h.stopRequested = s.h.stopRequested := by cases h <;> simp [Loop.close]

theorem Move.collected : s.collected <+: s'.collected := by
  cases h <;> first | exact List.prefix_rfl | exact List.prefix_append _ _

theorem Move.seen : s.h.seenTraceIds <+: s'.h.seenTraceIds := by
  cases h with
  | parsed p line e _ _ _ => exact Harvester.seen_prefix_recordId e s.h
  | unparsed p line _ _ _ => exact (Harvester.recordUnparsed_seen _ _).symm ▸ List.prefix_rfl
  | finish st err _ _ => exact (Harvester.endAs_seen _ _).symm ▸ List.prefix_rfl
  | _ => exact List.prefix_rfl

/-- The state leaves `running`, and never comes back to it. -/
theorem Move.state (hs : s.h.state ≠ .running) : s'.h.state = s.h.state := by
  cases h with
  | parsed p line e _ _ _ => exact Harvester.recordId_state _ _
  | unparsed p line _ _ _ => exact Harvester.recordUnparsed_state _ _
  | finish st err _ _ => simp [Harvester.endAs, hs]
  | _ => rfl

/-- A loop that has not started or has ended does nothing. -/
theorem Move.quiet (hl : s.loop = .idle ∨ s.loop = .done) :
    s'.loop = s.loop ∧ s'.puts = s.puts ∧ s'.collected = s.collected ∧ s'.h = s.h := by
  have hne : ∀ {pc : LoopPc}, s.loop = pc → pc = .idle ∨ pc = .done := fun h => h ▸ hl
  cases h with
  | begin h => rcases hne h with h | h <;> cases h
  | blank p h => rcases hne h.1 with h | h <;> cases h
  | unparsed p line h _ _ => rcases hne h.1 with h | h <;> cases h
  | parsed p line e h _ _ => rcases hne h.1 with h | h <;> cases h
  | deliver e h _ => rcases hne h with h | h <;> cases h
  | finish st err h _ => rcases hne h with h | h <;> cases h
  | close h _ => rcases hne h with h | h <;> cases h
  | _ => exact ⟨rfl, rfl, rfl, rfl⟩

end Move

theorem moves_keep {P : St → Prop} (hP : ∀ s s', P s → Move env s s' → P s') {s t : St} (h : Moves env s t) (hs : P s) :
    P t := by
  induction h with
  | refl => exact hs
  | tail _ hmove ih => exact hP _ _ ih hmove

/-- What every move keeps is stable. -/
theorem stable_of_moves {P : St → Prop} (hP : ∀ s s', P s → Move env s s' → P s') : Stable (world env) P :=
  fun _ _ _ hs he => moves_keep hP (event_moves he) hs

/-- `cancel` ends a loop that is not inside its `try`; otherwise the loop turns to its
    last `None`. -/
theorem cancel_cases (s : St) :
    ((s.loop = .idle ∨ s.loop = .done) ∧ Loop.cancel env s = s) ∨
      ((s.loop = .scheduled ∨ s.loop = .closing) ∧ Loop.cancel env s = { s with loop := .done }) ∨
        ((s.loop = .reading ∨ ∃ e, s.loop = .putting e) ∧
          Moves env { s with h := { s.h with state := .stopped }, loop := .closing } (Loop.cancel env s)) := by
  unfold Loop.cancel
  cases hl : s.loop with
  | idle => exact .inl ⟨.inl rfl, rfl⟩
  | done => exact .inl ⟨.inr rfl, rfl⟩
  | scheduled => exact .inr (.inl ⟨.inl rfl, rfl⟩)
  | closing => exact .inr (.inl ⟨.inr rfl, rfl⟩)
  | reading => exact .inr (.inr ⟨.inl rfl, closing_moves { s with h := { s.h with state := .stopped } }⟩)
  | putting e => exact .inr (.inr ⟨.inr ⟨e, rfl⟩, closing_moves { s with h := { s.h with state := .stopped } }⟩)

end Nse
