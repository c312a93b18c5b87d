/-
  Nse.Core.Sentinel — the `None` that ends the stream.

  The read loop puts its events and, when it ends, one `None`; the pipeline puts its own
  events, and a `None` of its own on every path that does not end normally. On an unbounded
  queue the two agree, one `None` after everything the returned list holds, in two kinds of
  runs (`one_sentinel_last`): those that fail before the monitor starts, and those that end
  normally with nothing to complain about. In any other run the read loop's `None` is not
  the last item or not the only one: a consumer that stops there misses the health error of
  an unparsed line (`a_health_error_comes_after_the_sentinel`). `Nse.Core.Consumer` says what
  the environment has to do for such a run.
-/

import Nse.Core.Closing
import Nse.Core.Rehearsal

namespace Nse

open Coroutine
open Pipeline (ListRef)

/-! ## The stream -/

/-- Every item put so far. -/
def St.items (s : St) : List (Option TraceEvent) := s.puts.map (·.2)

/-- What was put is what was collected. -/
def Synced (s : St) : Prop := s.items = s.collected.map some

/-- What was put is what was collected, and then one `None`. -/
def Ended (s : St) : Prop := s.items = s.collected.map some ++ [none]

/-- The read loop has not begun to end. -/
def Running (s : St) : Prop :=
  (s.loop = .scheduled ∨ s.loop = .reading ∨ ∃ e, s.loop = .putting e) ∧ s.h.state = .running ∧ Synced s

/-- The read loop ended although nobody had asked it to, or it crashed. -/
def Spoiled (s : St) : Prop :=
  (s.loop = .closing ∨ s.loop = .done) ∧ (s.h.state = .timeout ∨ s.h.state = .cleanEof ∨ s.h.state = .error)

/-- The loop on its way out, once it was asked to stop. -/
def Leaving (s : St) : Prop :=
  (s.loop = .closing ∧ s.h.state = .stopped ∧ Synced s) ∨ (s.loop = .done ∧ s.h.state = .stopped ∧ Ended s)

/-- The loop waits for nothing but lines. -/
def Unblocked (s : St) : Prop := s.loop = .idle ∨ s.loop = .scheduled ∨ s.loop = .reading ∨ s.loop = .done

/-- The loop has run. -/
def Awake (s : St) : Prop := s.loop ≠ .idle ∧ s.loop ≠ .scheduled

/-- No read loop was started, and nothing was put. -/
def Untouched (s : St) : Prop := s.loop = .idle ∧ s.puts = [] ∧ s.collected = []

variable [U : PyStr.Unicode] {env : Env}

/-- Nobody cancels the run, the pipeline puts `None` only where no read loop was ever
    started, and the closed harvester has nothing to complain about. -/
structure Streaming (s : St) (a : Req) (r : Except PyExc (Reply a)) : Prop where
  quiet : cancels s a r = false
  sentinel : a = .put none → s.loop = .idle
  healthy : a = .healthErrors → s.h.healthErrors = []

theorem streaming_quiet : Quiet Streaming := fun _ _ _ h => h.quiet

/-! ## What the read loop does to it -/

section Move

variable {s s' : St}

/-- A running loop keeps putting what it collects, until it ends for a reason. -/
theorem Move.running (hm : Move env s s') (h : Running s) :
    Running s' ∨ ∃ st, MayEnd s st ∧ s'.loop = .closing ∧ s'.h.state = st ∧ Synced s' := by
  obtain ⟨hl, hst, hsync⟩ := h
  cases hm with
  | tick ms => exact .inl ⟨hl, hst, hsync⟩
  | write p line _ _ _ => exact .inl ⟨hl, hst, hsync⟩
  | exit _ => exact .inl ⟨hl, hst, hsync⟩
  | take _ _ => exact .inl ⟨hl, hst, hsync⟩
  | begin _ => exact .inl ⟨.inr (.inl rfl), hst, hsync⟩
  | blank p _ => exact .inl ⟨hl, hst, hsync⟩
  | unparsed p line _ _ _ => exact .inl ⟨hl, (Harvester.recordUnparsed_state _ _).trans hst, hsync⟩
  | parsed p line e _ _ _ => exact .inl ⟨.inr (.inr ⟨e, rfl⟩), (Harvester.recordId_state _ _).trans hst, hsync⟩
  | deliver e _ _ =>
    refine .inl ⟨.inr (.inl rfl), hst, ?_⟩
    rw [Synced, St.items] at hsync ⊢
    simp [hsync]
  | finish st err _ hend => exact .inr ⟨st, hend, rfl, by simp [Harvester.endAs, hst], hsync⟩
  | close hclosing _ => rcases hl with h | h | ⟨e, h⟩ <;> rw [h] at hclosing <;> cases hclosing

/-- A loop on its way out ends. -/
theorem Move.ending (hm : Move env s s') (h : s.loop = .closing ∨ s.loop = .done) :
    s'.h.state = s.h.state ∧
      ((s'.loop = s.loop ∧ s'.puts = s.puts ∧ s'.collected = s.collected) ∨
        (s.loop = .closing ∧ s'.loop = .done ∧ s'.items = s.items ++ [none] ∧ s'.collected = s.collected)) := by
  have hne : ∀ {pc : LoopPc}, s.loop = pc → pc = .closing ∨ pc = .done := fun hpc => hpc ▸ h
  cases hm with
  | begin h => rcases hne h with h | h <;> cases h
  | blank p h => rcases hne h.1 with h | h <;> cases h
  | unparsed p line h _ _ => rcases hne h.1 with h | h <;> cases h
  | parsed p line e h _ _ => rcases hne h.1 with h | h <;> cases h
  | deliver e h _ => rcases hne h with h | h <;> cases h
  | finish st err h _ => rcases hne h with h | h <;> cases h
  | close hl _ => exact ⟨rfl, .inr ⟨hl, rfl, by simp [St.items, Loop.close], rfl⟩⟩
  | _ => exact ⟨rfl, .inl ⟨rfl, rfl, rfl⟩⟩

theorem Move.spoiled (hm : Move env s s') (h : Spoiled s) : Spoiled s' := by
  obtain ⟨hst, ⟨hl, -⟩ | ⟨-, hl, -⟩⟩ := hm.ending h.1
  · exact ⟨hl ▸ h.1, hst ▸ h.2⟩
  · exact ⟨.inr hl, hst ▸ h.2⟩

theorem Move.leaving (hm : Move env s s') (h : Leaving s) : Leaving s' := by
  rcases h with ⟨hl, hstate, hsync⟩ | ⟨hl, hstate, hend⟩
  · obtain ⟨hst, ⟨hl', hputs, hcol⟩ | ⟨-, hl', hitems, hcol⟩⟩ := hm.ending (.inl hl)
    · exact .inl ⟨hl'.trans hl, hst.trans hstate, by rw [Synced, St.items, hputs, hcol]; exact hsync⟩
    · exact .inr ⟨hl', hst.trans hstate, by rw [Ended, hitems, hcol, hsync]⟩
  · obtain ⟨hst, ⟨hl', hputs, hcol⟩ | ⟨hclosing, -⟩⟩ := hm.ending (.inr hl)
    · exact .inr ⟨hl'.trans hl, hst.trans hstate, by rw [Ended, St.items, hputs, hcol]; exact hend⟩
    · rw [hl] at hclosing
      cases hclosing

theorem Move.awake (hm : Move env s s') (h : Awake s) : Awake s' := by
  cases hm <;> first | exact h | simp [Awake, Loop.close]

/-- While nobody asks it to stop, the loop runs or the run is spoiled. -/
theorem Move.live (hm : Move env s s') (h : s.h.stopRequested = false ∧ (Running s ∨ Spoiled s)) :
    s'.h.stopRequested = false ∧ (Running s' ∨ Spoiled s') := by
  refine ⟨hm.stopRequested.trans h.1, ?_⟩
  rcases h.2 with hrun | hsp
  · rcases hm.running hrun with hrun | ⟨st, hend, hl, rfl, -⟩
    · exact .inl hrun
    · right
      refine ⟨.inl hl, ?_⟩
      cases hst : s'.h.state <;> rw [hst] at hend <;> simp_all [MayEnd]
  · exact .inr (hm.spoiled hsp)

/-- Once it has been asked to stop, it leaves. -/
theorem Move.draining (hm : Move env s s') (h : Running s ∨ Leaving s ∨ Spoiled s) :
    Running s' ∨ Leaving s' ∨ Spoiled s' := by
  rcases h with hrun | hleave | hsp
  · rcases hm.running hrun with hrun | ⟨st, hend, hl, rfl, hsync⟩
    · exact .inl hrun
    · right
      cases hst : s'.h.state with
      | stopped => exact .inl (.inl ⟨hl, hst, hsync⟩)
      | timeout => exact .inr ⟨.inl hl, .inl hst⟩
      | cleanEof => exact .inr ⟨.inl hl, .inr (.inl hst)⟩
      | error => exact .inr ⟨.inl hl, .inr (.inr hst)⟩
      | notStarted => rw [hst] at hend; exact hend.elim
      | running => rw [hst] at hend; exact hend.elim
  · exact .inr (.inl (hm.leaving hleave))
  · exact .inr (.inr (hm.spoiled hsp))

end Move

section Unblocked

variable (h₀ : env.maxsize = 0)

include h₀

omit U in
theorem not_full (s : St) : s.full env = false := by simp [St.full, h₀]

omit U in
theorem unblocked_finish (st : HarvestState) (s : St) : Unblocked (Loop.finish env st s) := by
  unfold Loop.finish
  simp only [not_full h₀, Bool.false_eq_true, if_false]
  exact .inr (.inr (.inr rfl))

omit U in
theorem unblocked_top (s : St) : Unblocked (Loop.top env s) := by
  unfold Loop.top
  split
  · exact unblocked_finish h₀ _ s
  · exact .inr (.inr (.inl rfl))

theorem unblocked_consume (raw : String) (s : St) : Unblocked (Loop.consume env raw s) := by
  unfold Loop.consume
  dsimp only
  split
  · exact unblocked_top h₀ _
  · split
    · exact unblocked_top h₀ _
    · unfold Loop.putEvent
      simp only [not_full h₀, Bool.false_eq_true, if_false]
      exact unblocked_top h₀ _
    · exact unblocked_finish h₀ _ _

/-- On an unbounded queue the loop never waits for room. -/
theorem unblocked_stable : Stable (world env) Unblocked := by
  intro s e s' hs he
  have he : event env s e = some s' := he
  cases e with
  | tick ms => cases he; exact hs
  | write p line =>
    simp only [event] at he
    split at he
    · cases he; exact hs
    · cases he
  | exit =>
    simp only [event] at he
    split at he
    · cases he; exact hs
    · cases he
  | take =>
    simp only [event] at he
    split at he
    · cases he; exact hs
    · cases he
  | begin =>
    simp only [event] at he
    split at he
    · cases he; exact unblocked_top h₀ _
    · cases he
  | poll =>
    simp only [event] at he
    split at he
    · cases he; exact unblocked_top h₀ _
    · cases he
  | line =>
    simp only [event] at he
    split at he
    · cases he; exact unblocked_consume h₀ _ s
    · cases he
  | eof =>
    simp only [event] at he
    split at he
    · cases he; exact unblocked_finish h₀ _ _
    · cases he
  | readError e =>
    simp only [event] at he
    split at he
    · cases he; exact unblocked_finish h₀ _ _
    · cases he
  | resume =>
    simp only [event, not_full h₀, Bool.false_eq_true, if_false] at he
    split at he
    · cases he; exact unblocked_top h₀ _
    · cases he; exact .inr (.inr (.inr rfl))
    · cases he

end Unblocked

/-! ## While the monitor runs -/

/-- Requests that neither touch the stream nor end the read loop. -/
def Req.listening : Req → Prop
  | .collect _ | .put _ | .stop | .cancelTask | .setStopped | .reset | .launch _ => False
  | _ => True

/-- The monitor runs, nobody asked it to stop, and the stream is in order unless the loop
    ended too early. -/
structure Flowing (s : St) : Prop where
  live : s.h.stopRequested = false ∧ (Running s ∨ Spoiled s)
  awake : Awake s
  unblocked : Unblocked s

/-- The monitor was asked to stop. -/
structure Draining (s : St) : Prop where
  leaving : Running s ∨ Leaving s ∨ Spoiled s
  awake : Awake s
  unblocked : Unblocked s

/-- The harvester is closed, and the stream ends with its only `None`. -/
def Finished (s : St) : Prop := Closed s ∧ Ended s

omit U in
theorem Flowing.draining {s : St} (h : Flowing s) : Draining s :=
  ⟨h.live.2.imp_right .inr, h.awake, h.unblocked⟩

section Flowing

variable (h₀ : env.maxsize = 0) {s : St} {testId : String}

omit U in
theorem Req.aside.listening {a : Req} (h : a.aside) : a.listening := by
  cases a <;> first | exact h | trivial

omit U in
theorem Req.sending.listening {which : Packet → Prop} {a : Req} (h : a.sending which) : a.listening := by
  cases a <;> first | exact h | trivial

theorem untouched_kept : Kept env (fun a => a.spawning) Untouched := by
  refine ⟨fun s s' h hm => ?_, fun s a r ha h _ => spawning_effect ha s r ▸ h⟩
  obtain ⟨hl, hputs, hcol, -⟩ := hm.quiet (.inl h.1)
  exact ⟨hl.trans h.1, hputs.trans h.2.1, hcol.trans h.2.2⟩

theorem finished_kept : Kept env Req.aside Finished := by
  refine ⟨fun s s' h hm => ?_, fun s a r ha h _ => spawning_effect ha.spawning s r ▸ h⟩
  obtain ⟨hl, hputs, hcol, hh⟩ := hm.quiet h.1.2
  refine ⟨⟨hh ▸ h.1.1, hl ▸ h.1.2⟩, ?_⟩
  rw [Ended, St.items, hputs, hcol]
  exact h.2

include h₀

theorem flowing_lasting : Lasting env Req.listening Flowing := by
  refine ⟨fun s e s' h he => ?_, fun s a r ha h _ => ?_⟩
  · have hlive := stable_of_moves (P := fun t => (t.h.stopRequested = false ∧ (Running t ∨ Spoiled t)) ∧ Awake t)
      (fun t t' ht (hm : Move env t t') => ⟨hm.live ht.1, hm.awake ht.2⟩) s e s' ⟨h.live, h.awake⟩ he
    exact ⟨hlive.1, hlive.2, unblocked_stable h₀ s e s' h.unblocked he⟩
  · cases a with
    | run c =>
      cases r with
      | ok _ => exact ⟨h.live, h.awake, h.unblocked⟩
      | error e =>
        simp only [effect]
        split <;> exact ⟨h.live, h.awake, h.unblocked⟩
    | _ => first | exact False.elim ha | (cases r <;> exact ⟨h.live, h.awake, h.unblocked⟩)

theorem draining_closes : Closes env Draining := by
  refine ⟨⟨fun s e s' h he => ?_, fun s a r ha h hr => ?_⟩, fun s h hclosed hst => ?_⟩
  · have hover := stable_of_moves (P := fun t => (Running t ∨ Leaving t ∨ Spoiled t) ∧ Awake t)
      (fun t t' ht (hm : Move env t t') => ⟨hm.draining ht.1, hm.awake ht.2⟩) s e s' ⟨h.leaving, h.awake⟩ he
    exact ⟨hover.1, hover.2, unblocked_stable h₀ s e s' h.unblocked he⟩
  · cases a with
    | cancelTask =>
      rw [effect_cancelTask]
      unfold Loop.cancel
      rcases h.unblocked with hl | hl | hl | hl
      · exact absurd hl h.awake.1
      · exact absurd hl h.awake.2
      · -- a loop that is cancelled puts its `None` at once
        simp only [hl, not_full h₀, Bool.false_eq_true, if_false]
        refine ⟨.inr (.inl (.inr ⟨rfl, rfl, ?_⟩)), ⟨by simp [Loop.close], by simp [Loop.close]⟩, .inr (.inr (.inr rfl))⟩
        rcases h.leaving with ⟨-, -, hsync⟩ | (⟨hc, -⟩ | ⟨hc, -⟩) | ⟨hc, -⟩
        · rw [Synced, St.items] at hsync
          simp [Ended, St.items, Loop.close, hsync]
        · rw [hl] at hc
          cases hc
        · rw [hl] at hc
          cases hc
        · simp [hl] at hc
      · simp only [hl]
        exact h
    | _ => first | exact False.elim ha | (cases r <;> exact ⟨h.leaving, h.awake, h.unblocked⟩)
  · rcases hclosed.2 with hl | hl
    · exact absurd hl h.awake.1
    · rcases h.leaving with ⟨hrun, -⟩ | hleave | ⟨-, hsp⟩
      · simp [hl] at hrun
      · rcases hleave with ⟨-, hst', -⟩ | ⟨-, hst', -⟩ <;> rw [hst] at hst' <;> cases hst'
      · simp [hst] at hsp

/-- An event of the pipeline, put while the monitor runs. -/
theorem flowing_emitEvent {e : TraceEvent} (hs : Flowing s) :
    EndsIf env Streaming (fun _ => Flowing) (fun _ _ => False) (Pipeline.emitEvent (some e)) s := by
  have hcollect : EndsIf env Streaming (fun _ t => t = { s with collected := s.collected ++ [e] }) (fun _ _ => False)
      (perform (.collect e)) s := endsIf_now rfl (fun _ _ _ => rfl) fun _ hr _ => by cases hr
  refine wp_seq hcollect (fun _ t ht => ?_) fun _ _ h => h
  subst ht
  have hroom : ∀ t : St, parked env t (.put (some e)) = false := fun t => not_full h₀ t
  refine endsIf_now (hroom _) (fun _ _ _ => ⟨⟨hs.live.1, hs.live.2.imp_left fun h => ⟨h.1, h.2.1, ?_⟩⟩,
    hs.awake, hs.unblocked⟩)
    fun _ hr _ => ?_
  · have hsync := h.2.2
    rw [Synced, St.items] at hsync ⊢
    simp [effect, hsync]
  · simp [allows, not_full h₀, orRaises] at hr

end Flowing

/-! ## The steps of a run -/

section Steps

variable (h₀ : env.maxsize = 0) {s : St} {cfg : Pipeline.Config} {req : TestRequest}
    {c : NetnsController} {testId : String}

/-- What an exception of the `try` block leaves for its handler. -/
def Interrupted (s : St) : Prop := Untouched s ∨ Awake s

theorem untouched_only {α : Type} {x : Prog α} (hx : Only Req.spawning x) (hs : Untouched s) :
    EndsIf env Streaming (fun _ => Untouched) (fun _ => Interrupted) x s :=
  Ends.endsIf (post_mono (untouched_kept.ends hx hs) (fun _ _ h => h) fun _ _ h => .inl h)

include h₀

theorem flowing_only {α : Type} {x : Prog α} (hx : Only Req.listening x) (hs : Flowing s) :
    EndsIf env Streaming (fun _ => Flowing) (fun _ => Interrupted) x s :=
  Ends.endsIf (post_mono ((flowing_lasting h₀).ends hx hs) (fun _ _ h => h) fun _ _ h => .inr h.awake)

theorem flowing_startMonitor (hs : Untouched s) :
    EndsIf env Streaming (fun _ => Flowing) (fun _ => Interrupted) (Pipeline.startMonitor cfg req testId c) s := by
  have hfresh : Kept env Req.aside fun t => Untouched t ∧ t.h.stopRequested = false := by
    refine ⟨fun t t' h hm => ?_, fun t a r ha h _ => spawning_effect ha.spawning t r ▸ h⟩
    exact ⟨untouched_kept.move t t' h.1 hm, hm.stopRequested.trans h.2⟩
  have hreset : ∀ {u : St}, Untouched u → EndsIf env Streaming (fun _ t => Untouched t ∧ t.h.stopRequested = false)
      (fun _ => Interrupted) (perform .reset) u := fun hu =>
    endsIf_now rfl (fun _ _ _ => ⟨hu, rfl⟩) fun _ hr _ => by cases hr
  have hspawn : ∀ {u : St} {argv : List Arg}, Untouched u ∧ u.h.stopRequested = false →
      EndsIf env Streaming (fun _ t => Untouched t ∧ t.h.stopRequested = false) (fun _ => Interrupted)
        (perform (.spawnMonitor argv)) u := fun hu =>
    Ends.endsIf (post_mono (hfresh.ends (only_request (by trivial)) hu) (fun _ _ h => h) fun _ _ h => .inl h.1)
  have hlaunch : ∀ {u : St} {ms : Nat}, Untouched u ∧ u.h.stopRequested = false →
      EndsIf env Streaming (fun _ t => (t.h.stopRequested = false ∧ (Running t ∨ Spoiled t)) ∧
        Unblocked t ∧ t.loop ≠ .idle)
        (fun _ => Interrupted) (perform (.launch ms)) u := by
    intro u ms hu
    refine endsIf_now rfl (fun _ _ _ => ⟨⟨hu.2, .inl ⟨.inl rfl, rfl, ?_⟩⟩, .inr (.inl rfl), by simp [effect]⟩)
      fun _ hr _ => by cases hr
    simp [Synced, St.items, effect, hu.1.2.1, hu.1.2.2]
  have hready : ∀ {u : St}, (u.h.stopRequested = false ∧ (Running u ∨ Spoiled u)) ∧ Unblocked u ∧ u.loop ≠ .idle →
      EndsIf env Streaming (fun _ => Flowing) (fun _ => Interrupted) (perform (.waitReady 2000)) u := by
    intro u hu
    have hstable : Stable (world env) fun t =>
        (t.h.stopRequested = false ∧ (Running t ∨ Spoiled t)) ∧ Unblocked t ∧ t.loop ≠ .idle := by
      refine (stable_of_moves fun _ _ ht hm => hm.live ht).and
        ((unblocked_stable h₀).and (stable_of_moves fun t t' ht hm => ?_))
      cases hm <;> first | exact ht | simp [Loop.close]
    refine endsIf_perform (a := .waitReady 2000) hstable hu (fun t v ht hr _ => ?_) fun t e ht hr _ => ?_
    · have hne : t.loop ≠ .scheduled := by
        simp only [allows, Bool.and_eq_true, decide_eq_true_eq] at hr
        exact hr.1
      exact ⟨ht.1, ⟨ht.2.2, hne⟩, ht.2.1⟩
    · have hne : t.loop ≠ .scheduled := by
        simp only [allows, Bool.and_eq_true, decide_eq_true_eq] at hr
        exact hr.1
      exact .inr ⟨ht.2.2, hne⟩
  refine wp_seq (untouched_only (only_mono (fun _ => Req.aside.spawning) (only_load _ _ _)) hs)
    (fun _ u hu => ?_) fun _ _ h => h
  refine wp_seq (V := fun _ t => (t.h.stopRequested = false ∧ (Running t ∨ Spoiled t)) ∧ Unblocked t ∧ t.loop ≠ .idle)
    (X := fun _ => Interrupted) ?_ (fun _ v hv => ?_) fun _ _ h => h
  · refine wp_seq (hreset hu) (fun _ v hv => ?_) fun _ _ h => h
    exact wp_seq (hspawn hv) (fun _ _ h => hlaunch h) fun _ _ h => h
  · exact wp_seq (hready hv) (fun _ _ h => h) fun _ _ h => h

theorem flowing_emitOracleError {message : String} (hs : Flowing s) :
    EndsIf env Streaming (fun _ => Flowing) (fun _ => Interrupted) (Pipeline.emitOracleError testId message) s :=
  wp_seq (flowing_only h₀ (only_request (by trivial)) hs)
    (fun _ _ h => post_mono (flowing_emitEvent h₀ h) (fun _ _ h => h) fun _ _ h => h.elim) fun _ _ h => h

theorem flowing_checkLiveness (hs : Flowing s) :
    EndsIf env Streaming (fun _ => Flowing) (fun _ => Interrupted) (Pipeline.checkLiveness cfg req testId c) s := by
  have hask : ∀ {a : Req}, a.listening → Only Req.listening (perform a) := only_request
  have hprobe : Only Req.listening
      (Pipeline.probeOracle cfg (Pipeline.target req testId c) .liveness (Pipeline.canarySpec req.firstPacket)) :=
    only_probeOracle cfg _ _ (fun _ => Req.sending.listening) fun _ => trivial
  refine wp_seq (flowing_only h₀ (hask (by trivial)) hs) (fun before u hu => ?_) fun _ _ h => h
  refine wp_seq (flowing_only h₀ hprobe hu) (fun alive u hu => ?_) fun _ _ h => h
  refine wp_seq (endsIf_ifSo (fun _ => flowing_emitOracleError h₀ hu) fun _ => hu) (fun _ u hu => ?_) fun _ _ h => h
  refine wp_seq (flowing_only h₀ (hask (by trivial)) hu) (fun now u hu => ?_) fun _ _ h => h
  exact flowing_only h₀ (hask (by trivial)) hu

theorem flowing_reportConntrack (hs : Flowing s) :
    EndsIf env Streaming (fun _ => Flowing) (fun _ => Interrupted) (Pipeline.reportConntrack req testId c) s := by
  refine wp_seq (flowing_only h₀ (only_mono (fun _ => Req.aside.listening) (only_readConntrackTable _ _)) hs)
    (fun entries u hu => ?_) fun _ _ h => h
  refine wp_seq (flowing_only h₀ (only_request (by trivial)) hu) (fun _ u hu => ?_) fun _ _ h => h
  refine wp_forEach (P := fun _ => Flowing) (X := fun _ => Interrupted) (fun ct rest v hv => ?_) (fun _ h => h)
    (fun _ _ h => h) hu
  exact post_mono (flowing_emitEvent h₀ hv) (fun _ _ h => h) fun _ _ h => h.elim

/-- With no complaint to report, the loop's `None` is the last thing put. -/
theorem finished_reportHealth (hs : Flowing s) :
    EndsIf env Streaming (fun _ => Finished) (fun _ => Interrupted) (Pipeline.reportHealth testId) s := by
  have hask : ∀ {u : St}, Draining u ∧ Closed u →
      EndsIf env Streaming (fun problems t => problems = [] ∧ Finished t) (fun _ => Interrupted)
        (perform .healthErrors) u := by
    intro u hu
    refine endsIf_now rfl (fun problems hr hans => ?_) fun _ hr _ => by cases hr
    have hproblems : problems = u.h.healthErrors := of_decide_eq_true hr
    have hnone := hans.healthy rfl
    refine ⟨hproblems.trans hnone, hu.2, ?_⟩
    have hdone : u.loop = .done := hu.2.2.resolve_left hu.1.awake.1
    rcases hu.1.leaving with ⟨hl, -⟩ | (⟨hl, -⟩ | ⟨-, -, hend⟩) | ⟨-, hsp⟩
    · simp [hdone] at hl
    · rw [hdone] at hl
      cases hl
    · exact hend
    · exact absurd hnone (Harvester.healthErrors_ne_nil hsp)
  have hrest : ∀ {u : St}, Finished u → EndsIf env Streaming (fun _ => Finished) (fun _ => Interrupted)
      (do let st ← perform .status; ifSo (st ≠ .error) (perform (.setStatus .done)) : Prog Unit) u := by
    intro u hu
    have hstatus : EndsIf env Streaming (fun _ => Finished) (fun _ => Interrupted) (perform .status) u :=
      endsIf_now rfl (fun _ _ _ => hu) fun _ hr _ => by cases hr
    refine wp_seq hstatus (fun st v hv => endsIf_ifSo (fun _ => ?_) fun _ => hv) fun _ _ h => h
    exact endsIf_now rfl (fun _ _ _ => hv) fun _ hr _ => by cases hr
  refine wp_seq (endsIf_aclose streaming_quiet (draining_closes h₀) hs.draining) (fun _ u hu => ?_) fun _ _ h => h.elim
  refine wp_seq (hask hu) (fun problems v hv => ?_) fun _ _ h => h
  obtain ⟨rfl, hv⟩ := hv
  exact hrest hv

theorem finished_measure (hs : Flowing s) :
    EndsIf env Streaming (fun r t => r = none ∧ Finished t) (fun _ => Interrupted)
      (Pipeline.measure cfg req testId c) s := by
  have hask : ∀ {a : Req}, a.listening → Only Req.listening (perform a) := only_request
  refine wp_seq (flowing_only h₀ (hask (by trivial)) hs) (fun ids u hu => ?_) fun _ _ h => h
  refine wp_seq (flowing_only h₀ (hask (by trivial)) hu) (fun _ u hu => ?_) fun _ _ h => h
  refine wp_seq (flowing_only h₀ (only_mono (fun _ => Req.sending.listening) (only_injectFrom cfg _ _ _)) hu)
    (fun _ u hu => ?_) fun _ _ h => h
  refine wp_seq (flowing_only h₀ (hask (by trivial)) hu) (fun _ u hu => ?_) fun _ _ h => h
  refine wp_seq (flowing_checkLiveness h₀ hu) (fun _ u hu => ?_) fun _ _ h => h
  refine wp_seq (flowing_reportConntrack h₀ hu) (fun _ u hu => ?_) fun _ _ h => h
  exact wp_seq (finished_reportHealth h₀ hu) (fun _ _ h => ⟨rfl, h⟩) fun _ _ h => h

/-- The early return puts `None` beside a running loop, which is ruled out. -/
theorem finished_giveUp (hs : Flowing s) :
    EndsIf env Streaming (fun r t => r = none ∧ Finished t) (fun _ => Interrupted) (Pipeline.giveUp testId) s := by
  have hnone : ∀ {u : St}, Awake u → EndsIf env Streaming (fun _ _ => False) (fun _ => Interrupted)
      (Pipeline.emitEvent none) u := by
    intro u hu
    refine wp_request_now (a := Req.put none) ?_ trivial fun r t hr => ?_
    · exact Bool.eq_false_iff.mp (not_full h₀ u)
    · obtain ⟨-, hans⟩ := hr
      exact absurd (hans.sentinel rfl) hu.1
  refine wp_seq (flowing_emitOracleError h₀ hs) (fun _ u hu => ?_) fun _ _ h => h
  exact wp_seq (hnone hu.awake) (fun _ _ h => h.elim) fun _ _ h => h

theorem finished_body (hs : Untouched s) :
    EndsIf env Streaming (fun r t => r = none ∧ Finished t) (fun e t => e.isException = true ∧ Interrupted t)
      (Pipeline.body cfg req testId c) s := by
  refine endsIf_raises streaming_quiet (tame_body c req testId cfg) ?_
  have hprobe : Only Req.listening
      (Pipeline.probeOracle cfg (Pipeline.target req testId c) .readiness (Pipeline.canarySpec req.firstPacket)) :=
    only_probeOracle cfg _ _ (fun _ => Req.sending.listening) fun _ => trivial
  refine wp_seq (untouched_only (only_mono (fun _ => Req.aside.spawning) (only_setupTopology c req testId)) hs)
    (fun _ u hu => ?_) fun _ _ h => h
  refine wp_seq (untouched_only (only_spawnListeners c req testId) hu) (fun _ u hu => ?_) fun _ _ h => h
  refine wp_seq (flowing_startMonitor h₀ hu) (fun _ u hu => ?_) fun _ _ h => h
  refine wp_seq (flowing_only h₀ hprobe hu) (fun ready u hu => ?_) fun _ _ h => h
  cases ready with
  | true => exact finished_measure h₀ hu
  | false => exact finished_giveUp h₀ hu

/-- A handler's `None` is the only one where no read loop was started. -/
theorem finished_handle {e : PyExc} (he : e.isException = true) (hs : Interrupted s) :
    EndsIf env Streaming (fun r t => r = none ∧ Finished t) (fun _ _ => False) (Pipeline.handle testId e) s := by
  have hsure : ∀ {P Q : St → Prop} {a : Req} {u : St}, P u → (∀ t, parked env t a = false) →
      (∀ t e, allows env t a (.error e) = false) → (∀ t v, P t → Streaming t a (.ok v) → Q (effect env t a (.ok v))) →
      EndsIf env Streaming (fun _ => Q) (fun _ _ => False) (perform a) u := by
    intro P Q a u hu hnow hnone heff
    refine endsIf_now (hnow u) (fun v _ hans => heff u v hu hans) fun e hr _ => ?_
    rw [hnone u e] at hr
    cases hr
  have hroom : ∀ (item : Option TraceEvent) (t : St), parked env t (.put item) = false := fun _ t => not_full h₀ t
  have hput : ∀ (item : Option TraceEvent) (t : St) (e : PyExc), allows env t (.put item) (.error e) = false := by
    intro item t e
    simp [allows, not_full h₀, orRaises]
  have hclosing : Kept env Req.closing fun t => t.loop = .idle ∧ Ended t := by
    refine ⟨fun t t' ht hm => ?_, fun t a r ha ht _ => ?_⟩
    · obtain ⟨hl, hputs, hcol, -⟩ := hm.quiet (.inl ht.1)
      exact ⟨hl.trans ht.1, by rw [Ended, St.items, hputs, hcol]; exact ht.2⟩
    · cases a with
      | cancelTask =>
        have hsame : Loop.cancel env t = t := by
          unfold Loop.cancel
          rw [ht.1]
        rw [effect_cancelTask, hsame]
        exact ht
      | _ => first | exact False.elim ha | (cases r <;> exact ht)
  have hreport : ∀ m, EndsIf env Streaming (fun r t => r = none ∧ Finished t) (fun _ _ => False)
      (Pipeline.reportException testId m) s := by
    intro m
    refine wp_seq (hsure (Q := Interrupted) hs (fun _ => rfl) (fun _ _ => rfl) fun t _ ht _ => ht) (fun _ u hu => ?_)
      fun _ _ h => h
    refine wp_seq (V := fun _ t => (t.loop = .idle → Synced t) ) (X := fun _ _ => False) ?_
      (fun _ u hu => ?_) fun _ _ h => h
    · refine wp_seq (hsure (Q := fun t => t.loop = .idle → t.puts = [] ∧ t.collected =
        [Pipeline.errorEvent testId m]) hu
        (fun _ => rfl) (fun _ _ => rfl) fun t _ ht _ hidle => ?_) (fun _ v hv => ?_) fun _ _ h => h
      · rcases ht with ⟨-, hputs, hcol⟩ | hawake
        · exact ⟨hputs, by simp [effect, hcol]⟩
        · exact absurd hidle hawake.1
      · refine hsure (P := fun t => t.loop = .idle → t.puts = [] ∧ t.collected = [Pipeline.errorEvent testId m])
          (Q := fun t => t.loop = .idle → Synced t) hv (hroom _) (hput _) fun t _ ht _ hidle => ?_
        obtain ⟨hputs, hcol⟩ := ht hidle
        simp [Synced, St.items, effect, hputs, hcol]
    refine wp_seq (V := fun _ t => t.loop = .idle ∧ Ended t) (X := fun _ _ => False) ?_
      (fun _ u hu => ?_) fun _ _ h => h
    · refine hsure (P := fun t => t.loop = .idle → Synced t) (Q := fun t => t.loop = .idle ∧ Ended t) hu (hroom _)
        (hput _) fun t _ ht hans => ?_
      have hidle := hans.sentinel rfl
      have hsync := ht hidle
      refine ⟨hidle, ?_⟩
      rw [Synced, St.items] at hsync
      simp [Ended, St.items, effect, hsync]
    exact wp_seq (endsIf_aclose streaming_quiet hclosing.closes hu) (fun _ _ h => ⟨rfl, h.2, h.1.2⟩) fun _ _ h => h
  unfold Pipeline.handle
  split
  · exact hreport _
  · exact hreport _

theorem finished_run {controller : Option NetnsController} :
    EndsIf env Streaming (fun ref t => Finished t ∧ ∀ e ∈ ref.read t, e ∈ t.collected) (fun _ => Finished)
      (Pipeline.runTestPipeline cfg req controller testId) {} := by
  have hrest : ∀ {c : NetnsController} {u : St}, Untouched u →
      EndsIf env Streaming (fun ref t => Finished t ∧ ∀ e ∈ ref.read t, e ∈ t.collected) (fun _ => Finished)
        (Pipeline.runWith cfg req testId c) u := by
    intro c u hu
    have hstatus : EndsIf env Streaming (fun _ => Untouched) (fun _ _ => False) (perform (.setStatus .running)) u :=
      endsIf_now rfl (fun _ _ _ => hu) fun _ hr _ => by cases hr
    have hguarded : ∀ {v : St}, Untouched v →
        EndsIf env Streaming (fun r t => r = none ∧ Finished t) (fun _ => Finished)
        (Pipeline.guarded cfg req testId c) v := by
      intro v hv
      have htry : EndsIf env Streaming (fun r t => r = none ∧ Finished t) (fun _ _ => False)
          ((Pipeline.body cfg req testId c).tryCatch (Pipeline.handle testId)) v :=
        wp_try (finished_body h₀ hv) (fun _ _ h => h) fun e _ h => finished_handle h₀ h.1 h.2
      refine wp_finally htry (fun r w hw => ?_) fun _ _ h => h.elim
      obtain ⟨rfl, hw⟩ := hw
      exact Ends.endsIf (post_mono (finished_kept.ends (only_teardown req testId) hw)
        (fun _ _ h => ⟨rfl, h⟩) fun _ _ h => h)
    refine wp_seq hstatus (fun _ v hv => ?_) fun _ _ h => h.elim
    refine wp_seq (hguarded hv) (fun r w hw => ?_) fun _ _ h => h
    obtain ⟨rfl, hw⟩ := hw
    refine post_mono (ends_result w).endsIf (fun ref x hx => ?_) fun _ _ h => h.elim
    obtain ⟨rfl, rfl⟩ := hx
    refine ⟨hw, fun e he => ?_⟩
    unfold Pipeline.withoutCanaries at he
    split at he
    · exact he
    · exact (List.mem_filter.mp he).1
  cases controller with
  | some c => exact hrest ⟨rfl, rfl, rfl⟩
  | none =>
    refine wp_seq (endsIf_new streaming_quiet (untouched_kept.mono fun _ => Req.aside.spawning) ⟨rfl, rfl, rfl⟩)
      (fun _ _ h => hrest h) fun _ _ h => h.elim

/-- Every run that ends has put one `None`, after all it collected, and puts nothing more. -/
theorem ended_steps {controller : Option NetnsController} {c : Prog ListRef} {s t : St}
    (hrun : Steps (answering env Streaming) (Pipeline.runTestPipeline cfg req controller testId, {}) (c, s))
    (hend : (∃ ref, c = .ret ref) ∨ ∃ e, c = .throw e) (hafter : After (world env) s t) :
    ∃ events : List TraceEvent, t.items = events.map some ++ [none] ∧ ∀ ref, c = .ret ref →
      ∀ e ∈ ref.read t, e ∈ events := by
  have hw := wp_steps hrun (finished_run h₀)
  have hs : Finished s ∧ ∀ ref, c = .ret ref → ∀ e ∈ ref.read s, e ∈ s.collected := by
    rcases hend with ⟨ref, rfl⟩ | ⟨e, rfl⟩
    · exact ⟨hw.1, fun ref' h => by cases h; exact hw.2⟩
    · exact ⟨hw, nofun⟩
  obtain ⟨hputs, hcol⟩ := hs.1.1.after hafter
  refine ⟨s.collected, by rw [St.items, hputs]; exact hs.1.2, fun ref href e he => hs.2 ref href e ?_⟩
  cases ref with
  | collected =>
    rw [ListRef.read, hcol] at he
    exact he
  | fresh events => exact he

end Steps

/-- However such a run on an unbounded queue ends, exactly one `None` has been put, it is
    the last item, and every event of the returned list comes before it; and nothing is put
    afterwards. -/
theorem one_sentinel_last (h₀ : env.maxsize = 0) {cfg : Pipeline.Config} {req : TestRequest}
    {controller : Option NetnsController} {testId : String} {c : Prog ListRef} {s t : St}
    (hrun : Steps (answering env Streaming) (Pipeline.runTestPipeline cfg req controller testId, {}) (c, s))
    (hend : (∃ ref, c = .ret ref) ∨ ∃ e, c = .throw e) (hafter : After (world env) s t) :
    ∃ events : List TraceEvent, t.items = events.map some ++ [none] ∧ ∀ ref, c = .ret ref →
      ∀ e ∈ ref.read t, e ∈ events :=
  ended_steps h₀ hrun hend hafter

end Nse

namespace Nse

open Coroutine
open Pipeline (ListRef)

attribute [local instance] PyStr.Unicode.ascii

/-- Success, a `None` of the pipeline only before the loop is started, and a healthy harvester. -/
def streamingAnswer (s : St) (a : Req) (r : Except PyExc (Reply a)) : Bool :=
  (match r with | .ok _ => true | .error _ => false) && (!decide (a = .put none) || decide (s.loop = .idle)) &&
    (!decide (a = .healthErrors) || decide (s.h.healthErrors = []))

theorem streamingAnswer_streaming {s : St} {a : Req} {r : Except PyExc (Reply a)} (h : streamingAnswer s a r = true) :
    Streaming s a r := by
  simp only [streamingAnswer, Bool.and_eq_true, Bool.or_eq_true, Bool.not_eq_true', decide_eq_false_iff_not,
    decide_eq_true_eq] at h
  obtain ⟨⟨hok, hsentinel⟩, hhealthy⟩ := h
  refine ⟨?_, fun ha => hsentinel.resolve_left fun hne => hne ha, fun ha => hhealthy.resolve_left fun hne => hne ha⟩
  cases r with
  | ok v => rfl
  | error e => cases hok

theorem one_sentinel_last_sample : ∃ ref s,
    Steps (answering { maxsize := 0 } Streaming)
        (Pipeline.runTestPipeline {} sampleRequest none "a1b2c3d4e5f6", {}) (.ret ref, s) ∧
      ref.read s ≠ [] ∧
      ∃ events : List TraceEvent, s.items = events.map some ++ [none] ∧ ∀ e ∈ ref.read s, e ∈ events := by
  have hplay : Script.returned (fun ref s => decide (ref.read s ≠ []))
      (((obliging { maxsize := 0 }).guarded streamingAnswer fun _ _ => true).play 200
        (Pipeline.runTestPipeline {} sampleRequest none "a1b2c3d4e5f6") {}) = true := by
    decide +kernel
  have hfits : ((obliging { maxsize := 0 }).guarded streamingAnswer fun _ _ => true).Fits
      (answering { maxsize := 0 } Streaming) :=
    (schedule_fits _ obligingReply obligingEvents).guarded (fun _ _ _ => streamingAnswer_streaming) fun _ _ _ => trivial
  obtain ⟨ref, s, hrun, hp⟩ := Script.returned_steps hfits hplay
  obtain ⟨events, hitems, hread⟩ := one_sentinel_last rfl hrun (.inl ⟨ref, rfl⟩) .refl
  exact ⟨ref, s, hrun, of_decide_eq_true hp, events, hitems, hread ref rfl⟩

/-- One line the parser does not understand, while the run drains. -/
def garbled (s : St) : Req → List Ev
  | .sleep 300 => [.write (.foreign 0) "trace id f0 ip filter input", .line]
  | a => obligingEvents s a

/-- The health error of the garbled line is in the returned list and comes after the `None`
    of the read loop. -/
theorem a_health_error_comes_after_the_sentinel : ∃ ref s,
    Steps (world { maxsize := 0 }) (Pipeline.runTestPipeline {} sampleRequest none "a1b2c3d4e5f6", {}) (.ret ref, s) ∧
      ∃ e ∈ ref.read s, some e ∉ s.items.takeWhile (·.isSome) := by
  have hplay :
      Script.returned (fun ref s => (ref.read s).any fun e => !(s.items.takeWhile (·.isSome)).contains (some e))
      ((schedule { maxsize := 0 } obligingReply garbled).play 200
        (Pipeline.runTestPipeline {} sampleRequest none "a1b2c3d4e5f6") {}) = true := by
    decide +kernel
  obtain ⟨ref, s, hrun, hp⟩ := Script.returned_steps (schedule_fits _ _ _) hplay
  obtain ⟨e, he, hnot⟩ := List.any_eq_true.mp hp
  exact ⟨ref, s, hrun, e, he, by simpa using hnot⟩

end Nse
