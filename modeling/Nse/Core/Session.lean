/-
  Nse.Core.Session — a started harvester and the tasks that use it.

  Any number of tasks call `arm_event_signal`, `extend_deadline`, `stop` and `aclose` in any
  order, put items of their own on the queue, and take turns with the read loop, the
  monitor and the clock (`Nse.Lib.Pool`). `on_event` may raise on any event.

  Beside the state stands what nobody keeps: whether the read loop's task was cancelled and
  with which event in hand, how many events had been produced when the signal was armed,
  when the deadline was moved, when a stop was first requested and whether the monitor had
  exited then. It decides nothing (`steps_lift`).
-/

import Nse.Core.Footprints
import Nse.Lib.Pool

namespace Nse

open Coroutine
open Relation (ReflTransGen)

/-! ## Sessions -/

def LoopPc.live : LoopPc → Bool
  | .scheduled | .reading | .putting _ => true
  | .idle | .closing | .done => false

/-- The event the loop holds while it waits for room. -/
def LoopPc.inHand : LoopPc → List TraceEvent
  | .putting e => [e]
  | _ => []

def fromLoop : Producer × Option TraceEvent → Option TraceEvent
  | (.readLoop, some e) => some e
  | _ => none

def St.produced (s : St) : List TraceEvent := s.puts.filterMap fromLoop

structure Session where
  s : St := {}
  /-- The read loop's task was cancelled, and ends with `CancelledError`. -/
  cancelled : Bool := false
  /-- The event it held then. -/
  dropped : List TraceEvent := []
  /-- How many events had been produced when the signal was last cleared. -/
  armed : Nat := 0
  /-- When the loop was started and when the deadline was extended, and by how much. -/
  pace : List (Nat × Nat) := []
  /-- When a stop was first requested. -/
  stoppedAt : Option Nat := none
  /-- The monitor had exited by then. -/
  exitedAtStop : Bool := false

inductive SessionEv where
  | ev (e : Ev)
  | raising (exc : PyExc)

variable [U : PyStr.Unicode] (env : Env)

def Loop.deliverRaising (exc : PyExc) (e : TraceEvent) (s : St) : St :=
  finish env .error { s with
    puts := s.puts ++ [(.readLoop, some e)], h := { s.h with eventSignal := true, error := some exc.text }
    collected := s.collected ++ [e] }

/-- `on_event` raises on the event the loop holds, or on that of the next line. -/
def callbackRaises (exc : PyExc) (s : St) : Option St :=
  if s.full env ∨ exc.isException = false then none
  else
    match s.loop, s.out[s.nread]? with
    | .putting e, _ => some (Loop.deliverRaising env exc e s)
    | .reading, some (_, raw) =>
      let line := PyStr.strip raw
      if line = "" then none
      else
        (TraceParser.eventOf env.blind line).map fun e =>
          Loop.deliverRaising env exc e { s with nread := s.nread + 1, h := s.h.recordId e }
    | _, _ => none

namespace Session

def answered (σ : Session) (a : Req) (r : Except PyExc (Reply a)) : Session :=
  let τ := { σ with s := effect env σ.s a r }
  match a with
  | .reset => { τ with armed := σ.s.produced.length, stoppedAt := none, exitedAtStop := false }
  | .launch t => { τ with cancelled := false, dropped := [], pace := [(σ.s.clock, t)] }
  | .armEventSignal => { τ with armed := σ.s.produced.length }
  | .extendDeadline ms => { τ with pace := σ.pace ++ [(σ.s.clock, ms)] }
  | .stop =>
    match σ.stoppedAt with
    | none => { τ with stoppedAt := some σ.s.clock, exitedAtStop := σ.s.exited }
    | some _ => τ
  | .cancelTask =>
    if σ.s.loop.live then { τ with cancelled := true, dropped := σ.s.loop.inHand } else τ
  | _ => τ

def event (σ : Session) : SessionEv → Option Session
  | .ev e => (Nse.event env σ.s e).map fun s => { σ with s }
  | .raising exc => (callbackRaises env exc σ.s).map fun s => { σ with s }

end Session

def sessions : World Req Reply PyExc Session SessionEv where
  answer σ a r τ := allows env σ.s a r = true ∧ σ.answered env a r = τ
  event σ e τ := σ.event env e = some τ
  parked σ a := parked env σ.s a = true

def Session.started (clock timeout : Nat) : Session where
  s := { h := Harvester.launched clock timeout (Harvester.reset {}), loop := .scheduled, clock }
  pace := [(clock, timeout)]

/-! ## Calls -/

inductive Call where
  | arm
  | extend (ms : Nat)
  | stop
  | aclose (timeout : Nat)
  /-- Somebody else puts an item on the queue. -/
  | put (item : Option TraceEvent)

/-- The call; `aclose` returns the terminal state. -/
def Call.prog : Call → Prog (Option HarvestState)
  | .arm => do
    perform .armEventSignal
    pure none
  | .extend ms => do
    perform (.extendDeadline ms)
    pure none
  | .stop => do
    perform .stop
    pure none
  | .aclose timeout => do
    let st ← TraceHarvester.aclose timeout
    pure (some st)
  | .put item => do
    perform (.put item)
    pure none

def IsCall (c : Prog (Option HarvestState)) : Prop := ∃ call : Call, c = call.prog

def Req.ofCall : Req → Prop
  | .armEventSignal | .extendDeadline _ | .put _ => True
  | a => a.closing

omit U in
theorem Req.closing.ofCall {a : Req} (h : a.closing) : a.ofCall := by
  cases a <;> trivial

/-- Nobody cancels a task that waits: a `CancelledError` is that of the read loop's task. -/
def Uninterrupted (σ : Session) (a : Req) (r : Except PyExc (Reply a)) : Prop :=
  ∀ e, r = .error e → e.cls = .cancelledError → σ.s.loop = .done ∧ σ.cancelled = true

/-! ## Basics -/

variable {env}

theorem closing_moves_finish {s : St} {exc : PyExc} {e : TraceEvent} (hl : s.loop = .putting e)
    (hfull : s.full env = false) :
    Moves env s (Loop.deliverRaising env exc e s) := by
  have hfinish := @finish_moves U env { s with
    puts := s.puts ++ [(.readLoop, some e)], h := { s.h with eventSignal := true }
    collected := s.collected ++ [e], loop := .reading } .error (some exc.text) rfl trivial
  exact ReflTransGen.head (.deliver s e hl hfull) hfinish

theorem callbackRaises_moves {exc : PyExc} {s s' : St} (h : callbackRaises env exc s = some s') : Moves env s s' := by
  unfold callbackRaises at h
  split at h
  · cases h
  · rename_i hguard
    have hfull : s.full env = false := by
      rw [not_or] at hguard
      simpa using hguard.1
    split at h
    · rename_i e _ hl
      cases h
      exact closing_moves_finish hl hfull
    · rename_i p raw hl hraw
      dsimp only at h
      split at h
      · cases h
      · rename_i hne
        obtain ⟨e, he, rfl⟩ := Option.map_eq_some_iff.mp h
        have hparsed : Move env s _ := .parsed s p _ e ⟨hl, raw, hraw, rfl⟩ hne (TraceParser.eventOf_eq_some.mp he)
        exact ReflTransGen.head hparsed (closing_moves_finish
          (s := { s with nread := s.nread + 1, h := s.h.recordId e, loop := .putting e }) rfl hfull)
    · cases h

theorem Session.event_cases {σ τ : Session} {e : SessionEv} (h : σ.event env e = some τ) :
    Moves env σ.s τ.s ∧ τ = { σ with s := τ.s } := by
  cases e with
  | ev e =>
    obtain ⟨s, hs, rfl⟩ := Option.map_eq_some_iff.mp h
    exact ⟨event_moves hs, rfl⟩
  | raising exc =>
    obtain ⟨s, hs, rfl⟩ := Option.map_eq_some_iff.mp h
    exact ⟨callbackRaises_moves hs, rfl⟩

theorem Session.stable_of_moves {P : Session → Prop}
    (hP : ∀ (σ : Session) (s : St), P σ → Move env σ.s s → P { σ with s }) :
    Stable (sessions env) P := by
  intro σ e τ hσ he
  obtain ⟨hmoves, hτ⟩ := Session.event_cases he
  have hall : ∀ s, Moves env σ.s s → P { σ with s } := by
    intro s hs
    induction hs with
    | refl => exact hσ
    | @tail t _ _ hmove ih => exact hP { σ with s := t } _ ih hmove
  rw [hτ]
  exact hall _ hmoves

omit U in
@[simp] theorem Session.answered_s (σ : Session) (a : Req) (r : Except PyExc (Reply a)) :
    (σ.answered env a r).s = effect env σ.s a r := by
  unfold Session.answered
  cases a <;> (try dsimp only) <;> (try split) <;> rfl

/-- Every run of a coroutine is one of a session. -/
theorem steps_lift {α : Type} {c c' : Prog α} {s s' : St} (h : Steps (world env) (c, s) (c', s'))
    (σ : Session) (hσ : σ.s = s) :
    ∃ τ : Session, τ.s = s' ∧ Steps (sessions env) (c, σ) (c', τ) := by
  suffices ∀ x : Prog α × St, Steps (world env) (c, s) x → ∃ τ : Session, τ.s = x.2 ∧
      Steps (sessions env) (c, σ) (x.1, τ) from this _ h
  intro x hx
  induction hx with
  | refl => exact ⟨σ, hσ, .refl⟩
  | @tail b _ _ hstep ih =>
    obtain ⟨τ, hτ, hsteps⟩ := ih
    obtain ⟨b, t⟩ := b
    dsimp only at hτ
    subst hτ
    cases hstep with
    | @answer _ _ a k r hr =>
      refine ⟨τ.answered env a r, (Session.answered_s τ a r).trans hr.2, hsteps.tail ?_⟩
      exact .answer r ⟨hr.1, rfl⟩
    | @event _ t a k e hp he =>
      refine ⟨{ τ with s := t }, rfl, hsteps.tail ?_⟩
      refine .event (.ev e) hp ?_
      exact Option.map_eq_some_iff.mpr ⟨t, he, rfl⟩

omit U in
theorem only_call {c : Prog (Option HarvestState)} (h : IsCall c) : Only Req.ofCall c := by
  have hask : ∀ {a : Req}, a.ofCall → Only Req.ofCall (perform a) := only_request
  obtain ⟨call, rfl⟩ := h
  cases call with
  | aclose timeout =>
    exact only_bind (fun _ => only_ret) (only_mono (fun _ => Req.closing.ofCall) (only_aclose timeout))
  | _ => exact only_bind (fun _ => only_ret) (hask (by trivial))

/-! ## Schedules -/

def sessionSchedule (env : Env) (reply : Session → (a : Req) → Except PyExc (Reply a))
    (before : Session → Req → List SessionEv) : Script Req Reply PyExc Session SessionEv where
  answer σ a r := if allows env σ.s a r then some (σ.answered env a r) else none
  event σ e := σ.event env e
  parked σ a := parked env σ.s a
  reply := reply
  before := before

theorem sessionSchedule_fits (env : Env) (reply : Session → (a : Req) → Except PyExc (Reply a))
    (before : Session → Req → List SessionEv) : (sessionSchedule env reply before).Fits (sessions env) where
  answer σ a r τ h := by
    simp only [sessionSchedule] at h
    split at h
    · exact ⟨‹_›, Option.some.inj h⟩
    · cases h
  event _ _ _ h := h
  parked _ _ h := h

end Nse
