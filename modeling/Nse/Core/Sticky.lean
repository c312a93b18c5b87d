/-
  Nse.Core.Sticky — a failure of the read loop is recorded, and stays recorded.

  The state is written by the loop's ends, by its cancel handler and in three places of
  `aclose`. A loop that is still running is in the state `running` (`Steady`), so what it
  observes first becomes the state; and `aclose` writes only when the loop has ended, in the
  state `running` or after a cancellation that came before the loop observed anything
  (`Pending`).

  Proved: `failures_are_sticky`, whatever a loop observes before a stop is requested, no
  call and no event changes it again, and the harvester complains from then on; and so it
  does from the first trace line it could not parse.
-/

import Nse.Core.Rehearsal
import Nse.Core.Session

namespace Nse

open Coroutine
open Relation (ReflTransGen)

variable [U : PyStr.Unicode] {env : Env}

def HarvestState.failed : HarvestState → Bool
  | .cleanEof | .timeout | .error => true
  | .notStarted | .running | .stopped => false

/-- What the loop observes in an event, if it ends the loop. Where it ends on a line that it
    does not consume, the parser has raised. -/
def observed (s s' : St) : SessionEv → Option HarvestState
  | .ev .eof => some .cleanEof
  | .ev (.readError _) | .raising _ => some .error
  | .ev .line => if s.loop.live && !s'.loop.live then some (if s'.nread = s.nread then .error else .timeout) else none
  | .ev _ => if s.loop.live && !s'.loop.live then some .timeout else none

/-- The loop has ended, and failed in this way. -/
structure EndedAs (st : HarvestState) (σ : Session) : Prop where
  state : σ.s.h.state = st
  failed : st.failed = true
  dead : σ.s.loop.live = false

structure Steady (σ : Session) : Prop where
  begun : σ.s.loop ≠ .idle
  running : σ.s.loop.live = true → σ.s.h.state = .running
  /-- A cancellation came before the loop observed anything. -/
  cancelled : σ.cancelled = true → σ.s.loop.live = false ∧ σ.s.h.state.failed = false

/-! ## What the loop observes -/

section Observed

variable {s s' : St}

omit U in
@[simp] theorem finish_h (st : HarvestState) (s : St) : (Loop.finish env st s).h = s.h.endAs st := by
  unfold Loop.finish
  dsimp only
  split <;> rfl

omit U in
@[simp] theorem finish_dead (st : HarvestState) (s : St) : (Loop.finish env st s).loop.live = false := by
  unfold Loop.finish
  dsimp only
  split <;> rfl

/-- The loop gives up in `t`: its deadline is past. -/
structure GivesUp (env : Env) (t s' : St) : Prop where
  late : t.h.deadline ≤ t.clock
  ends : s' = Loop.finish env (if t.h.stopRequested then .stopped else .timeout) t

omit U in
theorem top_givesUp (h : (Loop.top env s).loop.live = false) : GivesUp env s (Loop.top env s) := by
  unfold Loop.top at h ⊢
  by_cases hlate : s.h.deadline ≤ s.clock
  · rw [if_pos hlate] at h ⊢
    exact ⟨hlate, rfl⟩
  · rw [if_neg hlate] at h
    cases h

/-- What the loop looks at when it decides whether to go on. -/
def St.horizon (s : St) : Nat × Nat × HarvestState × Bool := (s.clock, s.h.deadline, s.h.state, s.h.stopRequested)

omit U in
theorem deliver_givesUp {e : TraceEvent} (h : (Loop.deliver env e s).loop.live = false) :
    ∃ t, t.horizon = s.horizon ∧ GivesUp env t (Loop.deliver env e s) := by
  refine ⟨_, ?_, top_givesUp h⟩
  rfl

theorem consume_givesUp {raw : String} (h : (Loop.consume env raw s).loop.live = false)
    (hread : (Loop.consume env raw s).nread ≠ s.nread) :
    ∃ t, t.horizon = s.horizon ∧ GivesUp env t (Loop.consume env raw s) := by
  unfold Loop.consume at h hread ⊢
  dsimp only at h hread ⊢
  split at h
  · rename_i hblank
    rw [if_pos hblank]
    refine ⟨_, ?_, top_givesUp h⟩
    rfl
  · rename_i hblank
    rw [if_neg hblank] at hread ⊢
    split at h
    · refine ⟨_, ?_, top_givesUp h⟩
      simp only [St.horizon, Harvester.recordUnparsed_state, Harvester.recordUnparsed_stop,
        Harvester.recordUnparsed_deadline]
    · unfold Loop.putEvent at h ⊢
      dsimp only
      split at h
      · cases h
      · rename_i hfull
        rw [if_neg hfull]
        obtain ⟨t, ht, hgives⟩ := deliver_givesUp h
        refine ⟨t, ht.trans ?_, hgives⟩
        simp only [St.horizon, Harvester.recordId_state, Harvester.recordId_stop, Harvester.recordId_deadline]
    · rename_i exc hraises
      rw [hraises] at hread
      exact absurd (finish_read _ _).2 hread

/-- A loop that ends and observes neither an end of the output nor an exception gives up. -/
theorem observed_timeout {e : SessionEv} {σ τ : Session} (h : σ.event env e = some τ)
    (hobs : observed σ.s τ.s e = some .timeout) : ∃ t, t.horizon = σ.s.horizon ∧ GivesUp env t τ.s := by
  cases e with
  | raising exc => cases hobs
  | ev e =>
    obtain ⟨s', hs, rfl⟩ := Option.map_eq_some_iff.mp h
    have hends : ∀ {b : Bool}, (if b = true then some HarvestState.timeout else none) = some .timeout → b = true := by
      intro b hb
      split at hb
      · assumption
      · cases hb
    cases e with
    | eof => cases hobs
    | readError e => cases hobs
    | tick ms =>
      cases hs
      simp [observed] at hobs
    | write _ _ | exit | take =>
      simp only [event] at hs
      split at hs
      · cases hs
        simp [observed] at hobs
      · cases hs
    | begin | poll =>
      have hdead := (Bool.and_eq_true_iff.mp (hends hobs)).2
      simp only [event] at hs
      split at hs
      · cases hs
        refine ⟨_, ?_, top_givesUp (by simpa using hdead)⟩
        rfl
      · cases hs
    | line =>
      simp only [observed] at hobs
      split at hobs
      · rename_i hover
        split at hobs
        · cases hobs
        · rename_i hread
          simp only [event] at hs
          split at hs
          · cases hs
            exact consume_givesUp (by simpa using (Bool.and_eq_true_iff.mp hover).2) hread
          · cases hs
      · cases hobs
    | resume =>
      obtain ⟨hlive, hdead⟩ := Bool.and_eq_true_iff.mp (hends hobs)
      simp only [event] at hs
      split at hs
      · cases hs
      · split at hs
        · cases hs
          exact deliver_givesUp (by simpa using hdead)
        · rename_i hl
          rw [hl] at hlive
          cases hlive
        · cases hs

end Observed

/-! ## What every move keeps -/

section Moves

variable {σ : Session} {s : St}

omit U in
theorem Steady.live_uncancelled (h : Steady σ) (hl : σ.s.loop.live = true) : σ.cancelled = false := by
  cases hc : σ.cancelled with
  | false => rfl
  | true =>
    have hdead := (h.cancelled hc).1
    rw [hl] at hdead
    cases hdead

omit U in
/-- A loop that ran and runs on in the same state. -/
theorem Steady.goes_on (h : Steady σ) (hl : σ.s.loop.live = true) (hl' : s.loop.live = true)
    (hst : s.h.state = σ.s.h.state) :
    Steady { σ with s } := by
  refine ⟨?_, ?_, ?_⟩
  · intro hidle
    have hidle : s.loop = .idle := hidle
    rw [hidle] at hl'
    cases hl'
  · intro _
    exact hst.trans (h.running hl)
  · intro hc
    have hno := h.live_uncancelled hl
    rw [show σ.cancelled = true from hc] at hno
    cases hno

theorem Steady.move (h : Steady σ) (hm : Move env σ.s s) : Steady { σ with s } := by
  have hreads : ∀ {p line}, Next σ.s p line → σ.s.loop.live = true := by
    intro p line hnext
    rw [hnext.1]
    rfl
  cases hm with
  | tick | write | exit | take => exact ⟨h.begun, h.running, h.cancelled⟩
  | begin hl => exact h.goes_on (by rw [hl]; rfl) rfl rfl
  | blank p hnext => exact h.goes_on (hreads hnext) (hreads hnext) rfl
  | unparsed p line hnext _ _ => exact h.goes_on (hreads hnext) (hreads hnext) (Harvester.recordUnparsed_state _ _)
  | parsed p line e hnext _ _ => exact h.goes_on (hreads hnext) rfl (Harvester.recordId_state _ _)
  | deliver e hl _ => exact h.goes_on (by rw [hl]; rfl) rfl rfl
  | finish st err hl _ =>
    have hlive : σ.s.loop.live = true := by rw [hl]; rfl
    refine ⟨fun hidle => (by cases hidle), fun hlive => (by cases hlive), ?_⟩
    intro hc
    have hno := h.live_uncancelled hlive
    rw [show σ.cancelled = true from hc] at hno
    cases hno
  | close hl _ =>
    refine ⟨fun hidle => (by cases hidle), fun hlive => (by cases hlive), ?_⟩
    intro hc
    exact ⟨rfl, (h.cancelled hc).2⟩

/-- A loop that has ended changes nothing more, but puts its last `None`. -/
theorem Move.ended {s s' : St} (hm : Move env s s') (hl : s.loop.live = false) :
    s'.loop.live = false ∧ s'.h.state = s.h.state := by
  have hreads : ∀ {p line}, Next s p line → False := by
    intro p line hnext
    rw [hnext.1] at hl
    cases hl
  cases hm with
  | tick | write | exit | take => exact ⟨hl, rfl⟩
  | close _ _ => exact ⟨rfl, rfl⟩
  | blank p hnext => exact (hreads hnext).elim
  | unparsed p line hnext _ _ => exact (hreads hnext).elim
  | parsed p line e hnext _ _ => exact (hreads hnext).elim
  | begin hloop | deliver _ hloop _ | finish _ _ hloop _ =>
    rw [hloop] at hl
    cases hl

theorem Move.unparsed_le {s s' : St} (hm : Move env s s') : s.h.unparsedTraceLines ≤ s'.h.unparsedTraceLines := by
  cases hm with
  | unparsed p line _ _ _ =>
    unfold Harvester.recordUnparsed Harvester.keepSample Harvester.countUnparsed
    dsimp only
    split <;> split <;> simp only [Nat.le_add_right, Nat.le_refl]
  | parsed p line e _ _ _ =>
    exact Nat.le_of_eq (Harvester.recordId_counts s.h e).1.symm
  | finish st err _ _ =>
    unfold Harvester.endAs
    dsimp only
    split <;> exact Nat.le_refl _
  | _ => exact Nat.le_refl _

end Moves

/-! ## What every call keeps -/

/-- A request of a call: only a loop that has ended without a failure is declared stopped, and
    none is cancelled before a stop was requested. -/
def Pending (σ : Session) (a : Req) : Prop :=
  a.ofCall ∧ (a = .setStopped → σ.s.loop = .done ∧ σ.s.h.state.failed = false) ∧ (a = .cancelTask → σ.stoppedAt ≠ none)

omit U in
theorem pending {σ : Session} {a : Req} (ha : a.ofCall) (hset : a ≠ .setStopped) (hcancel : a ≠ .cancelTask) :
    Pending σ a :=
  ⟨ha, fun h => absurd h hset, fun h => absurd h hcancel⟩

section Answers

omit U

variable {σ : Session} {a : Req}

theorem Session.answered_cancelTask (σ : Session) (r : Except PyExc Unit) : σ.answered env .cancelTask r =
    if σ.s.loop.live then { σ with s := Loop.cancel env σ.s, cancelled := true, dropped := σ.s.loop.inHand }
    else { σ with s := Loop.cancel env σ.s } := by
  unfold Session.answered
  rw [effect_cancelTask]

/-- What a request of a call does to the loop, its state and the count of unparsed lines:
    nothing, unless it cancels the loop or declares it stopped. -/
theorem answered_same (ha : a.ofCall) (hcancel : a ≠ .cancelTask) (hstop : a ≠ .setStopped)
    (r : Except PyExc (Reply a)) :
    (σ.answered env a r).s.loop = σ.s.loop ∧ (σ.answered env a r).s.h.state = σ.s.h.state ∧
      (σ.answered env a r).s.h.unparsedTraceLines = σ.s.h.unparsedTraceLines ∧
        (σ.answered env a r).cancelled = σ.cancelled := by
  have hghost : (σ.answered env a r).cancelled = σ.cancelled := by
    unfold Session.answered
    cases a with
    | stop =>
      dsimp only
      split <;> rfl
    | cancelTask => exact absurd rfl hcancel
    | launch t => exact False.elim ha
    | _ => rfl
  refine ⟨?_, ?_, ?_, hghost⟩
  all_goals
    rw [Session.answered_s]
    cases a with
    | cancelTask => exact absurd rfl hcancel
    | setStopped => exact absurd rfl hstop
    | armEventSignal | extendDeadline _ | put _ | stop | taskPending | awaitTask _ | joinTask | harvestState =>
      cases r <;> rfl
    | _ => exact False.elim ha

/-- A cancelled loop is dead, and was running if it was alive. -/
theorem cancel_loop (s : St) : (s.loop ≠ .idle → (Loop.cancel env s).loop ≠ .idle) ∧
    (Loop.cancel env s).loop.live = false ∧
    (Loop.cancel env s).h.unparsedTraceLines = s.h.unparsedTraceLines ∧
      ((Loop.cancel env s).h.state = s.h.state ∨ (s.loop.live = true ∧ (Loop.cancel env s).h.state = .stopped)) := by
  unfold Loop.cancel
  cases hl : s.loop with
  | idle | done => simp [hl, LoopPc.live]
  | scheduled | closing => simp [LoopPc.live]
  | reading | putting e =>
    dsimp only
    split <;> simp [LoopPc.live, Loop.close]

theorem Steady.answer (h : Steady σ) (hp : Pending σ a) (r : Except PyExc (Reply a)) : Steady (σ.answered env a r) := by
  by_cases hcancel : a = .cancelTask
  · subst hcancel
    obtain ⟨hbegun, hdead, -, hst⟩ := @cancel_loop env σ.s
    rw [Session.answered_cancelTask]
    split
    · rename_i hlive
      refine ⟨hbegun h.begun, fun hl => absurd hl (by rw [hdead]; decide), fun _ => ⟨hdead, ?_⟩⟩
      dsimp only
      rcases hst with hst | ⟨-, hst⟩
      · rw [hst, h.running hlive]
        rfl
      · rw [hst]
        rfl
    · rename_i hlive
      refine ⟨hbegun h.begun, fun hl => absurd hl (by rw [hdead]; decide), fun hc => ⟨hdead, ?_⟩⟩
      dsimp only
      rcases hst with hst | ⟨hl, -⟩
      · rw [hst]
        exact (h.cancelled hc).2
      · exact absurd hl hlive
  · by_cases hstop : a = .setStopped
    · subst hstop
      obtain ⟨hdone, -⟩ := hp.2.1 rfl
      have hs : σ.answered env .setStopped r = { σ with s := { σ.s with h := { σ.s.h with state := .stopped } } } := by
        cases r <;> rfl
      rw [hs]
      refine ⟨h.begun, fun hl => ?_, fun hc => ⟨(h.cancelled hc).1, rfl⟩⟩
      have hl : σ.s.loop.live = true := hl
      rw [hdone] at hl
      cases hl
    · obtain ⟨hloop, hst, -, hghost⟩ := @answered_same env σ _ hp.1 hcancel hstop r
      refine ⟨?_, ?_, ?_⟩
      · rw [hloop]
        exact h.begun
      · rw [hloop, hst]
        exact h.running
      · rw [hloop, hst, hghost]
        exact h.cancelled

/-- No call takes a failure back. -/
theorem EndedAs.answer {st : HarvestState} (h : EndedAs st σ) (hp : Pending σ a) (r : Except PyExc (Reply a)) :
    EndedAs st (σ.answered env a r) := by
  by_cases hcancel : a = .cancelTask
  · subst hcancel
    obtain ⟨-, hdead, -, hst⟩ := @cancel_loop env σ.s
    rw [Session.answered_cancelTask, if_neg (by rw [h.dead]; decide)]
    refine ⟨?_, h.failed, hdead⟩
    rcases hst with hst | ⟨hlive, -⟩
    · exact hst.trans h.state
    · rw [h.dead] at hlive
      cases hlive
  · by_cases hstop : a = .setStopped
    · obtain ⟨-, hno⟩ := hp.2.1 hstop
      rw [h.state, h.failed] at hno
      cases hno
    · obtain ⟨hloop, hst, -⟩ := @answered_same env σ _ hp.1 hcancel hstop r
      exact ⟨hst.trans h.state, h.failed, by rw [hloop]; exact h.dead⟩

theorem answer_unparsed (hp : Pending σ a) (r : Except PyExc (Reply a)) :
    (σ.answered env a r).s.h.unparsedTraceLines = σ.s.h.unparsedTraceLines := by
  by_cases hcancel : a = .cancelTask
  · subst hcancel
    rw [Session.answered_s, effect_cancelTask]
    exact (@cancel_loop env σ.s).2.2.1
  · by_cases hstop : a = .setStopped
    · subst hstop
      cases r <;> rfl
    · exact (@answered_same env σ _ hp.1 hcancel hstop r).2.2.1

theorem answer_stopped (hp : Pending σ a) (hstopped : σ.stoppedAt ≠ none) (r : Except PyExc (Reply a)) :
    (σ.answered env a r).stoppedAt ≠ none := by
  unfold Session.answered
  cases a with
  | reset => exact False.elim hp.1
  | stop =>
    dsimp only
    split
    · exact Option.some_ne_none _
    · exact hstopped
  | cancelTask =>
    dsimp only
    split <;> exact hstopped
  | _ => exact hstopped

end Answers

/-! ## `aclose` -/

section Aclose

variable {ans : Session → (a : Req) → Except PyExc (Reply a) → Prop} {ev : Session → SessionEv → Prop}
  {G : Session → Session → Prop} {Inv : Session → Prop}

/-- The drain: afterwards the loop has ended. -/
theorem wp_drain (hans : ∀ σ a r, ans σ a r → Uninterrupted σ a r)
    (hsteady : ∀ σ, Inv σ → Steady σ ∧ σ.stoppedAt ≠ none)
    (hG : ∀ σ τ, Inv σ → G σ τ → Inv τ) (hkeep : ∀ σ a r, Inv σ → Pending σ a → ans σ a r → Inv (σ.answered env a r))
    (timeout : Nat) {σ : Session} (hσ : Inv σ) :
    wp (((sessions env).restrict ans ev).relying G) Pending (Post (fun _ τ => Inv τ ∧ τ.s.loop = .done) fun _ _ => True)
      (TraceHarvester.drain timeout) σ := by
  have hstable : Stable (((sessions env).restrict ans ev).relying G) Inv := fun σ _ τ h hg => hG σ τ h hg
  -- the wait ends with the loop, by timing out, or with the cancellation of the loop
  refine wp_try (V := fun _ τ => Inv τ ∧ τ.s.loop = .done)
    (X := fun e τ => Inv τ ∧ (e.cls = .cancelledError → τ.s.loop = .done ∧ τ.s.h.state.failed = false)) ?_
      (fun _ _ h => h) ?_
  · refine wp_request hstable hσ (fun _ _ => pending (by trivial) (by simp) (by simp)) fun τ r τ' hτ hr => ?_
    obtain ⟨⟨hallowed, rfl⟩, huncut⟩ := hr
    have hinv : Inv (τ.answered env (.awaitTask timeout) r) :=
      hkeep τ _ r hτ (pending (by trivial) (by simp) (by simp)) huncut
    cases r with
    | ok v =>
      have hdone : τ.s.loop = .done := by simpa [allows, whenReady] using hallowed
      exact ⟨hinv, hdone⟩
    | error e =>
      refine ⟨hinv, fun hcls => ?_⟩
      obtain ⟨hdone, hcancelled⟩ := hans _ _ _ huncut e rfl hcls
      exact ⟨hdone, ((hsteady τ hτ).1.cancelled hcancelled).2⟩
  · intro e τ hτ
    split
    · -- timed out: cancel the loop and wait for it
      have hpending : Pending τ .cancelTask := ⟨by trivial, fun h => (by cases h), fun _ => (hsteady τ hτ.1).2⟩
      have hcancel : wp (((sessions env).restrict ans ev).relying G) Pending (Post (fun _ => Inv) fun _ _ => True)
          (perform .cancelTask) τ := by
        refine wp_request_now (by simp [World.relying, World.restrict, sessions, parked]) hpending fun r υ hr => ?_
        obtain ⟨⟨-, rfl⟩, huncut⟩ := hr
        cases r with
        | ok v => exact hkeep τ _ _ hτ.1 hpending huncut
        | error e => trivial
      refine wp_seq hcancel (fun _ υ hυ => ?_) fun _ _ _ => trivial
      refine wp_try (V := fun _ τ => Inv τ ∧ τ.s.loop = .done) (X := fun _ τ => Inv τ ∧ τ.s.loop = .done) ?_
        (fun _ _ h => h) fun _ _ h => h
      refine wp_request hstable hυ (fun _ _ => pending (by trivial) (by simp) (by simp)) fun τ r τ' hτ hr => ?_
      obtain ⟨⟨hallowed, rfl⟩, huncut⟩ := hr
      have hinv : Inv (τ.answered env .joinTask r) := hkeep τ _ r hτ (pending (by trivial) (by simp) (by simp)) huncut
      cases r with
      | ok v =>
        have hdone : τ.s.loop = .done := by simpa [allows, whenReady] using hallowed
        exact ⟨hinv, hdone⟩
      | error e =>
        have hcls : e.cls = .cancelledError := by simpa [allows, whenReady] using hallowed
        exact ⟨hinv, (hans _ _ _ huncut e rfl hcls).1⟩
    · split
      · rename_i hcls
        obtain ⟨hinv, hdone⟩ := hτ
        obtain ⟨hdone, hno⟩ := hdone hcls
        have hpending : Pending τ .setStopped := ⟨by trivial, fun _ => ⟨hdone, hno⟩, fun h => (by cases h)⟩
        refine wp_request_now (by simp [World.relying, World.restrict, sessions, parked]) hpending fun r υ hr => ?_
        obtain ⟨⟨-, rfl⟩, huncut⟩ := hr
        cases r with
        | ok v => exact ⟨hkeep τ _ _ hinv hpending huncut, hdone⟩
        | error e => trivial
      · trivial

/-- `aclose` returns the terminal state of a loop that has ended. -/
theorem wp_aclose (hans : ∀ σ a r, ans σ a r → Uninterrupted σ a r) (hsteady : ∀ σ, Inv σ → Steady σ)
    (hG : ∀ σ τ, Inv σ → G σ τ → Inv τ ∧ (σ.stoppedAt ≠ none → τ.stoppedAt ≠ none))
    (hkeep : ∀ σ a r, Inv σ → Pending σ a → ans σ a r → Inv (σ.answered env a r))
    (timeout : Nat) {σ : Session} (hσ : Inv σ) :
    wp (((sessions env).restrict ans ev).relying G) Pending
      (Post (fun st τ => Inv τ ∧ τ.s.loop = .done ∧ τ.s.h.state = st ∧ st ≠ .running) fun _ _ => True)
      (TraceHarvester.aclose timeout) σ := by
  -- a request that is answered at once
  have hnow : ∀ {τ : Session} {a : Req} {V : Reply a → Session → Prop}, Inv τ → Pending τ a → parked env τ.s a = false →
      (∀ v, Inv (τ.answered env a (.ok v)) → allows env τ.s a (.ok v) = true → V v (τ.answered env a (.ok v))) →
      wp (((sessions env).restrict ans ev).relying G) Pending (Post V fun _ _ => True) (perform a) τ := by
    intro τ a V hτ hp hparked hv
    refine wp_request_now (by simpa [World.relying, World.restrict, sessions] using hparked) hp fun r υ hr => ?_
    obtain ⟨⟨hallowed, rfl⟩, huncut⟩ := hr
    cases r with
    | ok v => exact hv v (hkeep τ a _ hτ hp huncut) hallowed
    | error e => trivial
  have hstop : wp (((sessions env).restrict ans ev).relying G) Pending
      (Post (fun _ τ => Inv τ ∧ τ.stoppedAt ≠ none) fun _ _ => True) (perform .stop) σ := by
    refine hnow hσ (pending (by trivial) (by simp) (by simp)) rfl fun _ hinv _ => ⟨hinv, ?_⟩
    unfold Session.answered
    dsimp only
    cases hfirst : σ.stoppedAt with
    | none => exact Option.some_ne_none _
    | some ts => exact Option.some_ne_none _
  refine wp_seq hstop (fun _ τ hτ => ?_) fun _ _ _ => trivial
  have hask : wp (((sessions env).restrict ans ev).relying G) Pending
      (Post (fun running υ => (Inv υ ∧ υ.stoppedAt ≠ none) ∧ (running = false → υ.s.loop = .done)) fun _ _ => True)
      (perform .taskPending) τ := by
    obtain ⟨hinvτ, hstopped⟩ := hτ
    refine hnow hinvτ (pending (by trivial) (by simp) (by simp)) rfl fun running hinv hallowed => ⟨⟨hinv, hstopped⟩, ?_⟩
    intro hno
    have heq : running = decide (τ.s.loop ≠ .idle ∧ τ.s.loop ≠ .done) := by simpa [allows, exactly] using hallowed
    have hnot : ¬(τ.s.loop ≠ .idle ∧ τ.s.loop ≠ .done) := of_decide_eq_false (heq ▸ hno)
    have hdone : τ.s.loop = .done := Decidable.byContradiction fun hne => hnot ⟨(hsteady τ hinvτ).begun, hne⟩
    exact hdone
  refine wp_seq hask (fun running υ hυ => ?_) fun _ _ _ => trivial
  have hdrain : wp (((sessions env).restrict ans ev).relying G) Pending
      (Post (fun _ τ => Inv τ ∧ τ.s.loop = .done) fun _ _ => True)
      (ifSo (running = true) (TraceHarvester.drain timeout)) υ := by
    unfold ifSo
    split
    · have hG' : ∀ σ τ, Inv σ ∧ σ.stoppedAt ≠ none → G σ τ → Inv τ ∧ τ.stoppedAt ≠ none := by
        intro σ τ h hg
        exact ⟨(hG σ τ h.1 hg).1, (hG σ τ h.1 hg).2 h.2⟩
      have hkeep' : ∀ σ a r, Inv σ ∧ σ.stoppedAt ≠ none → Pending σ a → ans σ a r →
          Inv (σ.answered env a r) ∧ (σ.answered env a r).stoppedAt ≠ none := by
        intro σ a r h hp hr
        exact ⟨hkeep σ a r h.1 hp hr, answer_stopped hp h.2 r⟩
      exact post_mono (wp_drain hans (fun σ h => ⟨hsteady σ h.1, h.2⟩) hG' hkeep' timeout hυ.1)
        (fun _ _ h => ⟨h.1.1, h.2⟩) fun _ _ h => h
    · rename_i hno
      exact ⟨hυ.1.1, hυ.2 (by simpa using hno)⟩
  refine wp_seq hdrain (fun _ τ hτ => ?_) fun _ _ _ => trivial
  have hread : ∀ {τ : Session}, Inv τ ∧ τ.s.loop = .done → wp (((sessions env).restrict ans ev).relying G) Pending
      (Post (fun st τ => Inv τ ∧ τ.s.loop = .done ∧ τ.s.h.state = st) fun _ _ => True) (perform .harvestState) τ := by
    intro τ hτ
    refine hnow hτ.1 (pending (by trivial) (by simp) (by simp)) rfl fun st hinv hallowed => ⟨hinv, hτ.2, ?_⟩
    have heq : st = τ.s.h.state := by simpa [allows, exactly] using hallowed
    exact heq.symm
  refine wp_seq (hread hτ) (fun st υ hυ => ?_) fun _ _ _ => trivial
  obtain ⟨hinv, hdone, hst⟩ := hυ
  have hset : wp (((sessions env).restrict ans ev).relying G) Pending
      (Post (fun _ τ => Inv τ ∧ τ.s.loop = .done ∧ τ.s.h.state ≠ .running) fun _ _ => True)
      (ifSo (st = .running) (perform .setStopped)) υ := by
    unfold ifSo
    split
    · rename_i hrunning
      have hno : υ.s.h.state.failed = false := by
        rw [hst, hrunning]
        rfl
      exact hnow hinv ⟨by trivial, fun _ => ⟨hdone, hno⟩, fun h => (by cases h)⟩ rfl
        fun _ hinv _ => ⟨hinv, hdone, fun h => (by cases h)⟩
    · rename_i hrunning
      exact ⟨hinv, hdone, by rw [hst]; exact hrunning⟩
  refine wp_seq hset (fun _ τ hτ => ?_) fun _ _ _ => trivial
  obtain ⟨hinv, hdone, hne⟩ := hτ
  refine hnow hinv (pending (by trivial) (by simp) (by simp)) rfl fun st hinv hallowed => ?_
  have heq : st = τ.s.h.state := by simpa [allows, exactly] using hallowed
  exact ⟨hinv, hdone, heq.symm, by rw [heq]; exact hne⟩

/-- What a call relies on, and what it returns. -/
theorem wp_call (hans : ∀ σ a r, ans σ a r → Uninterrupted σ a r) (hsteady : ∀ σ, Inv σ → Steady σ)
    (hG : ∀ σ τ, Inv σ → G σ τ → Inv τ ∧ (σ.stoppedAt ≠ none → τ.stoppedAt ≠ none))
    (hkeep : ∀ σ a r, Inv σ → Pending σ a → ans σ a r → Inv (σ.answered env a r))
    {c : Prog (Option HarvestState)} (hc : IsCall c) {σ : Session} (hσ : Inv σ) :
    wp (((sessions env).restrict ans ev).relying G) Pending
      (Post (fun r τ => ∀ st, r = some st → Inv τ ∧ τ.s.loop = .done ∧ τ.s.h.state = st ∧ st ≠ .running)
        fun _ _ => True) c σ := by
  obtain ⟨call, rfl⟩ := hc
  have hask : ∀ {a : Req}, a.ofCall → a ≠ .setStopped → a ≠ .cancelTask →
      wp (((sessions env).restrict ans ev).relying G) Pending (Post (fun _ _ => True) fun _ _ => True)
        (perform a) σ := by
    intro a ha hset hcancel
    refine wp_request (P := fun _ => True) (fun _ _ _ _ _ => trivial) trivial (fun _ _ => pending ha hset hcancel)
      fun _ r _ _ _ => ?_
    cases r <;> trivial
  cases call with
  | aclose timeout =>
    refine wp_seq (wp_aclose hans hsteady hG hkeep timeout hσ) (fun st τ hτ => ?_) fun _ _ _ => trivial
    intro st' heq
    cases heq
    exact hτ
  | arm => exact wp_seq (hask (by trivial) (by simp) (by simp)) (fun _ _ _ _ heq => by cases heq) fun _ _ _ => trivial
  | extend ms =>
    exact wp_seq (hask (by trivial) (by simp) (by simp)) (fun _ _ _ _ heq => by cases heq) fun _ _ _ => trivial
  | stop => exact wp_seq (hask (by trivial) (by simp) (by simp)) (fun _ _ _ _ heq => by cases heq) fun _ _ _ => trivial
  | put item =>
    exact wp_seq (hask (by trivial) (by simp) (by simp)) (fun _ _ _ _ heq => by cases heq) fun _ _ _ => trivial

end Aclose

/-! ## Sessions -/

/-- Sessions in which nobody cancels a task that waits. -/
def uninterrupted (env : Env) : World Req Reply PyExc Session SessionEv :=
  (sessions env).restrict Uninterrupted fun _ _ => True

/-- What every step of a session keeps. -/
def Keeps (σ τ : Session) : Prop :=
  (Steady σ → Steady τ ∧ (∀ st, EndedAs st σ → EndedAs st τ) ∧ σ.s.h.unparsedTraceLines ≤ τ.s.h.unparsedTraceLines) ∧
    (σ.stoppedAt ≠ none → τ.stoppedAt ≠ none)

theorem keeps_event {σ τ : Session} {e : SessionEv} (h : σ.event env e = some τ) : Keeps σ τ := by
  obtain ⟨hmoves, hτ⟩ := Session.event_cases h
  rw [hτ]
  refine ⟨fun hσ => ?_, fun hstopped => hstopped⟩
  have hall : ∀ s, Moves env σ.s s → Steady { σ with s } ∧ (∀ st, EndedAs st σ → EndedAs st { σ with s }) ∧
      σ.s.h.unparsedTraceLines ≤ s.h.unparsedTraceLines := by
    intro s hs
    induction hs with
    | refl => exact ⟨hσ, fun _ h => h, Nat.le_refl _⟩
    | @tail t u _ hmove ih =>
      refine ⟨ih.1.move hmove, fun st hst => ?_, Nat.le_trans ih.2.2 hmove.unparsed_le⟩
      have hended := ih.2.1 st hst
      obtain ⟨hdead, hstate⟩ := hmove.ended hended.dead
      exact ⟨hstate.trans hended.state, hended.failed, hdead⟩
  exact hall _ hmoves

theorem keeps_answer {σ τ : Session} {a : Req} {r : Except PyExc (Reply a)} (hp : Pending σ a)
    (h : (uninterrupted env).answer σ a r τ) : Keeps σ τ := by
  obtain ⟨⟨-, rfl⟩, -⟩ := h
  refine ⟨fun hσ => ?_, fun hstopped => answer_stopped hp hstopped r⟩
  exact ⟨hσ.answer hp r, fun _ hst => hst.answer hp r, Nat.le_of_eq (answer_unparsed hp r).symm⟩

section Run

variable {x y : List (Prog (Option HarvestState)) × Session} {P : Session → Prop}

/-- The tasks of a session do what `wp_call` says of each. -/
abbrev Tasks (env : Env) (x : List (Prog (Option HarvestState)) × Session) : Prop :=
  ∀ c ∈ x.1, Coroutine.Sound (uninterrupted env) Keeps Pending (Post (fun _ _ => True) fun _ _ => True) x.2 c

theorem wp_call_keeps {c : Prog (Option HarvestState)} (hc : IsCall c) {σ : Session} (hσ : Steady σ) :
    wp ((uninterrupted env).relying Keeps) Pending (Post (fun _ _ => True) fun _ _ => True) c σ := by
  refine post_mono (wp_call (fun _ _ _ h => h) ?_ ?_ ?_ hc hσ) (fun _ _ _ => trivial) fun _ _ _ => trivial
  · intro _ h
    exact h
  · intro _ _ h hk
    exact ⟨(hk.1 h).1, hk.2⟩
  · intro _ _ r h hp _
    exact h.answer hp r

/-- What every step keeps holds throughout. -/
theorem session_keeps (hP : ∀ σ τ, P σ → Keeps σ τ → P τ) (hsteady : ∀ σ, P σ → Steady σ)
    (h : PoolSteps (uninterrupted env) IsCall x y) (hx : Tasks env x ∧ P x.2) : Tasks env y ∧ P y.2 :=
  pool_sound (W := uninterrupted env) (G := Keeps) (fun _ _ _ he => keeps_event he.1)
    (fun _ _ _ _ hp hr => keeps_answer hp hr) hP
    (fun _ σ hc hσ => wp_call_keeps hc (hsteady σ hσ)) h hx

end Run

omit U in
theorem steady_started (clock timeout : Nat) : Steady (Session.started clock timeout) where
  begun := nofun
  running _ := rfl
  cancelled h := by cases h

omit U in
theorem endAs_running {h : Harvester} (hr : h.state = .running) (st : HarvestState) : (h.endAs st).state = st := by
  unfold Harvester.endAs
  rw [if_pos hr]

section Recorded

variable {σ τ : Session} {e : SessionEv}

omit U in
/-- What ends the loop: an end of the output, an exception, or the deadline. -/
theorem observed_cases {s s' : St} {st : HarvestState} (h : observed s s' e = some st) :
    (st = .cleanEof ∧ e = .ev .eof) ∨ st = .error ∨ (st = .timeout ∧ s.loop.live = true) := by
  unfold observed at h
  split at h
  · exact .inl ⟨(Option.some.inj h).symm, rfl⟩
  · exact .inr (.inl (Option.some.inj h).symm)
  · exact .inr (.inl (Option.some.inj h).symm)
  · split at h
    · rename_i hends
      split at h
      · exact .inr (.inl (Option.some.inj h).symm)
      · exact .inr (.inr ⟨(Option.some.inj h).symm, (Bool.and_eq_true_iff.mp hends).1⟩)
    · cases h
  · split at h
    · rename_i hends
      exact .inr (.inr ⟨(Option.some.inj h).symm, (Bool.and_eq_true_iff.mp hends).1⟩)
    · cases h

/-- An exception in the loop becomes the state, whether or not a stop was requested. -/
theorem observed_error (hσ : Steady σ) (he : σ.event env e = some τ) (hobs : observed σ.s τ.s e = some .error) :
    EndedAs .error τ := by
  have hreading : σ.s.loop = .reading → σ.s.h.state = .running := by
    intro hl
    exact hσ.running (by rw [hl]; rfl)
  have hraised : ∀ {exc : PyExc} {e : TraceEvent} {s : St}, s.h.state = .running →
      EndedAs .error { σ with s := Loop.deliverRaising env exc e s } := by
    intro exc e s hs
    refine ⟨?_, rfl, finish_dead _ _⟩
    unfold Loop.deliverRaising
    rw [finish_h]
    exact endAs_running (h := { s.h with eventSignal := true, error := some exc.text }) hs _
  cases e with
  | raising exc =>
    obtain ⟨s', hs, rfl⟩ := Option.map_eq_some_iff.mp he
    unfold callbackRaises at hs
    split at hs
    · cases hs
    · split at hs
      · rename_i e _ hl
        cases hs
        exact hraised (hσ.running (by rw [hl]; rfl))
      · rename_i hl _
        dsimp only at hs
        split at hs
        · cases hs
        · obtain ⟨e, -, rfl⟩ := Option.map_eq_some_iff.mp hs
          exact hraised ((Harvester.recordId_state _ _).trans (hreading hl))
      · cases hs
  | ev e =>
    obtain ⟨s', hs, rfl⟩ := Option.map_eq_some_iff.mp he
    cases e with
    | readError exc =>
      simp only [event] at hs
      split at hs
      · rename_i hc
        cases hs
        refine ⟨?_, rfl, finish_dead _ _⟩
        rw [finish_h]
        exact endAs_running (h := { σ.s.h with error := some exc.text }) (hreading hc.1) _
      · cases hs
    | eof => cases hobs
    | line =>
      have hsame : s'.nread = σ.s.nread := by
        simp only [observed] at hobs
        split at hobs
        · split at hobs
          · assumption
          · cases hobs
        · cases hobs
      simp only [event] at hs
      split at hs
      · rename_i p raw hl _
        cases hs
        rcases consume_cases raw σ.s with ⟨-, hread⟩ | ⟨exc, text, -, hends⟩
        · rw [hread] at hsame
          omega
        · refine ⟨?_, rfl, ?_⟩
          · rw [hends, finish_h]
            exact endAs_running (h := { σ.s.h with error := some text }) (hreading hl) _
          · rw [hends]
            exact finish_dead _ _
      · cases hs
    | _ =>
      unfold observed at hobs
      dsimp only at hobs
      split at hobs <;> cases hobs

/-- What the loop observes before a stop is requested becomes the state. -/
theorem observed_recorded {st : HarvestState} (hσ : Steady σ) (hstop : σ.s.h.stopRequested = false)
    (he : σ.event env e = some τ) (hobs : observed σ.s τ.s e = some st) : EndedAs st τ := by
  rcases observed_cases hobs with ⟨rfl, rfl⟩ | rfl | ⟨rfl, hlive⟩
  · obtain ⟨s', hs, rfl⟩ := Option.map_eq_some_iff.mp he
    simp only [event, hstop] at hs
    split at hs
    · rename_i hc
      cases hs
      refine ⟨?_, rfl, finish_dead _ _⟩
      rw [finish_h]
      exact endAs_running (hσ.running (by rw [hc.1]; rfl)) _
    · cases hs
  · exact observed_error hσ he hobs
  · obtain ⟨t, ht, hgives⟩ := observed_timeout he hobs
    simp only [St.horizon, Prod.mk.injEq] at ht
    obtain ⟨-, -, hstate, hnot⟩ := ht
    rw [hstop] at hnot
    have hends := hgives.ends
    rw [hnot, if_neg (by decide)] at hends
    refine ⟨?_, rfl, ?_⟩
    · rw [hends, finish_h]
      exact endAs_running (hstate.trans (hσ.running hlive)) _
    · rw [hends]
      exact finish_dead _ _

end Recorded

theorem EndedAs.complains {st : HarvestState} {σ : Session} (h : EndedAs st σ) : σ.s.h.healthErrors ≠ [] := by
  refine Harvester.healthErrors_ne_nil ?_
  have hfailed := h.failed
  rw [h.state]
  cases st with
  | cleanEof => exact .inr (.inl rfl)
  | timeout => exact .inl rfl
  | error => exact .inr (.inr rfl)
  | _ => cases hfailed

theorem unparsed_complains {h : Harvester} (hu : 0 < h.unparsedTraceLines) : h.healthErrors ≠ [] := by
  intro hnil
  unfold Harvester.healthErrors at hnil
  have hne : h.unparsedTraceLines ≠ 0 := by omega
  simp [hne] at hnil

/-- In every session, whatever the loop observes before a stop is requested becomes the state
    and remains it, with something to complain about; and so does a trace line that could
    not be parsed. -/
theorem failures_are_sticky {clock timeout : Nat} {cs : List (Prog (Option HarvestState))} {σ : Session}
    (h : PoolSteps (uninterrupted env) IsCall ([], Session.started clock timeout) (cs, σ)) :
    (∀ e τ st, σ.s.h.stopRequested = false → (∀ c ∈ cs, Coroutine.Waiting (uninterrupted env) σ c) →
      σ.event env e = some τ →
        observed σ.s τ.s e = some st →
          τ.s.h.state = st ∧ ∀ cs' υ, PoolSteps (uninterrupted env) IsCall (cs, τ) (cs', υ) →
            υ.s.h.state = st ∧ υ.s.h.healthErrors ≠ []) ∧
      (0 < σ.s.h.unparsedTraceLines → ∀ cs' υ, PoolSteps (uninterrupted env) IsCall (cs, σ) (cs', υ) →
        υ.s.h.healthErrors ≠ []) := by
  obtain ⟨htasks, hsteady⟩ := session_keeps (P := Steady) (fun _ _ h hk => (hk.1 h).1) (fun _ h => h) h
    ⟨fun c hc => (by cases hc), steady_started clock timeout⟩
  constructor
  · intro e τ st hstop hwait he hobs
    have hended := observed_recorded hsteady hstop he hobs
    have hkeeps : Keeps σ τ := keeps_event he
    have htasks' : Tasks env (cs, τ) := fun c hc => (htasks c hc).waiting (hwait c hc) hkeeps
    refine ⟨hended.state, ?_⟩
    intro cs' υ hafter
    obtain ⟨-, hυ⟩ := session_keeps (P := fun σ => Steady σ ∧ EndedAs st σ)
      (fun _ _ h hk => ⟨(hk.1 h.1).1, (hk.1 h.1).2.1 st h.2⟩) (fun _ h => h.1) hafter
        ⟨htasks', (hkeeps.1 hsteady).1, hended⟩
    exact ⟨hυ.2.state, hυ.2.complains⟩
  · intro hu cs' υ hafter
    obtain ⟨-, hυ⟩ := session_keeps (P := fun σ => Steady σ ∧ 0 < σ.s.h.unparsedTraceLines)
      (fun _ _ h hk => ⟨(hk.1 h.1).1, Nat.lt_of_lt_of_le h.2 (hk.1 h.1).2.2⟩)
        (fun _ h => h.1) hafter ⟨htasks, hsteady, hu⟩
    exact unparsed_complains hυ.2

end Nse

namespace Nse

open Coroutine

attribute [local instance] PyStr.Unicode.ascii

/-- Events only. -/
def eventsOnly (env : Env) : Script Req Reply PyExc Session SessionEv :=
  (sessionSchedule env (fun σ => obligingReply σ.s) fun _ _ => []).guarded (fun _ _ _ => false) fun _ _ => true

theorem eventsOnly_fits (env : Env) : (eventsOnly env).Fits (uninterrupted env) :=
  (sessionSchedule_fits env (fun σ => obligingReply σ.s) fun _ _ => []).guarded (fun _ _ _ h => by cases h)
    fun _ _ _ => trivial

theorem failures_are_sticky_sample : ∃ σ τ : Session,
    PoolSteps (uninterrupted {}) IsCall ([], Session.started 0 5000) ([], σ) ∧ σ.event {} (.ev .eof) = some τ ∧
      τ.s.h.state = .cleanEof ∧ τ.s.h.healthErrors ≠ [] := by
  have hplay : (((eventsOnly {}).happen [.ev .begin, .ev .exit] (Session.started 0 5000)).any
      fun σ => !σ.s.h.stopRequested && (σ.event {} (.ev .eof)).isSome) = true := by
    decide +kernel
  obtain ⟨σ, hσ, hcheck⟩ := (Option.any_eq_true _ _).mp hplay
  simp only [Bool.and_eq_true, Bool.not_eq_true'] at hcheck
  obtain ⟨τ, hτ⟩ := Option.isSome_iff_exists.mp hcheck.2
  have hrun : PoolSteps (uninterrupted {}) IsCall ([], Session.started 0 5000) ([], σ) :=
    happen_steps (eventsOnly_fits {}) hσ
  obtain ⟨hst, hafter⟩ := (failures_are_sticky hrun).1 _ τ .cleanEof hcheck.1 (fun c hc => by cases hc) hτ rfl
  exact ⟨σ, τ, hrun, hτ, hst, (hafter [] τ .refl).2⟩

end Nse
