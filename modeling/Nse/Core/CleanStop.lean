/-
  Nse.Core.CleanStop — what a clean stop is worth.

  Once a stop was requested the loop ends in the state `stopped` whatever ends it: the end of
  the output, its deadline, or the cancellation by `aclose`. Only at the end of the output has
  it read every line, and none of the three asks whether the monitor was still alive when the
  stop was requested.

  Proved:
  - `clean_stop_is_trustworthy`: in sessions where the monitor lives until the stop and nothing
    is left unread when the loop gives up (`CleanEvent`, `CleanCall`), a clean stop means that
    every line was read, and delivered or counted.
  - `a_dead_monitor_stops_cleanly` and `a_stop_past_the_deadline_loses_lines`: as built, neither
    follows from a clean stop.
-/

import Nse.Core.LineAccounting
import Nse.Core.Sticky

namespace Nse

open Coroutine
open Relation (ReflTransGen)

variable [U : PyStr.Unicode] {env : Env}

/-! ## Trust -/

/-- The monitor lived until the stop, and every line it wrote was read, and delivered or
    counted. -/
structure Trustworthy (env : Env) (σ : Session) : Prop where
  alive : σ.exitedAtStop = false
  consumed : σ.s.nread = σ.s.out.length
  delivered : σ.s.produced = (nonblank σ.s).filterMap (TraceParser.eventOf env.blind)
  counted : σ.s.h.unparsedTraceLines + σ.s.h.unparsedOtherLines = (unparsed env σ.s).length

/-- No line waits to be read, and the monitor had not exited when the stop was requested. -/
def CaughtUp (σ : Session) : Prop := σ.s.out.length ≤ σ.s.nread ∧ σ.exitedAtStop = false

/-- Nobody cancels a task that waits, and `aclose` cancels the loop only when it has caught up
    and holds no event. -/
def CleanCall (σ : Session) (a : Req) (r : Except PyExc (Reply a)) : Prop :=
  Uninterrupted σ a r ∧ (a = .cancelTask → σ.s.loop.live = true → CaughtUp σ ∧ σ.s.loop.inHand = [])

/-- After a stop, the loop reads the end of the output only of a monitor that was alive then,
    and gives up only when it has caught up; and nothing is written once it has ended so. -/
def CleanEvent (env : Env) (σ : Session) (e : SessionEv) : Prop :=
  (σ.s.h.stopRequested = true → ∀ τ, σ.event env e = some τ →
    (observed σ.s τ.s e = some .cleanEof → σ.exitedAtStop = false) ∧
      (observed σ.s τ.s e = some .timeout → CaughtUp τ)) ∧
  ∀ p line, e = .ev (.write p line) → σ.s.loop.live = true ∨ σ.s.h.state.failed = true

def cleanSessions (env : Env) : World Req Reply PyExc Session SessionEv :=
  (sessions env).restrict CleanCall (CleanEvent env)

/-- The loop ended without a failure, and had caught up. -/
structure Complete (σ : Session) : Prop where
  stopped : σ.stoppedAt ≠ none
  caughtUp : CaughtUp σ
  whole : σ.dropped = []

structure Upright (env : Env) (σ : Session) : Prop where
  steady : Steady σ
  accounted : Accounted env σ
  requested : σ.s.h.stopRequested = true → σ.stoppedAt ≠ none
  ended : σ.s.loop.live = false → σ.s.h.state.failed = false → Complete σ

theorem Upright.trustworthy {σ : Session} (h : Upright env σ) (hl : σ.s.loop.live = false)
    (hst : σ.s.h.state.failed = false) :
    Trustworthy env σ := by
  obtain ⟨-, hcaught, hwhole⟩ := h.ended hl hst
  have hempty : σ.s.loop.inHand = [] := by
    cases hpc : σ.s.loop with
    | putting e =>
      rw [hpc] at hl
      cases hl
    | _ => rfl
  refine ⟨hcaught.2, Nat.le_antisymm h.accounted.nread hcaught.1, ?_, ?_⟩
  · have hevents := h.accounted.events
    rw [hwhole, hempty, List.append_nil, List.append_nil] at hevents
    exact hevents.symm
  · rw [h.accounted.traced, h.accounted.other]
    simpa using (List.length_eq_countP_add_countP looksTraced (l := unparsed env σ.s)).symm

/-! ## Every event -/

section Event

variable {σ τ : Session} {e : SessionEv}

omit U in
/-- What the monitor has written and the loop has read stay, and so does the rest that nobody
    keeps. -/
theorem Complete.of_same (h : Complete σ) (hout : τ.s.out = σ.s.out) (hread : τ.s.nread = σ.s.nread)
    (hghosts : τ.stoppedAt = σ.stoppedAt ∧ τ.exitedAtStop = σ.exitedAtStop ∧ τ.dropped = σ.dropped) : Complete τ := by
  obtain ⟨hstopped, halive, hdropped⟩ := hghosts
  refine ⟨?_, ⟨?_, ?_⟩, ?_⟩
  · rw [hstopped]
    exact h.stopped
  · rw [hout, hread]
    exact h.caughtUp.1
  · rw [halive]
    exact h.caughtUp.2
  · rw [hdropped]
    exact h.whole

/-- A loop that has ended reads nothing more, and only the monitor writes. -/
theorem event_ended (he : σ.event env e = some τ) (hl : σ.s.loop.live = false) :
    τ.s.h.state = σ.s.h.state ∧ τ.s.nread = σ.s.nread ∧ (τ.s.out = σ.s.out ∨ ∃ p line, e = .ev (.write p line)) := by
  have hno : ∀ {pc : LoopPc}, σ.s.loop = pc → pc.live = true → False := by
    intro pc hpc hlive
    rw [hpc, hlive] at hl
    cases hl
  cases e with
  | raising exc =>
    obtain ⟨s', hs, rfl⟩ := Option.map_eq_some_iff.mp he
    unfold callbackRaises at hs
    split at hs
    · cases hs
    · split at hs
      · rename_i hpc
        exact (hno hpc rfl).elim
      · rename_i hpc _
        exact (hno hpc rfl).elim
      · cases hs
  | ev e =>
    obtain ⟨s', hs, rfl⟩ := Option.map_eq_some_iff.mp he
    cases e with
    | tick ms =>
      cases hs
      exact ⟨rfl, rfl, .inl rfl⟩
    | write p line =>
      simp only [event] at hs
      split at hs
      · cases hs
        exact ⟨rfl, rfl, .inr ⟨p, line, rfl⟩⟩
      · cases hs
    | exit | take =>
      simp only [event] at hs
      split at hs
      · cases hs
        exact ⟨rfl, rfl, .inl rfl⟩
      · cases hs
    | begin | poll =>
      simp only [event] at hs
      split at hs
      · rename_i hpc
        exact (hno hpc rfl).elim
      · cases hs
    | eof | readError exc =>
      simp only [event] at hs
      split at hs
      · rename_i hpc
        exact (hno hpc.1 rfl).elim
      · cases hs
    | line =>
      simp only [event] at hs
      split at hs
      · rename_i hpc _
        exact (hno hpc rfl).elim
      · cases hs
    | resume =>
      simp only [event] at hs
      split at hs
      · cases hs
      · split at hs
        · rename_i hpc
          exact (hno hpc rfl).elim
        · cases hs
          exact ⟨rfl, rfl, .inl rfl⟩
        · cases hs

omit U in
/-- Whatever ends the loop is observed. -/
theorem observed_of_end {s s' : St} (hl : s.loop.live = true) (hl' : s'.loop.live = false) :
    ∃ st, observed s s' e = some st := by
  unfold observed
  split
  · exact ⟨_, rfl⟩
  · exact ⟨_, rfl⟩
  · exact ⟨_, rfl⟩
  · rw [hl, hl']
    exact ⟨_, rfl⟩
  · rw [hl, hl']
    exact ⟨_, rfl⟩

/-- At the end of the output nothing is left to read. -/
theorem event_eof (he : σ.event env (.ev .eof) = some τ) : τ.s.out.length ≤ τ.s.nread := by
  obtain ⟨s', hs, rfl⟩ := Option.map_eq_some_iff.mp he
  simp only [event] at hs
  split at hs
  · rename_i hc
    cases hs
    dsimp only
    rw [(finish_read _ _).1, (finish_read _ _).2]
    exact hc.2.2
  · cases hs

theorem Upright.event (h : Upright env σ) (he : σ.event env e = some τ) (hclean : CleanEvent env σ e) :
    Upright env τ := by
  obtain ⟨hmoves, hτ⟩ := Session.event_cases he
  have hghosts : τ.stoppedAt = σ.stoppedAt ∧ τ.exitedAtStop = σ.exitedAtStop ∧ τ.dropped = σ.dropped := by
    rw [hτ]
    exact ⟨rfl, rfl, rfl⟩
  have hkept : Steady τ ∧ Accounted env τ ∧ τ.s.h.stopRequested = σ.s.h.stopRequested := by
    rw [hτ]
    refine moves_keep (P := fun s => Steady { σ with s } ∧ Accounted env { σ with s } ∧
      s.h.stopRequested = σ.s.h.stopRequested) ?_ hmoves ⟨h.steady, h.accounted, rfl⟩
    intro s s' hs hmove
    exact ⟨hs.1.move (σ := { σ with s }) hmove, hs.2.1.move (σ := { σ with s }) hmove, hmove.stopRequested.trans hs.2.2⟩
  obtain ⟨hsteady, haccounted, hstop⟩ := hkept
  refine ⟨hsteady, haccounted, ?_, ?_⟩
  · rw [hstop, hghosts.1]
    exact h.requested
  · intro hl' hfailed
    by_cases hl : σ.s.loop.live = true
    · -- it ends now
      obtain ⟨st, hobs⟩ := observed_of_end (e := e) hl hl'
      cases hrequested : σ.s.h.stopRequested with
      | false =>
        have hended := observed_recorded h.steady hrequested he hobs
        rw [hended.state, hended.failed] at hfailed
        cases hfailed
      | true =>
        have hcaught : CaughtUp τ := by
          obtain ⟨heof, htimeout⟩ := hclean.1 hrequested τ he
          rcases observed_cases hobs with ⟨rfl, rfl⟩ | rfl | ⟨rfl, -⟩
          · refine ⟨event_eof he, ?_⟩
            rw [hghosts.2.1]
            exact heof hobs
          · have hended := observed_error h.steady he hobs
            rw [hended.state, hended.failed] at hfailed
            cases hfailed
          · exact htimeout hobs
        refine ⟨?_, hcaught, ?_⟩
        · rw [hghosts.1]
          exact h.requested hrequested
        · rw [hghosts.2.2]
          exact (h.accounted.running hl).2
    · -- it had ended
      have hdead : σ.s.loop.live = false := by simpa using hl
      obtain ⟨hstate, hread, hout⟩ := event_ended he hdead
      have hunfailed : σ.s.h.state.failed = false := by rwa [hstate] at hfailed
      rcases hout with hout | ⟨p, line, rfl⟩
      · exact (h.ended hdead hunfailed).of_same hout hread hghosts
      · rcases hclean.2 p line rfl with hlive | hfail
        · exact absurd hlive hl
        · rw [hunfailed] at hfail
          cases hfail

end Event

/-! ## Every call -/

section Answer

variable {σ : Session} {a : Req}

omit U in
theorem answered_ghosts (ha : a.ofCall) (hcancel : a ≠ .cancelTask) (hstop : a ≠ .stop) (r : Except PyExc (Reply a)) :
    (σ.answered env a r).stoppedAt = σ.stoppedAt ∧ (σ.answered env a r).exitedAtStop = σ.exitedAtStop ∧
      (σ.answered env a r).dropped = σ.dropped := by
  unfold Session.answered
  cases a with
  | cancelTask => exact absurd rfl hcancel
  | stop => exact absurd rfl hstop
  | launch t => exact False.elim ha
  | reset => exact False.elim ha
  | _ => exact ⟨rfl, rfl, rfl⟩

omit U in
theorem answered_stop (r : Except PyExc (Reply .stop)) : (σ.answered env .stop r).stoppedAt ≠ none ∧
    (σ.answered env .stop r).s.loop = σ.s.loop ∧ (σ.answered env .stop r).s.h.state = σ.s.h.state ∧
      (σ.stoppedAt ≠ none → (σ.answered env .stop r).stoppedAt = σ.stoppedAt ∧
        (σ.answered env .stop r).exitedAtStop = σ.exitedAtStop ∧ (σ.answered env .stop r).dropped = σ.dropped) := by
  have hs : effect env σ.s .stop r = { σ.s with h := { σ.s.h with stopRequested := true } } := by
    cases r <;> rfl
  unfold Session.answered
  dsimp only
  cases hfirst : σ.stoppedAt with
  | none =>
    rw [hs]
    exact ⟨Option.some_ne_none _, rfl, rfl, fun h => absurd rfl h⟩
  | some ts =>
    rw [hs]
    exact ⟨Option.some_ne_none _, rfl, rfl, fun _ => ⟨rfl, rfl, rfl⟩⟩

omit U in
theorem answered_requested (ha : a.ofCall) (hstop : a ≠ .stop) (r : Except PyExc (Reply a)) :
    (σ.answered env a r).s.h.stopRequested = σ.s.h.stopRequested := by
  rw [Session.answered_s]
  cases a with
  | stop => exact absurd rfl hstop
  | cancelTask =>
    rw [effect_cancelTask]
    exact (cancel_frame _).2.2.2.2.2.2
  | armEventSignal | extendDeadline _ | put _ | setStopped | taskPending | awaitTask _ | joinTask | harvestState =>
    cases r <;> rfl
  | _ => exact False.elim ha

theorem Upright.cancel (h : Upright env σ) (hp : Pending σ .cancelTask) {r : Except PyExc (Reply .cancelTask)}
    (hr : CleanCall σ .cancelTask r) (hfailed : (σ.answered env .cancelTask r).s.h.state.failed = false) :
    Complete (σ.answered env .cancelTask r) := by
  obtain ⟨hout, hread, -⟩ := @cancel_frame env σ.s
  rw [Session.answered_cancelTask] at hfailed ⊢
  by_cases hl : σ.s.loop.live = true
  · rw [if_pos hl]
    obtain ⟨hcaught, hempty⟩ := hr.2 rfl hl
    refine ⟨hp.2.2 rfl, ⟨?_, hcaught.2⟩, hempty⟩
    dsimp only
    rw [hout, hread]
    exact hcaught.1
  · rw [if_neg hl] at hfailed ⊢
    have hstate : (Loop.cancel env σ.s).h.state = σ.s.h.state := by
      rcases (@cancel_loop env σ.s).2.2.2 with hst | ⟨hlive, -⟩
      · exact hst
      · exact absurd hlive hl
    have hunfailed : σ.s.h.state.failed = false := by
      rw [← hstate]
      exact hfailed
    exact (h.ended (by simpa using hl) hunfailed).of_same hout hread ⟨rfl, rfl, rfl⟩

theorem Upright.answer (h : Upright env σ) (hp : Pending σ a) {r : Except PyExc (Reply a)} (hr : CleanCall σ a r) :
    Upright env (σ.answered env a r) := by
  have hout : (σ.answered env a r).s.out = σ.s.out := by
    rw [Session.answered_s]
    exact effect_out _ _ _
  have hread : (σ.answered env a r).s.nread = σ.s.nread := by
    rw [Session.answered_s]
    exact effect_nread _ _ _
  refine ⟨h.steady.answer hp r, h.accounted.answer hp.1 r, ?_, ?_⟩
  · intro hrequested
    by_cases hstop : a = .stop
    · subst hstop
      exact (answered_stop r).1
    · rw [answered_requested hp.1 hstop] at hrequested
      exact answer_stopped hp (h.requested hrequested) r
  · intro hl hfailed
    by_cases hcancel : a = .cancelTask
    · subst hcancel
      exact h.cancel hp hr hfailed
    · by_cases hstop : a = .stop
      · subst hstop
        obtain ⟨-, hloop, hstate, hlater⟩ := @answered_stop env σ r
        rw [hloop] at hl
        rw [hstate] at hfailed
        have hcomplete := h.ended hl hfailed
        exact hcomplete.of_same hout hread (hlater hcomplete.stopped)
      · have hghosts := @answered_ghosts env σ a hp.1 hcancel hstop r
        by_cases hset : a = .setStopped
        · obtain ⟨hdone, hunfailed⟩ := hp.2.1 hset
          refine (h.ended ?_ hunfailed).of_same hout hread hghosts
          rw [hdone]
          rfl
        · obtain ⟨hloop, hstate, -⟩ := @answered_same env σ a hp.1 hcancel hset r
          rw [hloop] at hl
          rw [hstate] at hfailed
          exact (h.ended hl hfailed).of_same hout hread hghosts

end Answer

/-! ## Sessions -/

/-- What every step of such a session keeps. -/
def Uprightly (env : Env) (σ τ : Session) : Prop :=
  (Upright env σ → Upright env τ) ∧ (σ.stoppedAt ≠ none → τ.stoppedAt ≠ none)

/-- What a call returns. -/
abbrev UprightReturn (env : Env) : Except PyExc (Option HarvestState) → Session → Prop :=
  Post (fun r τ => ∀ st, r = some st → Upright env τ ∧ τ.s.loop = .done ∧ τ.s.h.state = st ∧ st ≠ .running)
    fun _ _ => True

theorem upright_started (clock timeout : Nat) : Upright env (Session.started clock timeout) where
  steady := steady_started clock timeout
  accounted := accounted_started clock timeout
  requested h := by cases h
  ended h := by cases h

theorem clean_sound {clock timeout : Nat} {x : List (Prog (Option HarvestState)) × Session}
    (h : PoolSteps (cleanSessions env) IsCall ([], Session.started clock timeout) x) :
    (∀ c ∈ x.1, Coroutine.Sound (cleanSessions env) (Uprightly env) Pending (UprightReturn env) x.2 c) ∧
      Upright env x.2 := by
  refine pool_sound ?_ ?_ (fun _ _ hσ hk => hk.1 hσ) ?_ h ⟨fun c hc => (by cases hc), upright_started clock timeout⟩
  · intro σ e τ he
    obtain ⟨he, hclean⟩ := he
    refine ⟨fun hσ => hσ.event he hclean, fun hstopped => ?_⟩
    rw [(Session.event_cases he).2]
    exact hstopped
  · intro σ a r τ hp hr
    obtain ⟨⟨-, rfl⟩, hclean⟩ := hr
    exact ⟨fun hσ => hσ.answer hp hclean, fun hstopped => answer_stopped hp hstopped r⟩
  · intro c σ hc hσ
    refine wp_call (fun _ _ _ hr => hr.1) (fun _ h => h.steady) ?_ (fun _ _ _ h hp hr => h.answer hp hr) hc hσ
    intro σ τ hσ hk
    exact ⟨hk.1 hσ, hk.2⟩

/-- A loop that has ended and gives nothing to complain about has not failed. -/
theorem unfailed_of_health {h : Harvester} (hnil : h.healthErrors = []) : h.state.failed = false := by
  cases hst : h.state with
  | timeout => exact absurd hnil (Harvester.healthErrors_ne_nil (.inl hst))
  | cleanEof => exact absurd hnil (Harvester.healthErrors_ne_nil (.inr (.inl hst)))
  | error => exact absurd hnil (Harvester.healthErrors_ne_nil (.inr (.inr hst)))
  | _ => rfl

/-- In sessions where the monitor lives until the stop and the loop has caught up when it gives
    up, a clean stop is trustworthy: what `aclose` calls stopped, and whatever state of an
    ended loop gives nothing to complain about. -/
theorem clean_stop_is_trustworthy {clock timeout : Nat} {x : List (Prog (Option HarvestState)) × Session}
    (h : PoolSteps (cleanSessions env) IsCall ([], Session.started clock timeout) x) :
    (∀ st τ, PoolReturns (cleanSessions env) x (some st) τ → st = .stopped ∨ τ.s.h.healthErrors =
      [] → Trustworthy env τ) ∧
      (x.2.s.loop.live = false → x.2.s.h.healthErrors = [] → Trustworthy env x.2) := by
  obtain ⟨hsound, hupright⟩ := clean_sound h
  constructor
  · intro st τ hreturns hclean
    obtain ⟨hτ, hdone, hstate, -⟩ := sound_returns hreturns hsound st rfl
    have hdead : τ.s.loop.live = false := by
      rw [hdone]
      rfl
    rcases hclean with rfl | hnil
    · refine hτ.trustworthy hdead ?_
      rw [hstate]
      rfl
    · exact hτ.trustworthy hdead (unfailed_of_health hnil)
  · intro hdead hnil
    exact hupright.trustworthy hdead (unfailed_of_health hnil)

end Nse

namespace Nse

open Coroutine

attribute [local instance] PyStr.Unicode.ascii

/-- The monitor lives until the stop, and the loop reads everything. -/
def cleanEvent (σ : Session) : SessionEv → Bool
  | .ev .begin | .ev .line => !σ.s.h.stopRequested
  | .ev (.write _ _) => σ.s.loop.live && !σ.s.h.stopRequested
  | .ev .exit => σ.s.h.stopRequested
  | .ev .eof => !σ.exitedAtStop
  | _ => false

def cleanAnswer (_ : Session) : (a : Req) → Except PyExc (Reply a) → Bool
  | .cancelTask, _ => false
  | _, .ok _ => true
  | _, .error _ => false

theorem cleanEvent_clean {env : Env} {σ : Session} {e : SessionEv} (h : cleanEvent σ e = true) :
    CleanEvent env σ e := by
  have hbefore : ∀ {e}, (!σ.s.h.stopRequested) = true → (∀ p line, e ≠ .ev (.write p line)) → CleanEvent env σ e := by
    intro e hno hwrite
    refine ⟨?_, fun p line heq => absurd heq (hwrite p line)⟩
    intro hyes
    rw [hyes] at hno
    cases hno
  cases e with
  | raising exc => cases h
  | ev e =>
    cases e with
    | begin | line => exact hbefore h fun p line heq => by cases heq
    | write p line =>
      obtain ⟨hlive, hno⟩ := Bool.and_eq_true_iff.mp h
      refine ⟨fun hyes => ?_, fun _ _ _ => .inl hlive⟩
      rw [hyes] at hno
      cases hno
    | exit =>
      refine ⟨fun _ τ hτ => ?_, fun p line heq => by cases heq⟩
      obtain ⟨s', hs, rfl⟩ := Option.map_eq_some_iff.mp hτ
      simp only [event] at hs
      split at hs
      · cases hs
        simp [observed]
      · cases hs
    | eof =>
      refine ⟨fun _ τ _ => ⟨fun _ => ?_, fun hobs => by cases hobs⟩, fun p line heq => by cases heq⟩
      simpa [cleanEvent] using h
    | _ => cases h

theorem cleanAnswer_clean {σ : Session} {a : Req} {r : Except PyExc (Reply a)} (h : cleanAnswer σ a r = true) :
    CleanCall σ a r := by
  cases r with
  | ok v =>
    refine ⟨fun e heq => (by cases heq), ?_⟩
    intro hcancel
    subst hcancel
    cases h
  | error e => cases a <;> cases h

/-- The monitor exits once it was told to stop, and the loop reads the end of its output. -/
def cleanSchedule (env : Env) : Script Req Reply PyExc Session SessionEv :=
  (sessionSchedule env (fun σ => obligingReply σ.s) fun σ a => (obligingEvents σ.s a).map .ev).guarded
    cleanAnswer cleanEvent

theorem cleanSchedule_fits (env : Env) : (cleanSchedule env).Fits (cleanSessions env) :=
  (sessionSchedule_fits env (fun σ => obligingReply σ.s) fun σ a => (obligingEvents σ.s a).map .ev).guarded
    (fun _ _ _ => cleanAnswer_clean) fun _ _ => cleanEvent_clean

theorem acloseCall (timeout : Nat) : IsCall (Call.aclose timeout).prog := ⟨_, rfl⟩

theorem clean_stop_is_trustworthy_sample : ∃ x τ,
    PoolSteps (cleanSessions {}) IsCall ([], Session.started 0 5000) x ∧
      PoolReturns (cleanSessions {}) x (some .stopped) τ ∧
      τ.s.out.length = 2 ∧ Trustworthy {} τ := by
  have hplay : (((cleanSchedule {}).happen twoLines (Session.started 0 5000)).any fun σ =>
      Script.returned (fun v τ => v == some .stopped && τ.s.out.length == 2)
        ((cleanSchedule {}).play 20 (Call.aclose 2000).prog σ)) = true := by
    decide +kernel
  obtain ⟨x, v, τ, hx, hreturns, hcheck⟩ :=
    returns_of_play (cleanSchedule_fits {}) (acloseCall 2000) (fun w h => by cases h) hplay
  obtain ⟨hv, htwo⟩ := Bool.and_eq_true_iff.mp hcheck
  cases eq_of_beq hv
  exact ⟨x, τ, hx, hreturns, eq_of_beq htwo, (clean_stop_is_trustworthy hx).1 _ τ hreturns (.inl rfl)⟩

/-- A schedule of events, with nobody cancelled. -/
def duringDrain (env : Env) (events : List SessionEv) : Script Req Reply PyExc Session SessionEv :=
  (sessionSchedule env (fun σ => obligingReply σ.s) fun _ a => match a with | .awaitTask _ => events | _ => []).guarded
    cleanAnswer fun _ _ => true

theorem duringDrain_fits (env : Env) (events : List SessionEv) : (duringDrain env events).Fits (uninterrupted env) :=
  (sessionSchedule_fits env (fun σ => obligingReply σ.s) _).guarded (fun _ _ _ h => (cleanAnswer_clean h).1)
    fun _ _ _ => trivial

/-- The monitor dies, then a stop is requested, then the loop reads the end of the output. -/
theorem a_dead_monitor_stops_cleanly : ∃ x τ,
    PoolSteps (uninterrupted {}) IsCall ([], Session.started 0 5000) x ∧
      PoolReturns (uninterrupted {}) x (some .stopped) τ ∧ τ.exitedAtStop = true ∧ τ.s.h.healthErrors = [] := by
  have hplay : (((duringDrain {} [.ev .eof]).happen [.ev .begin, .ev .exit] (Session.started 0 5000)).any fun σ =>
      Script.returned (fun v τ => v == some .stopped && τ.exitedAtStop && τ.s.h.healthErrors.isEmpty)
        ((duringDrain {} [.ev .eof]).play 20 (Call.aclose 2000).prog σ)) = true := by
    decide +kernel
  obtain ⟨x, v, τ, hx, hreturns, hcheck⟩ :=
    returns_of_play (duringDrain_fits {} [.ev .eof]) (acloseCall 2000) (fun w h => by cases h) hplay
  simp only [Bool.and_eq_true, List.isEmpty_iff] at hcheck
  obtain ⟨⟨hv, hexited⟩, hnil⟩ := hcheck
  cases eq_of_beq hv
  exact ⟨x, τ, hx, hreturns, hexited, hnil⟩

/-- The deadline passes after the stop, while a line waits. -/
def lateLines : List SessionEv :=
  [.ev (.write (.test 0) (verdictLine "b0")), .ev (.write (.test 1) (verdictLine "b1")), .ev (.tick 5000), .ev .line]

theorem a_stop_past_the_deadline_loses_lines : ∃ x τ,
    PoolSteps (uninterrupted {}) IsCall ([], Session.started 0 5000) x ∧
      PoolReturns (uninterrupted {}) x (some .stopped) τ ∧ τ.s.nread < τ.s.out.length ∧ τ.s.h.healthErrors = [] := by
  have hplay : (((duringDrain {} lateLines).happen [.ev .begin] (Session.started 0 5000)).any fun σ =>
      Script.returned (fun v τ => v == some .stopped && decide (τ.s.nread < τ.s.out.length) &&
        τ.s.h.healthErrors.isEmpty)
        ((duringDrain {} lateLines).play 20 (Call.aclose 6000).prog σ)) = true := by
    decide +kernel
  obtain ⟨x, v, τ, hx, hreturns, hcheck⟩ :=
    returns_of_play (duringDrain_fits {} lateLines) (acloseCall 6000) (fun w h => by cases h) hplay
  simp only [Bool.and_eq_true, List.isEmpty_iff, decide_eq_true_eq] at hcheck
  obtain ⟨⟨hv, hlate⟩, hnil⟩ := hcheck
  cases eq_of_beq hv
  exact ⟨x, τ, hx, hreturns, hlate, hnil⟩

end Nse
