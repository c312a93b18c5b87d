/-
  Nse.Core.Deadline — the read loop does not give up while the run makes progress.

  The deadline is moved by the tasks that use the harvester, while the loop is parked on a
  read; the loop looks at it whenever it comes round. The pace of a session is when the loop
  was started and when the deadline was extended, each with the time it was given.

  Proved, whatever the tasks of a session are and however they are scheduled:
  - `deadline_honoured`: the loop gives up only at a time that every start and extension so
    far has run out (`Timed`).
  - `deadline_never_truncates`: so a run of the pipeline whose calls come in time (`Paced`)
    never ends in a timeout.
-/

import Mathlib.Data.List.Chain
import Nse.Core.Sticky

namespace Nse

open Coroutine

variable [U : PyStr.Unicode] {env : Env}

/-! ## Pace -/

/-- The calls come in time: the first within the timeout of the start, and each less than
    `idle` after the one before. -/
def Paced (idle : Nat) : List (Nat × Nat) → Prop
  | start :: call :: calls => call.1 < start.1 + start.2 ∧ (call :: calls).IsChain fun x y => y.1 < x.1 + idle
  | _ => True

/-- The loop gave up at a time when everything it had been given had run out; what came
    after came too late. -/
def TooLate (σ : Session) : Prop :=
  ∃ given late g, σ.pace = given ++ late ∧ given ≠ [] ∧ g ≤ σ.s.clock ∧
    (∀ x ∈ given, x.1 + x.2 ≤ g) ∧ (∀ x ∈ late, g ≤ x.1) ∧
    ∀ ts, σ.stoppedAt = some ts → g ≤ ts

structure Timed (σ : Session) : Prop where
  horizon : ∀ x ∈ σ.pace, x.1 + x.2 ≤ σ.s.h.deadline
  begun : σ.s.loop ≠ .idle → σ.pace ≠ []
  stopped : ∀ ts, σ.stoppedAt = some ts → σ.s.h.stopRequested = true
  timeout : σ.s.h.state = .timeout → TooLate σ

/-- A call comes before what the last one was given has run out. -/
def InTime (x y : Nat × Nat) : Prop := y.1 < x.1 + x.2

omit U in
theorem chain_inTime {idle : Nat} {stop : Nat × Nat} : ∀ {calls : List (Nat × Nat)}, (∀ x ∈ calls, x.2 = idle) →
    (calls ++ [stop]).IsChain (fun x y => y.1 < x.1 + idle) → (calls ++ [stop]).IsChain InTime
  | [], _, _ => List.isChain_singleton _
  | x :: xs, hidle, h => by
    have hlater : (xs ++ [stop]).IsChain fun x y => y.1 < x.1 + idle :=
      (show ([x] ++ (xs ++ [stop])).IsChain _ from h).right_of_append
    have hrest := chain_inTime (fun y hy => hidle y (List.mem_cons_of_mem _ hy)) hlater
    cases xs with
    | nil =>
      have hnext := (List.isChain_cons_cons.mp h).1
      rw [← hidle x List.mem_cons_self] at hnext
      exact List.isChain_cons_cons.mpr ⟨hnext, hrest⟩
    | cons y ys =>
      have hnext := (List.isChain_cons_cons.mp h).1
      rw [← hidle x List.mem_cons_self] at hnext
      exact List.isChain_cons_cons.mpr ⟨hnext, hrest⟩

omit U in
theorem Paced.inTime {idle : Nat} {start stop : Nat × Nat} {calls : List (Nat × Nat)} (hidle : ∀ x ∈ calls, x.2 = idle)
    (h : Paced idle (start :: (calls ++ [stop]))) : (start :: (calls ++ [stop])).IsChain InTime := by
  cases calls with
  | nil => exact List.isChain_cons_cons.mpr ⟨h.1, List.isChain_singleton _⟩
  | cons call calls => exact List.isChain_cons_cons.mpr ⟨h.1, chain_inTime hidle h.2⟩

omit U in
/-- What came too late did not come in time. -/
theorem TooLate.not_paced {σ : Session} {ts : Nat} (h : TooLate σ) (hts : σ.stoppedAt = some ts) :
    ¬(σ.pace ++ [(ts, 0)]).IsChain InTime := by
  obtain ⟨given, late, g, hpace, hne, -, hgiven, hlate, hstop⟩ := h
  intro hchain
  rw [hpace, List.append_assoc] at hchain
  have hnext : InTime _ _ := hchain.rel_getLast_head_of_append hne (by simp)
  have hlast := hgiven _ (List.getLast_mem hne)
  have hhead : g ≤ ((late ++ [(ts, 0)]).head (by simp)).1 := by
    cases late with
    | nil => exact hstop ts hts
    | cons x xs => exact hlate x List.mem_cons_self
  unfold InTime at hnext
  omega

/-! ## Every step -/

section Step

variable {σ : Session} {s : St}

omit U in
@[simp] theorem endAs_deadline (h : Harvester) (st : HarvestState) : (h.endAs st).deadline = h.deadline := by
  unfold Harvester.endAs
  split <;> rfl

theorem Move.deadline {s s' : St} (hm : Move env s s') : s'.h.deadline = s.h.deadline := by
  cases hm <;> simp [Loop.close]

theorem Move.clock {s s' : St} (hm : Move env s s') : s.clock ≤ s'.clock := by
  cases hm <;> simp [Loop.close]

theorem Move.begun {s s' : St} (hm : Move env s s') (hs : s'.loop ≠ .idle) : s.loop ≠ .idle := by
  intro hidle
  exact hs ((hm.quiet (.inl hidle)).1.trans hidle)

/-- The state becomes `timeout` only past the deadline, and before a stop is requested. -/
theorem Move.timeout {s s' : St} (hm : Move env s s') (hst : s'.h.state = .timeout) :
    s.h.state = .timeout ∨ (s.loop ≠ .idle ∧ s.h.stopRequested = false ∧ s.h.deadline ≤ s.clock) := by
  cases hm with
  | finish st err hl hend =>
    dsimp only at hst
    unfold Harvester.endAs at hst
    split at hst
    · cases hst
      exact .inr ⟨by rw [hl]; exact nofun, hend⟩
    · exact .inl hst
  | parsed p line e _ _ _ => exact .inl ((Harvester.recordId_state _ _).symm.trans hst)
  | unparsed p line _ _ _ => exact .inl ((Harvester.recordUnparsed_state _ _).symm.trans hst)
  | _ => exact .inl hst

theorem Timed.move (h : Timed σ) (hm : Move env σ.s s) : Timed { σ with s } := by
  refine ⟨?_, fun hs => h.begun (hm.begun hs), fun ts hts => hm.stopRequested.trans (h.stopped ts hts), ?_⟩
  · intro x hx
    have hbound := h.horizon x hx
    rw [← hm.deadline] at hbound
    exact hbound
  · intro hst
    rcases hm.timeout hst with hst | ⟨hbegun, hstop, hlate⟩
    · obtain ⟨given, late, g, hpace, hne, hg, hrest⟩ := h.timeout hst
      exact ⟨given, late, g, hpace, hne, Nat.le_trans hg hm.clock, hrest⟩
    · -- it gives up now: everything it was given has run out
      refine ⟨σ.pace, [], σ.s.clock, (List.append_nil _).symm, h.begun hbegun, hm.clock, ?_,
        fun x hx => (by cases hx), ?_⟩
      · intro x hx
        exact Nat.le_trans (h.horizon x hx) hlate
      · intro ts hts
        have hyes := h.stopped ts hts
        rw [hstop] at hyes
        cases hyes

/-- Requests that leave the clock, the deadline, the terminal state and the stop flag alone. -/
def Req.untimed : Req → Bool
  | .reset | .launch _ | .extendDeadline _ | .stop | .cancelTask | .setStopped => false
  | _ => true

omit U in
theorem answered_untimed {a : Req} (ha : a.untimed = true) (r : Except PyExc (Reply a)) :
    (σ.answered env a r).s.horizon = σ.s.horizon ∧ (σ.answered env a r).s.loop = σ.s.loop ∧
      (σ.answered env a r).pace = σ.pace ∧ (σ.answered env a r).stoppedAt = σ.stoppedAt := by
  rw [Session.answered_s]
  cases a <;> cases ha <;> cases r <;> first | exact ⟨rfl, rfl, rfl, rfl⟩ |
    (simp only [effect]; split <;> exact ⟨rfl, rfl, rfl, rfl⟩)

omit U in
theorem cancel_horizon (s : St) : (Loop.cancel env s).clock = s.clock ∧ (Loop.cancel env s).h.deadline = s.h.deadline ∧
    (Loop.cancel env s).h.stopRequested = s.h.stopRequested ∧
      ((Loop.cancel env s).h.state = .timeout → s.h.state = .timeout) ∧
        ((Loop.cancel env s).loop ≠ .idle → s.loop ≠ .idle) := by
  unfold Loop.cancel
  cases hl : s.loop with
  | idle | done | scheduled | closing => simp [hl]
  | reading | putting e =>
    dsimp only
    split <;> simp [Loop.close]

omit U in
/-- The time runs on, and nothing that was given is taken back. -/
theorem Timed.of_later {τ : Session} (h : Timed σ) (hpace : τ.pace = σ.pace)
    (hdeadline : τ.s.h.deadline = σ.s.h.deadline)
    (hclock : σ.s.clock ≤ τ.s.clock) (hbegun : τ.s.loop ≠ .idle → σ.s.loop ≠ .idle)
    (hstopped : ∀ ts, τ.stoppedAt = some ts → τ.s.h.stopRequested = true ∧ (σ.stoppedAt = some ts ∨ ts = σ.s.clock))
    (hstate : τ.s.h.state = .timeout → σ.s.h.state = .timeout) : Timed τ := by
  refine ⟨?_, ?_, fun ts hts => (hstopped ts hts).1, ?_⟩
  · intro x hx
    rw [hpace] at hx
    rw [hdeadline]
    exact h.horizon x hx
  · intro hs
    rw [hpace]
    exact h.begun (hbegun hs)
  · intro hst
    obtain ⟨given, late, g, hsplit, hne, hg, hgiven, hlate, hstop⟩ := h.timeout (hstate hst)
    refine ⟨given, late, g, hpace.trans hsplit, hne, Nat.le_trans hg hclock, hgiven, hlate, ?_⟩
    intro ts hts
    rcases (hstopped ts hts).2 with hold | hnow
    · exact hstop ts hold
    · omega

omit U in
theorem Timed.answer (h : Timed σ) (a : Req) (r : Except PyExc (Reply a)) : Timed (σ.answered env a r) := by
  have hsame : ∀ ts, σ.stoppedAt = some ts → σ.s.h.stopRequested = true ∧ (σ.stoppedAt = some ts ∨ ts = σ.s.clock) :=
    fun ts hts => ⟨h.stopped ts hts, .inl hts⟩
  by_cases ha : a.untimed = true
  · obtain ⟨hhorizon, hloop, hpace, hstopped⟩ := @answered_untimed env σ a ha r
    simp only [St.horizon, Prod.mk.injEq] at hhorizon
    obtain ⟨hclock, hdeadline, hstate, hstop⟩ := hhorizon
    refine h.of_later hpace hdeadline (Nat.le_of_eq hclock.symm) (fun hs => hloop ▸ hs) ?_
      fun hst => hstate.symm.trans hst
    rw [hstopped, hstop]
    exact hsame
  · cases a with
    | cancelTask =>
      obtain ⟨hclock, hdeadline, hstop, hstate, hbegun⟩ := @cancel_horizon env σ.s
      rw [Session.answered_cancelTask]
      split
      · refine h.of_later rfl hdeadline (Nat.le_of_eq hclock.symm) hbegun (fun ts hts => ?_) hstate
        exact ⟨hstop.trans (h.stopped ts hts), .inl hts⟩
      · refine h.of_later rfl hdeadline (Nat.le_of_eq hclock.symm) hbegun (fun ts hts => ?_) hstate
        exact ⟨hstop.trans (h.stopped ts hts), .inl hts⟩
    | reset =>
      cases r <;> exact h.of_later rfl rfl (Nat.le_refl _) (fun hs => hs) (fun _ hts => by cases hts) fun hst => hst
    | setStopped =>
      cases r <;> exact h.of_later rfl rfl (Nat.le_refl _) (fun hs => hs) hsame fun hst => by cases hst
    | launch t =>
      have hs : σ.answered env (.launch t) r = { σ with
          s := { σ.s with h := σ.s.h.launched σ.s.clock t, loop := .scheduled }
          cancelled := false, dropped := [], pace := [(σ.s.clock, t)] } := by
        cases r <;> rfl
      rw [hs]
      refine ⟨?_, fun _ => List.cons_ne_nil _ _, h.stopped, fun hst => by cases hst⟩
      intro x hx
      cases List.mem_singleton.mp hx
      exact Nat.le_refl _
    | extendDeadline ms =>
      have hs : σ.answered env (.extendDeadline ms) r = { σ with
          s := { σ.s with h := σ.s.h.extendDeadline σ.s.clock ms }, pace := σ.pace ++ [(σ.s.clock, ms)] } := by
        cases r <;> rfl
      rw [hs]
      refine ⟨?_, fun _ => by simp, h.stopped, ?_⟩
      · intro x hx
        rcases List.mem_append.mp hx with hx | hx
        · exact Nat.le_trans (h.horizon x hx) (Nat.le_max_left _ _)
        · cases List.mem_singleton.mp hx
          exact Nat.le_max_right _ _
      · intro hst
        obtain ⟨given, late, g, hpace, hne, hg, hgiven, hlate, hstop⟩ := h.timeout hst
        refine ⟨given, late ++ [(σ.s.clock, ms)], g, ?_, hne, hg, hgiven, ?_, hstop⟩
        · dsimp only
          rw [hpace, List.append_assoc]
        · intro x hx
          rcases List.mem_append.mp hx with hx | hx
          · exact hlate x hx
          · cases List.mem_singleton.mp hx
            exact hg
    | stop =>
      unfold Session.answered
      dsimp only
      cases hfirst : σ.stoppedAt with
      | none =>
        cases r <;> exact h.of_later rfl rfl (Nat.le_refl _) (fun hs => hs)
          (fun _ hts => ⟨rfl, .inr (Option.some.inj hts).symm⟩) fun hst => hst
      | some t =>
        cases r <;> exact h.of_later rfl rfl (Nat.le_refl _) (fun hs => hs)
          (fun _ hts => ⟨rfl, .inl (hfirst.trans hts)⟩) fun hst => hst
    | _ => exact absurd rfl ha

omit U in
theorem timed_init : Timed {} where
  horizon x hx := by cases hx
  begun h := absurd rfl h
  stopped ts h := by cases h
  timeout h := by cases h

end Step

/-! ## Sessions of any tasks -/

section Sessions

variable {α : Type} {starts : Prog α → Prop} {cs cs' : List (Prog α)} {σ : Session}

theorem sessions_timed (h : PoolSteps (sessions env) starts (cs, {}) (cs', σ)) : Timed σ := by
  have hall : ∀ c : Prog α, Only (fun _ => True) c := only_all fun _ => trivial
  have hstable : Stable (sessions env) Timed := Session.stable_of_moves fun _ _ h hm => h.move hm
  refine (pool_only hstable ?_ (fun c _ => hall c) h ⟨fun c _ => hall c, timed_init⟩).2
  rintro σ a r τ - hσ ⟨-, rfl⟩
  exact hσ.answer a r

/-- The loop gives up only when every start and extension so far has run out. -/
theorem deadline_honoured (h : PoolSteps (sessions env) starts (cs, {}) (cs', σ)) {e : SessionEv} {τ : Session}
    (he : σ.event env e = some τ) (hobs : observed σ.s τ.s e = some .timeout) :
      ∀ x ∈ σ.pace, x.1 + x.2 ≤ σ.s.clock := by
  intro x hx
  obtain ⟨t, ht, hgives⟩ := observed_timeout he hobs
  simp only [St.horizon, Prod.mk.injEq] at ht
  have hbound := (sessions_timed h).horizon x hx
  have hlate := hgives.late
  omega

end Sessions

/-! ## The pipeline -/

/-- Extends the deadline by this much, if it extends it. -/
def Req.extendsBy (idle : Nat) : Req → Prop
  | .extendDeadline ms => ms = idle
  | _ => True

section Extends

variable {idle : Nat} {testId : String} {a : Req}

omit U

theorem Req.opening.extendsBy (h : a.opening) : a.extendsBy idle := by
  cases a <;> trivial

theorem Req.aside.extendsBy (h : a.aside) : a.extendsBy idle := h.opening.extendsBy

theorem Req.spawning.extendsBy (h : a.spawning) : a.extendsBy idle := by
  cases a <;> trivial

theorem Req.closing.extendsBy (h : a.closing) : a.extendsBy idle := by
  cases a <;> trivial

theorem Req.reporting.extendsBy (h : a.reporting testId) : a.extendsBy idle := by
  cases a <;> trivial

end Extends

section Pipeline

variable (cfg : Pipeline.Config) (req : TestRequest) (testId : String) (c : NetnsController) (t : Pipeline.Target)
  (spec : PacketSpec)

omit U in
/-- A request that does not extend the deadline, or by the idle timeout. -/
theorem extends_ask {a : Req} (ha : a.extendsBy cfg.idleTimeout) : Only (Req.extendsBy cfg.idleTimeout) (perform a) :=
  only_request ha

theorem extends_injectPacket (p : Packet) : Only (Req.extendsBy cfg.idleTimeout) (Pipeline.injectPacket t p spec) := by
  refine only_bind (fun _ => only_bind (fun _ => extends_ask cfg (by trivial)) ?_) (extends_ask cfg (by trivial))
  exact only_mono (fun _ => Req.aside.extendsBy) (only_inject _ _ _ _ _ _)

theorem extends_probeAttempt (label : Label) (attempt : Nat) :
    Only (Req.extendsBy cfg.idleTimeout) (Pipeline.probeAttempt cfg t label spec attempt) := by
  have hcanary : Only (Req.extendsBy cfg.idleTimeout) (Pipeline.injectCanary cfg t label spec attempt) := by
    refine only_tryCatch (fun e => ?_) (only_bind (fun _ => only_ret) (extends_injectPacket cfg t spec _))
    split
    · exact only_bind (fun _ => only_ret) (extends_ask cfg (by trivial))
    · exact trivial
  have hextend : Only (Req.extendsBy cfg.idleTimeout) (perform (.extendDeadline cfg.idleTimeout)) := extends_ask cfg rfl
  refine only_bind (fun _ => only_bind (fun _ => only_bind (fun injected => ?_) hcanary) hextend)
    (extends_ask cfg (by trivial))
  split
  · exact extends_ask cfg trivial
  · exact trivial

theorem extends_probeFrom (label : Label) :
    ∀ left attempt : Nat, Only (Req.extendsBy cfg.idleTimeout) (Pipeline.probeFrom cfg t label spec attempt left)
  | 0, _ => trivial
  | left + 1, attempt => by
    refine only_bind (fun seen => ?_) (extends_probeAttempt cfg t spec label attempt)
    split
    · exact trivial
    · exact extends_probeFrom label left (attempt + 1)

theorem extends_probeOracle (label : Label) :
    Only (Req.extendsBy cfg.idleTimeout) (Pipeline.probeOracle cfg t label spec) :=
  only_bind (fun _ => only_bind (fun _ => only_ret) (extends_ask cfg (by trivial)))
    (extends_probeFrom cfg t spec label _ _)

theorem extends_injectFrom : ∀ (pkts : List PacketSpec) (i : Nat),
    Only (Req.extendsBy cfg.idleTimeout) (Pipeline.injectFrom cfg t i pkts)
  | [], _ => trivial
  | pkt :: pkts, i => by
    have hextend : Only (Req.extendsBy cfg.idleTimeout) (perform (.extendDeadline cfg.idleTimeout)) :=
      extends_ask cfg rfl
    refine only_bind (fun _ => only_bind (fun _ => only_bind (fun _ => ?_) (extends_ask cfg (by trivial))) ?_) hextend
    · exact extends_injectFrom pkts (i + 1)
    · exact extends_injectPacket cfg t pkt _

theorem extends_measure : Only (Req.extendsBy cfg.idleTimeout) (Pipeline.measure cfg req testId c) := by
  have hask : ∀ {a : Req}, a.extendsBy cfg.idleTimeout → Only (Req.extendsBy cfg.idleTimeout) (perform a) :=
    extends_ask cfg
  have hemit : ∀ message, Only (Req.extendsBy cfg.idleTimeout) (Pipeline.emitOracleError testId message) :=
    fun message => only_mono (fun _ => Req.reporting.extendsBy) (only_emitOracleError testId message)
  have hliveness : Only (Req.extendsBy cfg.idleTimeout) (Pipeline.checkLiveness cfg req testId c) := by
    refine only_bind (fun before => only_bind (fun alive => only_bind (fun _ => ?_) (only_ifSo (hemit _))) ?_)
      (hask (by trivial))
    · refine only_bind (fun now => ?_) (hask (by trivial))
      exact hask (by trivial)
    · exact extends_probeOracle cfg _ _ _
  have hhealth : Only (Req.extendsBy cfg.idleTimeout) (Pipeline.reportHealth testId) := by
    refine only_bind (fun _ => only_bind (fun problems => only_bind (fun _ => ?_) ?_) (hask (by trivial))) ?_
    · exact only_bind (fun st => only_ifSo (hask (by trivial))) (hask (by trivial))
    · exact only_forEach fun message _ => hemit message
    · exact only_mono (fun _ => Req.closing.extendsBy) (only_aclose _)
  refine only_bind (fun ids => only_bind (fun _ => only_bind (fun _ => only_bind (fun _ => ?_) ?_) ?_) ?_)
    (hask (by trivial))
  · refine only_bind (fun _ => only_bind (fun _ => only_bind (fun _ => only_ret) hhealth) ?_) hliveness
    exact only_mono (fun _ => Req.reporting.extendsBy) (only_reportConntrack c req testId)
  · exact hask (by trivial)
  · exact extends_injectFrom cfg _ _ _
  · exact hask (by trivial)

theorem extends_runTestPipeline (controller : Option NetnsController) :
    Only (Req.extendsBy cfg.idleTimeout) (Pipeline.runTestPipeline cfg req controller testId) := by
  have hask : ∀ {a : Req}, a.extendsBy cfg.idleTimeout → Only (Req.extendsBy cfg.idleTimeout) (perform a) :=
    extends_ask cfg
  have hreporting : ∀ {α : Type} {x : Prog α}, Only (Req.reporting testId) x → Only (Req.extendsBy cfg.idleTimeout) x :=
    only_mono fun _ => Req.reporting.extendsBy
  have hbody : ∀ c : NetnsController, Only (Req.extendsBy cfg.idleTimeout) (Pipeline.body cfg req testId c) := by
    intro c
    refine only_bind (fun _ => only_bind (fun _ => only_bind (fun _ => only_bind (fun ready => ?_) ?_) ?_) ?_) ?_
    · split
      · exact extends_measure cfg req testId c
      · exact hreporting (only_giveUp testId)
    · exact extends_probeOracle cfg _ _ _
    · exact only_mono (fun _ => Req.opening.extendsBy) (only_startMonitor c req testId cfg)
    · exact only_mono (fun _ => Req.spawning.extendsBy) (only_spawnListeners c req testId)
    · exact only_mono (fun _ => Req.aside.extendsBy) (only_setupTopology c req testId)
  have hhandle : ∀ e : PyExc, Only (Req.extendsBy cfg.idleTimeout) (Pipeline.handle testId e) := by
    intro e
    have hreport : ∀ message, Only (Req.extendsBy cfg.idleTimeout) (Pipeline.reportException testId message) := by
      intro message
      refine only_bind (fun _ => only_bind (fun _ => only_bind (fun _ => ?_) (hreporting (only_emitNone testId)))
        (hreporting (only_emitEvent testId (own_errorEvent testId _)))) (hask (by trivial))
      exact only_bind (fun _ => only_ret) (only_mono (fun _ => Req.closing.extendsBy) (only_aclose _))
    unfold Pipeline.handle
    split
    · exact hreport _
    · split
      · exact hreport _
      · exact trivial
  have hrest : ∀ c : NetnsController, Only (Req.extendsBy cfg.idleTimeout) (Pipeline.runWith cfg req testId c) := by
    intro c
    refine only_bind (fun _ => only_bind (fun early => ?_) (only_tryFinally ?_ (only_tryCatch hhandle (hbody c))))
      (hask (by trivial))
    · cases early with
      | some ref => exact trivial
      | none => exact hreporting (only_result testId)
    · exact only_mono (fun _ => Req.aside.extendsBy) (only_teardown req testId)
  cases controller with
  | some c => exact hrest c
  | none => exact only_bind hrest (only_mono (fun _ => Req.aside.extendsBy) (only_new none))

/-- Every extension so far was by this much. -/
def GivesOnly (idle : Nat) (σ : Session) : Prop := ∀ x ∈ σ.pace.tail, x.2 = idle

omit U in
theorem GivesOnly.answer {idle : Nat} {σ : Session} (h : GivesOnly idle σ) {a : Req} (ha : a.extendsBy idle)
    (r : Except PyExc (Reply a)) : GivesOnly idle (σ.answered env a r) := by
  unfold Session.answered
  cases a with
  | launch t => exact fun x hx => by cases hx
  | extendDeadline ms =>
    have hms : ms = idle := ha
    intro x hx
    dsimp only at hx
    cases hpace : σ.pace with
    | nil =>
      rw [hpace] at hx
      cases hx
    | cons start calls =>
      rw [hpace] at hx
      rcases List.mem_append.mp hx with hx | hx
      · exact h x (by rw [hpace]; exact hx)
      · cases List.mem_singleton.mp hx
        exact hms
  | stop =>
    dsimp only
    split <;> exact h
  | cancelTask =>
    dsimp only
    split <;> exact h
  | _ => exact h

theorem pipeline_timed {controller : Option NetnsController} {d : Prog Pipeline.ListRef} {σ : Session}
    (h : Steps (sessions env) (Pipeline.runTestPipeline cfg req controller testId, {}) (d, σ)) :
    Timed σ ∧ GivesOnly cfg.idleTimeout σ := by
  have hstable : Stable (sessions env) fun σ => Timed σ ∧ GivesOnly cfg.idleTimeout σ :=
    Session.stable_of_moves fun _ _ h hm => ⟨h.1.move hm, h.2⟩
  have hans : ∀ σ a r τ, a.extendsBy cfg.idleTimeout → (Timed σ ∧ GivesOnly cfg.idleTimeout σ) →
      (sessions env).answer σ a r τ → Timed τ ∧ GivesOnly cfg.idleTimeout τ := by
    rintro σ a r τ ha hσ ⟨-, rfl⟩
    exact ⟨hσ.1.answer a r, hσ.2.answer ha r⟩
  exact (only_steps hstable hans (extends_runTestPipeline cfg req testId controller)
    ⟨timed_init, fun x hx => by cases hx⟩ h).2

end Pipeline

/-- A run of the pipeline whose calls come in time does not end in a timeout; and whatever
    tasks use a harvester, its loop gives up only when everything it was given has run out. -/
theorem deadline_never_truncates (cfg : Pipeline.Config) (req : TestRequest) (controller : Option NetnsController)
    (testId : String) :
    (∀ c σ ts, Steps (sessions env) (Pipeline.runTestPipeline cfg req controller testId, {}) (c, σ) →
      σ.stoppedAt = some ts → Paced cfg.idleTimeout (σ.pace ++ [(ts, 0)]) → σ.s.h.state ≠ .timeout) ∧
    ∀ (α : Type) (starts : Prog α → Prop) cs cs' σ e τ, PoolSteps (sessions env) starts (cs, {}) (cs', σ) →
      σ.event env e = some τ → observed σ.s τ.s e = some .timeout → ∀ x ∈ σ.pace, x.1 + x.2 ≤ σ.s.clock := by
  refine ⟨?_, fun _ _ _ _ _ _ _ h he hobs => deadline_honoured h he hobs⟩
  intro c σ ts h hts hpaced hst
  obtain ⟨htimed, hgives⟩ := pipeline_timed cfg req testId h
  have hlate := htimed.timeout hst
  refine hlate.not_paced hts ?_
  cases hpace : σ.pace with
  | nil =>
    obtain ⟨given, late, g, hsplit, hne, -⟩ := hlate
    rw [hpace] at hsplit
    exact absurd (List.append_eq_nil_iff.mp hsplit.symm).1 hne
  | cons start calls =>
    rw [hpace] at hpaced
    have hidle : ∀ x ∈ calls, x.2 = cfg.idleTimeout := by
      intro x hx
      exact hgives x (by rw [hpace]; exact hx)
    exact hpaced.inTime hidle

end Nse

namespace Nse

open Coroutine

attribute [local instance] PyStr.Unicode.ascii

/-- The events of an obliging world, with ten milliseconds for each command. -/
def unhurried (σ : Session) (a : Req) : List SessionEv :=
  match a with
  | .run _ => [.ev (.tick 10)]
  | a => (obligingEvents σ.s a).map .ev

instance (idle : Nat) : ∀ pace : List (Nat × Nat), Decidable (Paced idle pace)
  | [] => .isTrue trivial
  | [_] => .isTrue trivial
  | _ :: _ :: _ => inferInstanceAs (Decidable (_ ∧ _))

theorem deadline_never_truncates_sample : ∃ ref σ ts,
    Steps (sessions {}) (Pipeline.runTestPipeline {} sampleRequest none "a1b2c3d4e5f6", {}) (.ret ref, σ) ∧
      σ.stoppedAt = some ts ∧ 0 < ts ∧ σ.s.h.state ≠ .timeout := by
  have hplay : Script.returned (fun _ σ => σ.stoppedAt.any fun ts =>
        decide (0 < ts) && decide (Paced ({} : Pipeline.Config).idleTimeout (σ.pace ++ [(ts, 0)])))
      ((sessionSchedule {} (fun σ => obligingReply σ.s) unhurried).play 200
        (Pipeline.runTestPipeline {} sampleRequest none "a1b2c3d4e5f6") {}) = true := by
    decide +kernel
  obtain ⟨ref, σ, hrun, hcheck⟩ := Script.returned_steps (sessionSchedule_fits _ _ _) hplay
  obtain ⟨ts, hts, hpaced⟩ := (Option.any_eq_true _ _).mp hcheck
  simp only [Bool.and_eq_true, decide_eq_true_eq] at hpaced
  have hnever := (deadline_never_truncates {} sampleRequest none "a1b2c3d4e5f6").1 _ σ ts hrun hts hpaced.2
  exact ⟨ref, σ, ts, hrun, hts, hpaced.1, hnever⟩

end Nse
