/-
  Nse.Core.Consumer — a consumer that stops at the first `None`.

  It misses nothing in a run that goes as it should: no request fails between the start of
  the read loop and the stop, the readiness canary is seen, and the closed harvester has
  nothing to complain about (`Unhindered`). Whether the pipeline puts a `None` of its own
  then follows from what the environment did: an exception of the `try` block came before
  the read loop was started, and the early return is not taken (`unended_run`). How the
  requests before the start and after the stop are answered does not matter, so a run that
  fails before its monitor starts is among them.
-/

import Nse.Core.FalseAlarm
import Nse.Core.Sentinel

namespace Nse

open Coroutine
open Pipeline (ListRef)

variable [K : Scapy] [U : PyStr.Unicode] {env : Env}

/-- The read loop was started, and nobody has asked it to stop. -/
structure Underway (s : St) : Prop where
  started : s.loop ≠ .idle
  wanted : s.h.stopRequested = false

/-- Nobody cancels the run, every request succeeds while it is under way, the readiness canary
    is not missed, and the closed harvester has nothing to complain about. -/
structure Unhindered (s : St) (a : Req) (r : Except PyExc (Reply a)) : Prop where
  quiet : cancels s a r = false
  obliged : Underway s → Obliged a r
  ready : .probed .readiness false ∉ s.marks
  healthy : a = .healthErrors → s.h.healthErrors = []

theorem unhindered_quiet : Quiet Unhindered := fun _ _ _ h => h.quiet

/-- The pipeline puts `None` only where no read loop was started. -/
def Unended (s : St) (a : Req) : Prop := a = .put none → s.loop = .idle

theorem Unhindered.streaming {s : St} {a : Req} {r : Except PyExc (Reply a)} (h : Unhindered s a r) (hs : Unended s a) :
    Streaming s a r := ⟨h.quiet, hs, h.healthy⟩

/-- In an unhindered run no `None` of the pipeline is put beside a read loop, and the coroutine
    ends, if it does, with `V` of its value or `X` of its exception. -/
abbrev Unbroken (env : Env) {α : Type} (V : α → St → Prop) (X : PyExc → St → Prop) (c : Prog α) (s : St) : Prop :=
  wp (answering env Unhindered) Unended (Post V X) c s

/-! ## Before, under way, and at any time -/

section Phases

variable {α : Type} {V : α → Prop} {X : PyExc → Prop} {c : Prog α} {s : St}

/-- Requests that do not start the read loop. -/
def Req.dormant : Req → Prop
  | .launch _ => False
  | _ => True

/-- Requests that put no `None`. -/
def Req.unending : Req → Prop
  | .put none => False
  | _ => True

/-- Requests of the steps between the start and the stop. -/
def Req.underway : Req → Prop
  | .put none | .stop | .cancelTask | .reset | .launch _ => False
  | _ => True

omit K in
theorem idle_kept : Kept env Req.dormant fun s => s.loop = .idle := by
  refine ⟨fun s s' h hm => ((hm.quiet (.inl h)).1).trans h, fun s a r ha h _ => ?_⟩
  cases a with
  | cancelTask =>
    have hsame : Loop.cancel env s = s := by
      unfold Loop.cancel
      rw [h]
    rw [effect_cancelTask, hsame]
    exact h
  | run c =>
    cases r with
    | ok _ => exact h
    | error e =>
      simp only [effect]
      split <;> exact h
  | launch t => exact ha.elim
  | _ => cases r <;> exact h

omit K in
theorem underway_lasting : Lasting env Req.underway Underway := by
  refine ⟨stable_of_moves fun s s' h hm => ⟨?_, hm.stopRequested.trans h.wanted⟩, fun s a r ha h _ => ?_⟩
  · have hstarted := h.started
    cases hm <;> first | exact hstarted | simp [Loop.close]
  · cases a with
    | run c =>
      cases r with
      | ok _ => exact ⟨h.started, h.wanted⟩
      | error e =>
        simp only [effect]
        split <;> exact ⟨h.started, h.wanted⟩
    | _ => first | exact ha.elim | (cases r <;> exact ⟨h.started, h.wanted⟩)

/-- Until the read loop is started anything may fail. -/
theorem unended_kept {p : Req → Prop} {P : St → Prop} (hP : Kept env p P) (hidle : ∀ t, P t → t.loop = .idle)
    {c : Prog α} (hc : Only p c) (hs : P s) : Unbroken env (fun _ => P) (fun _ => P) c s := by
  refine wp_restrict (wp_mono (fun r t ht => ?_) c s (hP.wp_only (I := Unended) (fun t _ _ ht _ => hidle t ht) hc hs))
  cases r <;> exact ht

theorem unended_dormant {c : Prog α} (hc : Only Req.dormant c) (hs : s.loop = .idle) :
    Unbroken env (fun _ t => t.loop = .idle) (fun _ t => t.loop = .idle) c s :=
  unended_kept idle_kept (fun _ h => h) hc hs

/-- A request that is answered at once. -/
theorem unended_now {a : Req} {V : Reply a → St → Prop} {X : PyExc → St → Prop}
    (hn : parked env s a = false) (ha : Unended s a)
    (hnone : ∀ e, allows env s a (.error e) = false)
    (hv : ∀ v, Unhindered s a (.ok v) → V v (effect env s a (.ok v))) : Unbroken env V X (perform a) s := by
  refine wp_request_now (W := answering env Unhindered) (Bool.eq_false_iff.mp hn) ha fun r t hr => ?_
  obtain ⟨⟨hal, rfl⟩, hans⟩ := hr
  cases r with
  | ok v => exact hv v hans
  | error e =>
    rw [hnone e] at hal
    cases hal

/-- What makes no `None` follows no order. -/
theorem unended_unending {c : Prog α} (hc : Only Req.unending c) :
    wp (answering env Unhindered) Unended (fun _ _ => True) c s := by
  have hkept : Kept env Req.unending fun _ => True := Kept.const
  refine wp_restrict (hkept.wp_only (fun t a ha _ hnone => ?_) hc trivial)
  subst hnone
  exact ha.elim

/-- Under way it ends as its requests let it. -/
theorem unended_underway {c : Prog α} (hc : Only Req.underway c) (hsettles : Settles Obliged V X c) (hs : Underway s) :
    Unbroken env (fun v t => V v ∧ Underway t) (fun e t => X e ∧ Underway t) c s := by
  refine wp_settles underway_lasting.stable.restrict (fun t a ha _ hnone => ?_) (fun _ _ _ _ ht hr => hr.2.obliged ht)
    (fun t a r t' ha ht hr => ?_) hc hsettles hs
  · subst hnone
    exact ha.elim
  · obtain ⟨⟨hal, rfl⟩, -⟩ := hr
    exact underway_lasting.answer t a r ha ht hal

theorem unended_smooth {c : Prog α} (hc : Only Req.underway c) (hsmooth : Smooth c) (hs : Underway s) :
    Unbroken env (fun _ => Underway) (fun _ _ => False) c s :=
  post_mono (unended_underway hc hsmooth hs) (fun _ _ h => h.2) fun _ _ h => h.1

end Phases

/-! ## The steps of a run -/

section Steps

variable {cfg : Pipeline.Config} {req : TestRequest} {c : NetnsController} {testId : String} {s : St}

omit K U in
theorem Req.aside.underway {a : Req} (h : a.aside) : a.underway := by
  cases a <;> first | exact h.elim | trivial

omit K U in
theorem Req.sending.underway {which : Packet → Prop} {a : Req} (h : a.sending which) : a.underway := by
  cases a <;> first | exact h.elim | trivial

omit K U in
theorem Req.underway.unending {a : Req} (h : a.underway) : a.unending := by
  cases a with
  | put item => cases item <;> exact h
  | _ => trivial

omit K U in
theorem Req.closing.unending {a : Req} (h : a.closing) : a.unending := by
  cases a <;> first | exact h.elim | trivial

omit K U in
theorem Req.closing.dormant {a : Req} (h : a.closing) : a.dormant := by
  cases a <;> first | exact h.elim | trivial

omit K U in
theorem Req.reporting.dormant {a : Req} (h : a.reporting testId) : a.dormant := by
  cases a <;> first | exact h.elim | trivial

omit K U in
theorem Req.spawning.dormant {a : Req} (h : a.spawning) : a.dormant := by
  cases a <;> first | exact h.elim | trivial

omit K U in
theorem underway_emitOracleError (message : String) : Only Req.underway (Pipeline.emitOracleError testId message) := by
  have hput : ∀ e : TraceEvent, Only Req.underway (perform (.put (some e))) := fun _ => only_request (by trivial)
  refine only_bind (fun _ => only_bind (fun _ => hput _) ?_) (only_request (by trivial))
  exact only_request (by trivial)

/-- The canary may be one that cannot be built. -/
theorem smooth_injectCanary {t : Pipeline.Target} {label : Label} {spec : PacketSpec} (attempt : Nat) :
    Smooth (Pipeline.injectCanary cfg t label spec attempt) := by
  let caught : PyExc → Prop := fun e => e.isException = true
  have hmark : ∀ m, Settles Obliged (fun _ => True) caught (perform (.mark m)) := fun m =>
    settles_mono (fun _ h => h) (fun _ h => h.elim) (smooth_perform (a := .mark m) trivial)
  have hinject : Settles Obliged (fun _ => True) caught (Pipeline.injectPacket t (.canary label attempt) spec) := by
    refine settles_bind (fun _ _ => settles_bind (V := fun _ => spec.Builds) (fun _ _ => hmark _) ?_) (hmark _)
    exact settles_mono (fun _ h => h) (fun _ h => h.2) (settles_inject _ _ _ _ _ _)
  have hsent : Settles Obliged (fun _ => True) caught
      (do Pipeline.injectPacket t (.canary label attempt) spec; pure true : Prog Bool) := by
    refine settles_bind (fun _ _ => ?_) hinject
    exact trivial
  refine settles_tryCatch (fun e he => ?_) hsent
  rw [if_pos he]
  exact smooth_bind (f := fun _ => .ret false) (fun _ => trivial) (smooth_perform (by trivial))

theorem smooth_probeFrom {t : Pipeline.Target} {label : Label} {spec : PacketSpec} :
    ∀ (left attempt : Nat), Smooth (Pipeline.probeFrom cfg t label spec attempt left)
  | 0, _ => trivial
  | left + 1, attempt => by
    have hsure : ∀ {a : Req}, a.sure → Smooth (perform a) := smooth_perform
    have hattempt : Smooth (Pipeline.probeAttempt cfg t label spec attempt) := by
      refine smooth_bind (fun _ => smooth_bind (fun _ => smooth_bind (fun injected => ?_) (smooth_injectCanary attempt))
        (hsure (by trivial)))
        (hsure (by trivial))
      split
      · exact hsure (by trivial)
      · trivial
    refine smooth_bind (fun seen => ?_) hattempt
    split
    · trivial
    · exact smooth_probeFrom left (attempt + 1)

theorem smooth_probeOracle {t : Pipeline.Target} {label : Label} {spec : PacketSpec} :
    Smooth (Pipeline.probeOracle cfg t label spec) :=
  smooth_bind (fun _ => smooth_bind (fun _ => trivial) (smooth_perform (by trivial))) (smooth_probeFrom _ _)

/-- Closing a harvester that nobody cancels raises nothing, and there is nothing to report. -/
theorem unended_reportHealth (s : St) : Unbroken env (fun _ _ => True) (fun _ _ => False)
    (Pipeline.reportHealth testId) s := by
  have hask : ∀ {a : Req}, a.unending → Only Req.unending (perform a) := only_request
  have hunending : Only Req.unending (Pipeline.reportHealth testId) := by
    refine only_bind (fun _ => only_bind (fun problems => only_bind (fun _ => ?_) ?_) (hask (by trivial))) ?_
    · exact only_bind (fun st => only_ifSo (hask (by trivial))) (hask (by trivial))
    · exact only_forEach fun message _ => only_mono (fun _ => Req.underway.unending) (underway_emitOracleError message)
    · exact only_mono (fun _ => Req.closing.unending) (only_aclose _)
  have hnow : ∀ {a : Req} {u : St}, parked env u a = false → (∀ e, allows env u a (.error e) = false) →
      EndsIf env Unhindered (fun _ _ => True) (fun _ _ => False) (perform a) u := by
    intro a u hn hnone
    refine endsIf_now hn (fun _ _ _ => trivial) fun e hal _ => ?_
    rw [hnone e] at hal
    cases hal
  have hends : EndsIf env Unhindered (fun _ _ => True) (fun _ _ => False) (Pipeline.reportHealth testId) s := by
    have hhealthy : ∀ u : St, EndsIf env Unhindered (fun problems _ => problems = []) (fun _ _ => False)
        (perform .healthErrors) u := by
      intro u
      refine endsIf_now rfl (fun problems hal hans => ?_) fun _ hal _ => by cases hal
      exact (of_decide_eq_true hal : problems = u.h.healthErrors).trans (hans.healthy rfl)
    have hkept : Kept env Req.closing fun _ => True := Kept.const
    refine wp_seq (endsIf_aclose unhindered_quiet hkept.closes trivial) (fun _ u _ => ?_) fun _ _ h => h
    refine wp_seq (hhealthy u) (fun problems v hnone => ?_) fun _ _ h => h
    subst hnone
    refine wp_seq (V := fun _ _ => True) trivial (fun _ v _ => ?_) fun _ _ h => h
    refine wp_seq (hnow rfl fun _ => rfl) (fun st w _ => ?_) fun _ _ h => h
    exact endsIf_ifSo (fun _ => hnow rfl fun _ => rfl) fun _ => trivial
  refine wp_mono (fun _ _ h => h.1) _ s
    (wp_mono_pending (fun _ _ h => h.2) _ s (wp_and _ s hends (unended_unending hunending)))

/-- A run whose canary is seen measures, and stops nothing before its end. -/
theorem unended_measure (hall : ∀ p ∈ req.packets, p.Builds) (hs : Underway s) :
    Unbroken env (fun _ _ => True) (fun _ _ => False) (Pipeline.measure cfg req testId c) s := by
  have hask : ∀ {a : Req} {u : St}, a.underway → a.sure → Underway u →
      Unbroken env (fun _ => Underway) (fun _ _ => False) (perform a) u :=
    fun ha hsure hu => unended_smooth (only_request ha) (smooth_perform hsure) hu
  have hprobe : Only Req.underway
      (Pipeline.probeOracle cfg (Pipeline.target req testId c) .liveness (Pipeline.canarySpec req.firstPacket)) :=
    only_probeOracle cfg _ _ (fun _ => Req.sending.underway) fun _ => trivial
  have hlive : ∀ {u : St}, Underway u → Unbroken env (fun _ => Underway) (fun _ _ => False)
      (Pipeline.checkLiveness cfg req testId c) u := by
    intro u hu
    have hsmooth : ∀ message, Smooth (Pipeline.emitOracleError testId message) := fun message =>
      smooth_bind (fun _ => smooth_bind (fun _ => smooth_perform (by trivial)) (smooth_perform (by trivial)))
        (smooth_perform (by trivial))
    refine wp_seq (hask (by trivial) (by trivial) hu) (fun before v hv => ?_) fun _ _ h => h
    refine wp_seq (unended_smooth hprobe smooth_probeOracle hv) (fun alive w hw => ?_) fun _ _ h => h
    have hreport : Unbroken env (fun _ => Underway) (fun _ _ => False)
        (ifSo (alive = false) (Pipeline.emitOracleError testId Pipeline.livenessLost)) w := by
      unfold ifSo
      split
      · exact unended_smooth (underway_emitOracleError _) (hsmooth _) hw
      · exact hw
    refine wp_seq hreport (fun _ x hx => ?_) fun _ _ h => h
    refine wp_seq (hask (by trivial) (by trivial) hx) (fun now y hy => ?_) fun _ _ h => h
    exact hask (by trivial) (by trivial) hy
  have hconntrack : ∀ {u : St}, Underway u → Unbroken env (fun _ => Underway) (fun _ _ => False)
      (Pipeline.reportConntrack req testId c) u := by
    intro u hu
    refine wp_seq (unended_smooth (only_mono (fun _ => Req.aside.underway) (only_readConntrackTable _ _))
      (smooth_readConntrackTable _ _) hu) (fun entries v hv => ?_) fun _ _ h => h
    refine wp_seq (hask (by trivial) (by trivial) hv) (fun _ w hw => ?_) fun _ _ h => h
    refine wp_forEach (P := fun _ => Underway) (X := fun _ _ => False) (fun ct rest x hx => ?_)
      (fun _ h => h) (fun _ _ h => h) hw
    refine wp_seq (hask (by trivial) (by trivial) hx) (fun _ y hy => ?_) fun _ _ h => h
    exact hask (by trivial) (by trivial) hy
  refine wp_seq (hask (by trivial) (by trivial) hs) (fun ids u hu => ?_) fun _ _ h => h
  refine wp_seq (hask (by trivial) (by trivial) hu) (fun _ u hu => ?_) fun _ _ h => h
  refine wp_seq (unended_smooth (only_mono (fun _ => Req.sending.underway) (only_injectFrom cfg _ _ _))
    (smooth_injectFrom _ 0 hall) hu) (fun _ u hu => ?_) fun _ _ h => h
  refine wp_seq (hask (by trivial) (by trivial) hu) (fun _ u hu => ?_) fun _ _ h => h
  refine wp_seq (hlive hu) (fun _ u hu => ?_) fun _ _ h => h
  refine wp_seq (hconntrack hu) (fun _ u hu => ?_) fun _ _ h => h
  exact wp_seq (unended_reportHealth u) (fun _ _ _ => trivial) fun _ _ h => h

/-- An exception of the `try` block was raised before the read loop was started, and the early
    return is not taken. -/
theorem unended_body (hall : ∀ p ∈ req.packets, p.Builds) (hs : s.loop = .idle) :
    Unbroken env (fun _ _ => True) (fun _ t => t.loop = .idle) (Pipeline.body cfg req testId c) s := by
  have hearly : ∀ {α : Type} {x : Prog α} {u : St}, Only Req.spawning x → u.loop = .idle →
      Unbroken env (fun _ t => t.loop = .idle) (fun _ t => t.loop = .idle) x u :=
    fun hx hu => unended_dormant (only_mono (fun _ => Req.spawning.dormant) hx) hu
  have hstart : ∀ {u : St}, u.loop = .idle → Unbroken env (fun _ => Underway) (fun _ t => t.loop = .idle)
      (Pipeline.startMonitor cfg req testId c) u := by
    intro u hu
    have hwanted : Kept env Req.aside fun t => t.loop = .idle ∧ t.h.stopRequested = false := by
      refine (idle_kept.mono fun _ h => h.spawning.dormant).and ⟨fun t t' ht hm => hm.stopRequested.trans ht,
        fun t a r ha ht _ => ?_⟩
      exact spawning_effect ha.spawning t r ▸ ht
    have hreset : ∀ {v : St}, v.loop = .idle → Unbroken env (fun _ t => t.loop = .idle ∧ t.h.stopRequested = false)
        (fun _ t => t.loop = .idle) (perform .reset) v :=
      fun hv => unended_now rfl (fun h => by cases h) (fun _ => rfl) fun _ _ => ⟨hv, rfl⟩
    have hspawn : ∀ {v : St} {argv : List Arg}, v.loop = .idle ∧ v.h.stopRequested = false →
        Unbroken env (fun _ t => t.loop = .idle ∧ t.h.stopRequested = false) (fun _ t => t.loop = .idle)
          (perform (.spawnMonitor argv)) v := fun hv =>
      post_mono (unended_kept hwanted (fun _ h => h.1) (only_request (by trivial)) hv) (fun _ _ h => h) fun _ _ h => h.1
    have hlaunch : ∀ {v : St} {ms : Nat}, v.loop = .idle ∧ v.h.stopRequested = false →
        Unbroken env (fun _ => Underway) (fun _ t => t.loop = .idle) (perform (.launch ms)) v := fun hv =>
      unended_now rfl (fun h => by cases h) (fun _ => rfl) fun _ _ => ⟨by simp [effect], hv.2⟩
    have hready : ∀ {v : St}, Underway v → Unbroken env (fun _ => Underway) (fun _ _ => False)
        (perform (.waitReady 2000)) v :=
      fun hv => unended_smooth (only_request (by trivial)) (smooth_perform (by trivial)) hv
    refine wp_seq (hearly (only_mono (fun _ => Req.aside.spawning) (only_load _ _ _)) hu)
      (fun _ v hv => ?_) fun _ _ h => h
    refine wp_seq (V := fun _ => Underway) (X := fun _ t => t.loop = .idle) ?_ (fun _ v hv => ?_) fun _ _ h => h
    · refine wp_seq (hreset hv) (fun _ v hv => ?_) fun _ _ h => h
      exact wp_seq (hspawn hv) (fun _ _ h => hlaunch h) fun _ _ h => h
    · exact wp_seq (hready hv) (fun _ _ h => h) fun _ _ h => h.elim
  have hprobe : ∀ {u : St}, Underway u →
      Unbroken env (fun seen t => Underway t ∧ (seen = false → .probed .readiness false ∈ t.marks)) (fun _ _ => False)
        (Pipeline.probeOracle cfg (Pipeline.target req testId c) .readiness
          (Pipeline.canarySpec req.firstPacket)) u := by
    intro u hu
    have hfrom := only_mono (fun _ => Req.sending.underway) (only_probeFrom cfg (Pipeline.target req testId c)
      (Pipeline.canarySpec req.firstPacket) .readiness cfg.canaryAttempts 1)
    refine wp_seq (unended_smooth hfrom (smooth_probeFrom _ _) hu) (fun seen v hv => ?_) fun _ _ h => h
    have hmark : Unbroken env (fun _ t => Underway t ∧ .probed .readiness seen ∈ t.marks) (fun _ _ => False)
        (perform (.mark (.probed .readiness seen))) v :=
      unended_now rfl (fun h => by cases h) (fun _ => rfl) fun _ _ => ⟨⟨hv.started, hv.wanted⟩, by simp [effect]⟩
    exact wp_seq hmark (fun _ _ h => ⟨h.1, fun hmissed => hmissed ▸ h.2⟩) fun _ _ h => h
  refine wp_seq (hearly (only_mono (fun _ => Req.aside.spawning) (only_setupTopology c req testId)) hs)
    (fun _ u hu => ?_) fun _ _ h => h
  refine wp_seq (hearly (only_spawnListeners c req testId) hu) (fun _ u hu => ?_) fun _ _ h => h
  refine wp_seq (hstart hu) (fun _ u hu => ?_) fun _ _ h => h
  refine wp_seq (hprobe hu) (fun ready u hu => ?_) fun _ _ h => h.elim
  cases ready with
  | true => exact post_mono (unended_measure hall hu.1) (fun _ _ h => h) fun _ _ h => h.elim
  | false =>
    -- the canary was missed, which is ruled out
    have hmissed : Unbroken env (fun _ _ => False) (fun _ t => t.loop = .idle) (perform (.setStatus .error)) u :=
      unended_now rfl (fun h => by cases h) (fun _ => rfl) fun _ hans => hans.ready (hu.2 rfl)
    have hreport : Unbroken env (fun _ _ => False) (fun _ t => t.loop = .idle)
        (Pipeline.emitOracleError testId Pipeline.readinessLost) u :=
      wp_seq hmissed (fun _ _ h => h.elim) fun _ _ h => h
    exact wp_seq hreport (fun _ _ h => h.elim) fun _ _ h => h

theorem unended_run (hall : ∀ p ∈ req.packets, p.Builds) {controller : Option NetnsController} :
    wp (answering env Unhindered) Unended (fun _ _ => True)
      (Pipeline.runTestPipeline cfg req controller testId) {} := by
  have hhandle : ∀ e, Only Req.dormant (Pipeline.handle testId e) := fun e =>
    only_mono (fun _ h => h.elim Req.reporting.dormant Req.closing.dormant) (only_handle testId e)
  have hteardown : Only Req.unending (Pipeline.teardown req testId) :=
    only_mono (fun _ h => h.underway.unending) (only_teardown req testId)
  have hresult : Only Req.unending Pipeline.result := by
    have hask : ∀ {a : Req}, a.unending → Only Req.unending (perform a) := only_request
    exact only_bind (fun _ => only_bind (fun _ => only_ret) (hask (by trivial))) (hask (by trivial))
  have hrest : ∀ {c : NetnsController} {u : St}, u.loop = .idle →
      wp (answering env Unhindered) Unended (fun _ _ => True) (Pipeline.runWith cfg req testId c) u := by
    intro c u hu
    have hguarded : ∀ {v : St}, v.loop = .idle →
        wp (answering env Unhindered) Unended (fun _ _ => True) (Pipeline.guarded cfg req testId c) v := by
      intro v hv
      have htry : Unbroken env (fun _ _ => True) (fun _ _ => True)
          ((Pipeline.body cfg req testId c).tryCatch (Pipeline.handle testId)) v := by
        refine wp_try (unended_body hall hv) (fun _ _ h => h) fun e w hw => ?_
        exact post_mono (unended_dormant (hhandle e) hw) (fun _ _ _ => trivial) fun _ _ _ => trivial
      have hfinal : ∀ w : St,
          Unbroken env (fun _ _ => True) (fun _ _ => True) (Pipeline.teardown req testId) w := by
        intro w
        refine wp_mono (fun r _ _ => ?_) _ w (unended_unending hteardown)
        cases r <;> trivial
      exact wp_finally htry (fun _ w _ => hfinal w) fun _ w _ => hfinal w
    refine wp_seq (unended_dormant (only_request (by trivial)) hu) (fun _ v hv => ?_) fun _ _ _ => trivial
    refine wp_bind _ _ v (wp_mono (fun r w _ => ?_) _ v (hguarded hv))
    cases r with
    | error e => trivial
    | ok early =>
      cases early with
      | some ref => trivial
      | none => exact unended_unending hresult
  cases controller with
  | some c => exact hrest rfl
  | none =>
    refine wp_seq (unended_dormant (only_mono (fun _ h => h.spawning.dormant) (only_new none)) rfl)
      (fun _ _ h => hrest h)
      fun _ _ _ => trivial

end Steps

/-- A consumer that stops at the first `None` has seen every event of the list that is returned. -/
theorem nothing_after_the_sentinel (h₀ : env.maxsize = 0) {cfg : Pipeline.Config} {req : TestRequest}
    (hall : ∀ p ∈ req.packets, p.Builds) {controller : Option NetnsController} {testId : String}
      {c : Prog ListRef} {s t : St}
    (hrun : Steps (answering env Unhindered) (Pipeline.runTestPipeline cfg req controller testId, {}) (c, s))
    (hend : (∃ ref, c = .ret ref) ∨ ∃ e, c = .throw e) (hafter : After (world env) s t) :
    none ∈ t.items ∧ ∀ ref, c = .ret ref → ∀ e ∈ ref.read t, some e ∈ t.items.takeWhile (·.isSome) := by
  have hstreaming := restrict_steps (unended_run hall) (fun _ _ _ hs hans => hans.streaming hs) hrun
  obtain ⟨events, hitems, hread⟩ := ended_steps h₀ hstreaming hend hafter
  have hsome : (events.map some).takeWhile (·.isSome) = events.map some := by
    simp
  refine ⟨by simp [hitems], fun ref href e he => ?_⟩
  rw [hitems, List.takeWhile_append, hsome]
  simp [hread ref href e he]

end Nse

namespace Nse

open Coroutine
open Pipeline (ListRef)

attribute [local instance] quotingUnicode familyScapy

def unhinderedAnswer (s : St) (a : Req) (r : Except PyExc (Reply a)) : Bool :=
  workingAnswer s a r && !s.marks.contains (.probed .readiness false) &&
    (!decide (a = .healthErrors) || decide (s.h.healthErrors = []))

theorem unhinderedAnswer_unhindered {s : St} {a : Req} {r : Except PyExc (Reply a)}
    (h : unhinderedAnswer s a r = true) :
    Unhindered s a r := by
  simp only [unhinderedAnswer, Bool.and_eq_true, Bool.or_eq_true, Bool.not_eq_true', decide_eq_false_iff_not,
    decide_eq_true_eq] at h
  obtain ⟨⟨hworks, hready⟩, hhealthy⟩ := h
  refine ⟨?_, fun _ => answers_obliged (workingAnswer_answers hworks), fun hmissed => ?_,
    fun ha => hhealthy.resolve_left fun hne => hne ha⟩
  · cases r with
    | ok v => rfl
    | error e => cases a <;> cases hworks
  · rw [List.contains_iff_mem.mpr hmissed] at hready
    cases hready

/-- A run in which all goes well is such a run. -/
theorem nothing_after_the_sentinel_sample : ∃ ref s,
    Steps (answering { maxsize := 0 } Unhindered) (Pipeline.runTestPipeline {} sampleRequest none "a1b2c3d4e5f6", {})
      (.ret ref, s) ∧
      ref.read s ≠ [] ∧ ∀ e ∈ ref.read s, some e ∈ s.items.takeWhile (·.isSome) := by
  have hplay : Script.returned (fun ref s => decide (ref.read s ≠ []))
      (((schedule { maxsize := 0 } obligingReply obligingEvents).guarded unhinderedAnswer fun _ _ => true).play 200
        (Pipeline.runTestPipeline {} sampleRequest none "a1b2c3d4e5f6") {}) = true := by
    decide +kernel
  have hfits : ((schedule { maxsize := 0 } obligingReply obligingEvents).guarded unhinderedAnswer fun _ _ => true).Fits
      (answering { maxsize := 0 } Unhindered) :=
    (schedule_fits _ obligingReply obligingEvents).guarded (fun _ _ _ => unhinderedAnswer_unhindered)
      fun _ _ _ => trivial
  obtain ⟨ref, s, hrun, hp⟩ := Script.returned_steps hfits hplay
  have hall : ∀ p ∈ sampleRequest.packets, p.Builds := by decide
  obtain ⟨-, hread⟩ := nothing_after_the_sentinel rfl hall hrun (.inl ⟨ref, rfl⟩) .refl
  exact ⟨ref, s, hrun, of_decide_eq_true hp, hread ref rfl⟩

end Nse
