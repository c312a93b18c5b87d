/-
  Nse.Core.Closing — closing the harvester in a run that nobody cancels.

  The answers a result about good runs allows are a condition on each step (`EndsIf`). When
  none of them is a cancellation, `aclose` raises nothing and leaves the read loop ended,
  whether the loop drained, or was cancelled and awaited (`endsIf_aclose`); and from then
  on no line changes anything (`closed_kept`, `Closed.after`).
-/

import Nse.Core.Exceptions

namespace Nse

open Coroutine

variable [U : PyStr.Unicode] {env : Env}

/-! ## Runs whose answers meet a condition -/

section EndsIf

variable {ans : (s : St) → (a : Req) → Except PyExc (Reply a) → Prop} {α : Type} {P : St → Prop}
  {V : α → St → Prop} {X : PyExc → St → Prop} {s : St}

/-- The world in which only these answers are given. -/
abbrev answering (env : Env) (ans : (s : St) → (a : Req) → Except PyExc (Reply a) → Prop) :
    World Req Reply PyExc St Ev := (world env).restrict ans fun _ _ => True

/-- As `Ends`, when only these answers are given. -/
abbrev EndsIf (env : Env) (ans : (s : St) → (a : Req) → Except PyExc (Reply a) → Prop) (V : α → St → Prop)
    (X : PyExc → St → Prop) (c : Prog α) (s : St) : Prop :=
  wp (answering env ans) (fun _ _ => True) (Post V X) c s

theorem Ends.endsIf {c : Prog α} (h : Ends env V X c s) : EndsIf env ans V X c s := wp_restrict h

theorem endsIf_perform {a : Req} {V : Reply a → St → Prop} (hP : Stable (world env) P) (hs : P s)
    (hv : ∀ t v, P t → allows env t a (.ok v) = true → ans t a (.ok v) → V v (effect env t a (.ok v)))
    (hx : ∀ t e, P t → allows env t a (.error e) = true → ans t a (.error e) → X e (effect env t a (.error e))) :
    EndsIf env ans V X (perform a) s := by
  refine wp_request hP.restrict hs (fun _ _ => trivial) fun t r t' ht hr => ?_
  obtain ⟨⟨hal, rfl⟩, hans⟩ := hr
  cases r with
  | ok v => exact hv t v ht hal hans
  | error e => exact hx t e ht hal hans

/-- A request that does not park. -/
theorem endsIf_now {a : Req} {V : Reply a → St → Prop} (hn : parked env s a = false)
    (hv : ∀ v, allows env s a (.ok v) = true → ans s a (.ok v) → V v (effect env s a (.ok v)))
    (hx : ∀ e, allows env s a (.error e) = true → ans s a (.error e) → X e (effect env s a (.error e))) :
    EndsIf env ans V X (perform a) s := by
  refine wp_request_now (Bool.eq_false_iff.mp hn) trivial fun r t hr => ?_
  obtain ⟨⟨hal, rfl⟩, hans⟩ := hr
  cases r with
  | ok v => exact hv v hal hans
  | error e => exact hx e hal hans

theorem endsIf_ifSo {b : Prop} [Decidable b] {x : Prog Unit} {V : Unit → St → Prop}
    (hx : b → EndsIf env ans V X x s) (hn : ¬ b → V () s) : EndsIf env ans V X (ifSo b x) s := by
  unfold ifSo
  split
  · exact hx ‹_›
  · exact hn ‹_›

/-- No answer is a cancellation from outside. -/
def Quiet (ans : (s : St) → (a : Req) → Except PyExc (Reply a) → Prop) : Prop :=
  ∀ s a r, ans s a r → cancels s a r = false

theorem endsIf_raises {x : PyExc → Prop} {c : Prog α} (hq : Quiet ans) (hc : Raises Uncancelled x c)
    (h : EndsIf env ans V X c s) : EndsIf env ans V (fun e t => x e ∧ X e t) c s := by
  have hok : ∀ t a e t', (answering env ans).answer t a (.error e) t' → Uncancelled a e := fun t a e _ hr =>
    not_cancels (hq t a (.error e) hr.2)
  have hraise : EndsIf env ans (fun _ _ => True) (fun e _ => x e) c s := wp_raises hok hc
  refine wp_mono (fun r t hr => ?_) c s (wp_mono_pending (fun _ _ _ => trivial) c s (wp_and c s hraise h))
  cases r with
  | ok v => exact hr.2
  | error e => exact hr

end EndsIf

/-- The constructor raises nothing but a cancellation. -/
theorem endsIf_new {ans : (s : St) → (a : Req) → Except PyExc (Reply a) → Prop} {P : St → Prop}
    {s : St} (hq : Quiet ans)
    (hP : Kept env Req.aside P) (hs : P s) :
    EndsIf env ans (fun _ => P) (fun _ _ => False) (NetnsController.new none) s := by
  have hsweep : ∀ {u : St}, P u → EndsIf env ans (fun _ => P) (fun _ _ => False) NetnsController.startupSweep u := by
    intro u hu
    have honly : Only Req.aside NetnsController.startupSweep := only_startupSweep
    exact post_mono (endsIf_raises hq startupSweep_raises_nothing (hP.ends honly hu).endsIf) (fun _ _ h => h)
      fun _ _ h => h.1
  have hask : EndsIf env ans (fun _ => P) (fun _ _ => False) (perform .inContainer) s :=
    endsIf_perform hP.stable hs (fun t v ht hr _ => hP.answer t _ (.ok v) trivial ht hr) fun t e _ hr _ => by cases hr
  refine wp_seq hask (fun useNsenter u hu => ?_) fun _ _ h => h
  exact wp_seq (hsweep hu) (fun _ _ h => h) fun _ _ h => h

/-! ## A closed harvester -/

/-- The harvester was told to stop, and its read loop does not run. -/
def Closed (s : St) : Prop := s.h.stopRequested = true ∧ (s.loop = .idle ∨ s.loop = .done)

/-- Requests that start no harvester. -/
def Req.unopening : Req → Prop
  | .reset | .launch _ => False
  | _ => True

omit U in
theorem Req.measuring.unopening {testId : String} {a : Req} (h : a.measuring testId) : a.unopening := by
  cases a <;> first | exact h | trivial

omit U in
theorem Req.aside.unopening {a : Req} (h : a.aside) : a.unopening := by
  cases a <;> first | exact h | trivial

theorem closed_kept : Kept env Req.unopening Closed := by
  refine ⟨fun s s' h hm => ?_, fun s a r ha h _ => ?_⟩
  · obtain ⟨hloop, -, -, hh⟩ := hm.quiet h.2
    exact ⟨hh ▸ h.1, hloop ▸ h.2⟩
  · cases a with
    | cancelTask =>
      rcases (cancel_cases s : _ ∨ _ ∨ _ ∧ Moves env _ (Loop.cancel env s)) with ⟨-, hc⟩ | ⟨hl, -⟩ | ⟨hl, -⟩
      · rw [effect_cancelTask, hc]
        exact h
      · rcases h.2 with h | h <;> simp [h] at hl
      · rcases h.2 with h | h <;> simp [h] at hl
    | run c =>
      cases r with
      | ok _ => exact h
      | error e =>
        simp only [effect]
        split <;> exact h
    | launch t => exact False.elim ha
    | reset => exact False.elim ha
    | stop => cases r <;> exact ⟨rfl, h.2⟩
    | _ => cases r <;> exact h

/-- Once the harvester is closed, nothing the monitor does changes the returned list. -/
theorem Closed.after {s t : St} (h : Closed s) (hafter : After (world env) s t) :
    t.puts = s.puts ∧ t.collected = s.collected := by
  have hstable : Stable (world env) fun u => Closed u ∧ u.puts = s.puts ∧ u.collected = s.collected := by
    refine stable_of_moves fun u u' hu hm => ?_
    obtain ⟨hloop, hputs, hcollected, hh⟩ := hm.quiet hu.1.2
    exact ⟨⟨hh ▸ hu.1.1, hloop ▸ hu.1.2⟩, hputs.trans hu.2.1, hcollected.trans hu.2.2⟩
  exact (hstable.after hafter ⟨h, rfl, rfl⟩).2

section Aclose

variable {ans : (s : St) → (a : Req) → Except PyExc (Reply a) → Prop} {P : St → Prop} {s : St} {timeout : Nat}

/-- The steps of `aclose`; it sets a state itself only once the loop has ended. -/
def Req.awaiting : Req → Prop
  | .setStopped => False
  | a => a.closing

/-- `P` survives `aclose`. -/
structure Closes (env : Env) (P : St → Prop) : Prop where
  lasting : Lasting env Req.awaiting P
  setStopped : ∀ s, P s → Closed s → s.h.state = .running → P { s with h := { s.h with state := .stopped } }

omit U in
theorem Req.awaiting.closing {a : Req} (h : a.awaiting) : a.closing := by
  cases a <;> first | exact h | exact False.elim h

theorem Kept.closes (hP : Kept env Req.closing P) : Closes env P :=
  ⟨(hP.mono fun _ => Req.awaiting.closing).lasting, fun s hs _ _ => hP.answer s .setStopped (.ok ()) trivial hs rfl⟩

/-- The loop ended while `aclose` waited for it, or it was cancelled and awaited. -/
theorem endsIf_drain (hq : Quiet ans) (hP : Lasting env Req.awaiting P) (hs : P s) :
    EndsIf env ans (fun _ t => P t ∧ t.loop = .done) (fun _ _ => False) (TraceHarvester.drain timeout) s := by
  have hwait : EndsIf env ans (fun _ t => P t ∧ t.loop = .done) (fun e t => P t ∧ e.cls = .timeoutError)
      (perform (.awaitTask timeout)) s := by
    refine endsIf_perform hP.stable hs (fun t v ht hr _ => ⟨ht, (of_decide_eq_true hr : t.loop = .done)⟩)
      fun t e ht hr hans => ?_
    refine ⟨ht, ?_⟩
    have hcls : e.cls = .timeoutError ∨ e.cls = .cancelledError := by simpa [allows, whenReady] using hr
    refine hcls.resolve_right fun hc => ?_
    have := hq t _ _ hans
    simp [cancels, hc] at this
  have hcancel : ∀ {u : St}, P u → EndsIf env ans (fun _ => P) (fun _ _ => False) (perform .cancelTask) u := by
    intro u hu
    exact endsIf_perform hP.stable hu (fun t v ht hr _ => hP.answer t .cancelTask (.ok v) trivial ht hr)
      fun t e _ hr _ => by cases hr
  have hjoin : ∀ {u : St}, P u → EndsIf env ans (fun _ t => P t ∧ t.loop = .done) (fun _ _ => False)
      (suppress (fun _ => true) (perform .joinTask)) u := by
    intro u hu
    refine wp_try (V := fun _ t => P t ∧ t.loop = .done) (X := fun _ t => P t ∧ t.loop = .done) ?_
      (fun _ _ h => h) fun _ _ h => h
    refine endsIf_perform hP.stable hu (fun t v ht hr _ => ⟨ht, (of_decide_eq_true hr : t.loop = .done)⟩)
      fun t e ht hr hans => ?_
    have hcls : e.cls = .cancelledError := by simpa [allows, whenReady] using hr
    have hdone : t.loop = .done := by simpa [cancels, hcls] using hq t _ _ hans
    exact ⟨ht, hdone⟩
  refine wp_try hwait (fun _ _ h => h) fun e t ht => ?_
  rw [if_pos ht.2]
  exact wp_seq (hcancel ht.1) (fun _ _ h => hjoin h) fun _ _ h => h

/-- `aclose` always comes to its end, and the harvester is closed then. -/
theorem endsIf_aclose (hq : Quiet ans) (hP : Closes env P) (hs : P s) :
    EndsIf env ans (fun _ t => P t ∧ Closed t) (fun _ _ => False) (TraceHarvester.aclose timeout) s := by
  have hstopped : Lasting env Req.awaiting fun t => P t ∧ t.h.stopRequested = true :=
    hP.lasting.and (stopRequested_kept.mono fun _ => Req.awaiting.closing).lasting
  have hstop : EndsIf env ans (fun _ t => P t ∧ t.h.stopRequested = true) (fun _ _ => False) (perform .stop) s :=
    endsIf_now rfl (fun v hr _ => ⟨hP.lasting.answer s .stop (.ok v) trivial hs hr, rfl⟩) fun e hr _ => by cases hr
  have hpending : ∀ {u : St}, P u ∧ u.h.stopRequested = true →
      EndsIf env ans (fun pending t => (P t ∧ t.h.stopRequested = true) ∧
        (pending = false → t.loop = .idle ∨ t.loop = .done)) (fun _ _ => False) (perform .taskPending) u := by
    intro u hu
    refine endsIf_now rfl (fun pending hr _ => ⟨hu, fun hfalse => ?_⟩) fun e hr _ => by cases hr
    have : pending = decide (u.loop ≠ .idle ∧ u.loop ≠ .done) := by simpa [allows, exactly] using hr
    rw [hfalse, eq_comm, decide_eq_false_iff_not] at this
    by_cases hidle : u.loop = .idle
    · exact .inl hidle
    · exact .inr (Decidable.not_not.mp fun hdone => this ⟨hidle, hdone⟩)
  have hstate : ∀ {u : St}, P u ∧ Closed u →
      EndsIf env ans (fun st t => (P t ∧ Closed t) ∧ st = t.h.state) (fun _ _ => False)
      (perform .harvestState) u := fun hu =>
    endsIf_now rfl (fun st hr _ => ⟨hu, of_decide_eq_true hr⟩) fun e hr _ => by cases hr
  refine wp_seq hstop (fun _ u hu => ?_) fun _ _ h => h
  refine wp_seq (hpending hu) (fun pending v hv => ?_) fun _ _ h => h
  refine wp_seq (V := fun _ t => P t ∧ Closed t) (X := fun _ _ => False) ?_ (fun _ w hw => ?_) fun _ _ h => h
  · refine endsIf_ifSo (fun _ => ?_) fun hnot => ⟨hv.1.1, hv.1.2, hv.2 (by simpa using hnot)⟩
    exact post_mono (endsIf_drain hq hstopped hv.1) (fun _ t h => ⟨h.1.1, h.1.2, .inr h.2⟩) fun _ _ h => h
  refine wp_seq (hstate hw) (fun st x hx => ?_) fun _ _ h => h
  have hset : EndsIf env ans (fun _ t => P t ∧ Closed t) (fun _ _ => False)
      (ifSo (st = .running) (perform .setStopped)) x := by
    refine endsIf_ifSo (fun hst => ?_) fun _ => hx.1
    refine endsIf_now rfl (fun v hr _ => ⟨?_, hx.1.2⟩) fun e hr _ => by cases hr
    exact hP.setStopped x hx.1.1 hx.1.2 (hx.2.symm.trans hst)
  refine wp_seq hset (fun _ y hy => ?_) fun _ _ h => h
  exact post_mono (hstate hy) (fun _ _ h => h.1) fun _ _ h => h

end Aclose

end Nse
