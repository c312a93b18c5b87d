/-
  Nse.Core.CanaryFilter — which events the canary filter takes out.

  The ids taken for canaries are those first seen before the snapshot that follows the
  readiness probe, and those first seen between the two snapshots around the liveness
  probe (`run_windowed`). So the list a run returns lacks exactly the canaries' events when
  these are the times at which the canaries' lines come first, and no other packet's
  (`returned_exact_iff`). The line of an early attempt that comes after the snapshot stays
  in the list as if a test packet had been traced (`a_late_canary_stays_in_the_list`).
-/

import Nse.Core.Heard
import Nse.Core.Rehearsal

namespace Nse

open Coroutine
open Pipeline (ListRef)

/-! ## Windows -/

/-- How many ids had been seen at each snapshot so far. -/
def St.snapshots (s : St) : List Nat := s.marks.filterMap fun m => match m with | .snapshot n => some n | _ => none

/-- The ids of the two windows: up to the first snapshot, and from the second to the third. -/
def windowOf : List Nat → List String → List String
  | n₁ :: n₂ :: n₃ :: _, seen => seen.take n₁ ++ (seen.take n₃).drop n₂
  | n₁ :: _, seen => seen.take n₁
  | [], _ => []

/-- The id was first seen in one of the windows. -/
def InWindow (s : St) (e : TraceEvent) : Bool := (windowOf s.snapshots s.h.seenTraceIds).any e.hasId

theorem windowOf_grows {seen seen' : List String} (h : seen <+: seen') {xs : List Nat}
    (hxs : ∀ n ∈ xs, n ≤ seen.length) : windowOf xs seen' = windowOf xs seen := by
  obtain ⟨more, rfl⟩ := h
  have htake : ∀ n ∈ xs, (seen ++ more).take n = seen.take n := fun n hn =>
    List.take_append_of_le_length (hxs n hn)
  match xs, htake with
  | [], _ => rfl
  | [n₁], htake => exact htake n₁ (by simp)
  | [n₁, n₂], htake => exact htake n₁ (by simp)
  | n₁ :: n₂ :: n₃ :: _, htake =>
    rw [windowOf, windowOf, htake n₁ (by simp), htake n₃ (by simp)]

/-- Of the ids seen at one moment, those not seen before an earlier one. -/
theorem filter_not_seen {seen : List String} (hn : seen.Nodup) {m n : Nat} (hmn : m ≤ n) :
    (seen.take n).filter (fun id => !(seen.take m).contains id) = (seen.take n).drop m := by
  have hsplit : seen.take n = seen.take m ++ (seen.take n).drop m := by
    have := List.take_append_drop m (seen.take n)
    rwa [List.take_take, Nat.min_eq_left hmn, eq_comm] at this
  have hdisjoint : ∀ id ∈ (seen.take n).drop m, id ∉ seen.take m := by
    have := (List.take_sublist n seen).nodup hn
    rw [hsplit] at this
    exact fun id hid hmem => (List.nodup_append.mp this).2.2 id hmem id hid rfl
  calc (seen.take n).filter (fun id => !(seen.take m).contains id)
      = (seen.take m ++ (seen.take n).drop m).filter (fun id => !(seen.take m).contains id) :=
        congrArg (List.filter _) hsplit
    _ = ((seen.take n).drop m).filter (fun id => !(seen.take m).contains id) := by
        rw [List.filter_append, List.filter_eq_nil_iff.mpr (by simp), List.nil_append]
    _ = (seen.take n).drop m := List.filter_eq_self.mpr fun id hid => by simpa using hdisjoint id hid

variable [U : PyStr.Unicode] {env : Env}

/-- The snapshots so far are `ys`, of which `xs` have made canary ids. -/
structure Windowed (env : Env) (xs ys : List Nat) (s : St) : Prop where
  heard : Heard env s
  snapshots : s.snapshots = ys
  bounded : ∀ n ∈ ys, n ≤ s.h.seenTraceIds.length
  accounted : ∀ n ∈ xs, n ≤ s.h.seenTraceIds.length
  ids : s.canaryIds = windowOf xs s.h.seenTraceIds

/-- Every snapshot has made its canary ids. -/
def Settled (env : Env) (s : St) : Prop := ∃ xs, Windowed env xs xs s

/-- Requests that take no snapshot and make no canary ids. -/
def Req.windowless : Req → Prop
  | .collect e => e.traced = false
  | .seenTraceIds | .addCanaryIds _ | .mark (.snapshot _) => False
  | _ => True

section Kept

variable {xs ys : List Nat} {s : St}

theorem windowed_kept : Kept env Req.windowless (Windowed env xs ys) := by
  refine ⟨fun s s' h hm => ?_, fun s a r ha h hr => ?_⟩
  · have hle : ∀ {n}, n ≤ s.h.seenTraceIds.length → n ≤ s'.h.seenTraceIds.length := fun hn =>
      Nat.le_trans hn hm.seen.length_le
    refine ⟨h.heard.move hm, ?_, fun n hn => hle (h.bounded n hn), fun n hn => hle (h.accounted n hn), ?_⟩
    · rw [St.snapshots, hm.marks]
      exact h.snapshots
    · rw [hm.canaryIds, h.ids]
      exact (windowOf_grows hm.seen h.accounted).symm
  · have hu : a.untraced := by cases a <;> first | exact ha | trivial
    have hnone : (a.marks s).filterMap (fun m => match m with | .snapshot n => some n | _ => none) = [] := by
      cases a with
      | mark m => cases m <;> first | rfl | exact False.elim ha
      | seenTraceIds => exact False.elim ha
      | _ => rfl
    have hsame : a.canaries = [] := by cases a <;> first | rfl | exact False.elim ha
    refine ⟨heard_kept.answer s a r hu h.heard hr, ?_, by simpa using h.bounded, by simpa using h.accounted, ?_⟩
    · rw [St.snapshots, effect_marks, List.filterMap_append, hnone, List.append_nil]
      exact h.snapshots
    · rw [effect_canaryIds, hsame, List.append_nil, effect_seen]
      exact h.ids

theorem settled_kept : Kept env Req.windowless (Settled env) :=
  ⟨fun s s' ⟨xs, h⟩ hm => ⟨xs, windowed_kept.move s s' h hm⟩,
    fun s a r ha ⟨xs, h⟩ hr => ⟨xs, windowed_kept.answer s a r ha h hr⟩⟩

theorem ends_windowless {α : Type} {c : Prog α} (hc : Only Req.windowless c) (hs : Windowed env xs ys s)
    (hwin : windowOf xs = windowOf ys) :
    Ends env (fun _ => Windowed env xs ys) (fun _ => Settled env) c s := by
  refine post_mono (windowed_kept.ends hc hs) (fun _ _ h => h) fun _ t h => ⟨ys, ?_⟩
  exact ⟨h.heard, h.snapshots, h.bounded, h.bounded, hwin ▸ h.ids⟩

/-- A snapshot. -/
theorem ends_seenTraceIds (hs : Windowed env xs ys s) :
    Ends env (fun ids t => ∃ n, Windowed env xs (ys ++ [n]) t ∧ ids = t.h.seenTraceIds.take n ∧ ∀ m ∈ ys, m ≤ n)
      (fun _ => Settled env) (perform .seenTraceIds) s := by
  refine ends_now rfl (fun ids hr => ?_) (fun _ hr => by cases hr)
  have hids : ids = s.h.seenTraceIds := by simpa [allows, exactly] using hr
  refine ⟨s.h.seenTraceIds.length, ?_, ?_, fun m hm => hs.bounded m hm⟩
  · refine ⟨heard_kept.answer s .seenTraceIds (.ok ids) trivial hs.heard hr, ?_, ?_, hs.accounted, hs.ids⟩
    · rw [St.snapshots, effect_marks, List.filterMap_append]
      exact congrArg (· ++ _) hs.snapshots
    · intro n hn
      rcases List.mem_append.mp hn with hn | hn
      · exact hs.bounded n hn
      · exact Nat.le_of_eq (List.mem_singleton.mp hn)
  · exact hids.trans List.take_length.symm

/-- The canary ids of the last snapshots. -/
theorem ends_addCanaryIds {ids : List String} (hs : Windowed env xs ys s)
    (hids : windowOf xs s.h.seenTraceIds ++ ids = windowOf ys s.h.seenTraceIds) :
    Ends env (fun _ => Windowed env ys ys) (fun _ => Settled env) (perform (.addCanaryIds ids)) s := by
  refine ends_now rfl (fun v hr => ?_) (fun _ hr => by cases hr)
  refine ⟨heard_kept.answer s (.addCanaryIds ids) (.ok v) trivial hs.heard hr, ?_, hs.bounded, hs.bounded, ?_⟩
  · simpa [St.snapshots, Req.marks] using hs.snapshots
  · rw [effect_canaryIds, hs.ids, effect_seen]
    exact hids

end Kept

/-! ## The steps of a run -/

section Steps

omit U in
theorem Req.aside.windowless {a : Req} (h : a.aside) : a.windowless := by
  cases a <;> first | exact False.elim h | trivial

omit U in
theorem Req.spawning.windowless {a : Req} (h : a.spawning) : a.windowless := by
  cases a <;> trivial

omit U in
theorem Req.sending.windowless {which : Packet → Prop} {a : Req} (h : a.sending which) : a.windowless := by
  cases a with
  | mark m => cases m <;> trivial
  | _ => first | exact False.elim h | trivial

omit U in
theorem Req.reporting.windowless {testId : String} {a : Req} (h : a.reporting testId) : a.windowless := by
  cases a with
  | mark m => cases m <;> trivial
  | collect e => exact h.1
  | _ => first | exact False.elim h | trivial

omit U in
theorem Req.opening.windowless {a : Req} (h : a.opening) : a.windowless := by
  cases a <;> first | exact False.elim h | trivial

omit U in
theorem Req.closing.windowless {a : Req} (h : a.closing) : a.windowless := by
  cases a <;> first | exact False.elim h | trivial

variable {cfg : Pipeline.Config} {req : TestRequest} {c : NetnsController} {testId : String} {s : St} {n : Nat}

theorem settled_checkLiveness (hs : Windowed env [n] [n] s) :
    Ends env (fun _ => Settled env) (fun _ => Settled env) (Pipeline.checkLiveness cfg req testId c) s := by
  refine wp_seq (ends_seenTraceIds hs) (fun before u hu => ?_) fun _ _ h => h
  obtain ⟨n₂, hu, hbefore, -⟩ := hu
  have hprobe : Only Req.windowless
      (Pipeline.probeOracle cfg (Pipeline.target req testId c) .liveness (Pipeline.canarySpec req.firstPacket)) :=
    only_probeOracle cfg _ _ (fun _ => Req.sending.windowless) fun _ => trivial
  have hreport : ∀ alive : Bool, Only Req.windowless
      (ifSo (alive = false) (Pipeline.emitOracleError testId Pipeline.livenessLost)) := fun _ =>
    only_ifSo (only_mono (fun _ => Req.reporting.windowless) (only_emitOracleError testId _))
  have hkept : Kept env Req.windowless fun t => Windowed env [n] [n, n₂] t ∧ before = t.h.seenTraceIds.take n₂ := by
    refine ⟨fun t t' h hm => ⟨windowed_kept.move t t' h.1 hm, ?_⟩, fun t a r ha h hr =>
      ⟨windowed_kept.answer t a r ha h.1 hr, by rw [effect_seen]; exact h.2⟩⟩
    obtain ⟨more, hmore⟩ := hm.seen
    rw [h.2, ← hmore, List.take_append_of_le_length (h.1.bounded n₂ (by simp))]
  have hends : ∀ {α : Type} {x : Prog α} {u : St}, Only Req.windowless x →
      Windowed env [n] [n, n₂] u ∧ before = u.h.seenTraceIds.take n₂ →
      Ends env (fun _ t => Windowed env [n] [n, n₂] t ∧ before = t.h.seenTraceIds.take n₂) (fun _ => Settled env) x u :=
    fun hx h => post_mono (hkept.ends hx h) (fun _ _ h => h) fun _ t h =>
      ⟨[n, n₂], h.1.heard, h.1.snapshots, h.1.bounded, h.1.bounded, h.1.ids⟩
  refine wp_seq (hends hprobe ⟨hu, hbefore⟩) (fun alive v hv => ?_) fun _ _ h => h
  refine wp_seq (hends (hreport alive) hv) (fun _ w hw => ?_) fun _ _ h => h
  obtain ⟨hw, hbefore⟩ := hw
  have hsnap : Ends env (fun now t => ∃ n₃, Windowed env [n] [n, n₂, n₃] t ∧ now = t.h.seenTraceIds.take n₃ ∧
      n₂ ≤ n₃ ∧ before = t.h.seenTraceIds.take n₂) (fun _ => Settled env) (perform .seenTraceIds) w := by
    refine ends_now rfl (fun now hr => ?_) (fun _ hr => by cases hr)
    have hnow : now = w.h.seenTraceIds := by simpa [allows, exactly] using hr
    have hend := ends_seenTraceIds hw w .refl
    obtain ⟨n₃, h₃, htake, hmax⟩ := hend.2 (.ok now) _ ⟨hr, rfl⟩
    exact ⟨n₃, h₃, htake, hmax n₂ (by simp), hbefore⟩
  refine wp_seq hsnap (fun now x hx => ?_) fun _ _ h => h
  obtain ⟨n₃, hx, hnow, hle, hbefore⟩ := hx
  refine post_mono (ends_addCanaryIds hx ?_) (fun _ t h => ⟨_, h⟩) fun _ _ h => h
  rw [hnow, hbefore, filter_not_seen hx.heard.nodup hle]
  rfl

theorem settled_measure (hs : Windowed env [] [] s) :
    Ends env (fun r t => r = none ∧ Settled env t) (fun _ => Settled env) (Pipeline.measure cfg req testId c) s := by
  have hsettled : ∀ {α : Type} {x : Prog α} {u : St}, Only Req.windowless x → Settled env u →
      Ends env (fun _ => Settled env) (fun _ => Settled env) x u := fun hx hu => settled_kept.ends hx hu
  refine wp_seq (ends_seenTraceIds hs) (fun ids u hu => ?_) fun _ _ h => h
  obtain ⟨n, hu, hids, -⟩ := hu
  refine wp_seq (ends_addCanaryIds hu (by rw [hids]; rfl)) (fun _ u hu => ?_) fun _ _ h => h
  have hsend : Only Req.windowless (Pipeline.injectFrom cfg (Pipeline.target req testId c) 0 req.packets) :=
    only_mono (fun _ => Req.sending.windowless) (only_injectFrom cfg _ _ _)
  refine wp_seq (ends_windowless hsend hu rfl) (fun _ u hu => ?_) fun _ _ h => h
  refine wp_seq (ends_windowless (only_request (by trivial)) hu rfl) (fun _ u hu => ?_) fun _ _ h => h
  refine wp_seq (settled_checkLiveness hu) (fun _ u hu => ?_) fun _ _ h => h
  refine wp_seq (hsettled (only_mono (fun _ => Req.reporting.windowless) (only_reportConntrack c req testId)) hu)
    (fun _ u hu => ?_) fun _ _ h => h
  have hhealth : Only Req.windowless (Pipeline.reportHealth testId) := by
    have hask : ∀ {a : Req}, a.windowless → Only Req.windowless (perform a) := only_request
    refine only_bind (fun _ => only_bind (fun problems => only_bind (fun _ => ?_) ?_) (hask (by trivial))) ?_
    · exact only_bind (fun st => only_ifSo (hask (by trivial))) (hask (by trivial))
    · exact only_forEach fun m _ => only_mono (fun _ => Req.reporting.windowless) (only_emitOracleError testId m)
    · exact only_mono (fun _ => Req.closing.windowless) (only_aclose _)
  exact wp_seq (hsettled hhealth hu) (fun _ _ h => ⟨rfl, h⟩) fun _ _ h => h

/-- An early return hands out the list itself, before any canary id is known. -/
def Early (env : Env) : Option ListRef → St → Prop
  | some ref, s => ref = .collected ∧ Windowed env [] [] s
  | none, s => Settled env s

theorem early_giveUp (hs : Windowed env [] [] s) :
    Ends env (Early env) (fun _ => Settled env) (Pipeline.giveUp testId) s := by
  have hread : Only Req.windowless (perform .collected) := only_request (by trivial)
  refine wp_seq (ends_windowless (only_mono (fun _ => Req.reporting.windowless) (only_emitOracleError testId _)) hs rfl)
    (fun _ u hu => ?_) fun _ _ h => h
  refine wp_seq (ends_windowless (only_mono (fun _ => Req.reporting.windowless) (only_emitNone testId)) hu rfl)
    (fun _ u hu => ?_) fun _ _ h => h
  refine wp_seq (V := fun ref t => ref = .collected ∧ Windowed env [] [] t) (X := fun _ => Settled env) ?_
    (fun _ _ h => by exact h) fun _ _ h => h
  refine wp_seq (ends_windowless hread hu rfl) (fun events u hu => ?_) fun _ _ h => h
  refine wp_seq (V := fun ids t => ids = [] ∧ Windowed env [] [] t) (X := fun _ => Settled env) ?_
    (fun ids t ht => ?_) fun _ _ h => h
  · refine ends_now rfl (fun ids hr => ⟨?_, windowed_kept.answer u .canaryIds (.ok ids) trivial hu hr⟩)
      (fun _ hr => by cases hr)
    have : ids = u.canaryIds := by simpa [allows, exactly] using hr
    exact this.trans hu.ids
  · obtain ⟨rfl, ht⟩ := ht
    exact ⟨rfl, ht⟩

theorem early_body (hs : Windowed env [] [] s) :
    Ends env (Early env) (fun _ => Settled env) (Pipeline.body cfg req testId c) s := by
  have hmonitor : Only Req.windowless (Pipeline.startMonitor cfg req testId c) :=
    only_mono (fun _ => Req.opening.windowless) (only_startMonitor c req testId cfg)
  have hprobe : Only Req.windowless
      (Pipeline.probeOracle cfg (Pipeline.target req testId c) .readiness (Pipeline.canarySpec req.firstPacket)) :=
    only_probeOracle cfg _ _ (fun _ => Req.sending.windowless) fun _ => trivial
  refine wp_seq (ends_windowless (only_mono (fun _ => Req.aside.windowless) (only_setupTopology c req testId)) hs rfl)
    (fun _ u hu => ?_) fun _ _ h => h
  refine wp_seq (ends_windowless
    (only_mono (fun _ => Req.spawning.windowless) (only_spawnListeners c req testId)) hu rfl)
    (fun _ u hu => ?_) fun _ _ h => h
  refine wp_seq (ends_windowless hmonitor hu rfl) (fun _ u hu => ?_) fun _ _ h => h
  refine wp_seq (ends_windowless hprobe hu rfl) (fun ready u hu => ?_) fun _ _ h => h
  cases ready with
  | true =>
    refine post_mono (settled_measure hu) (fun r t h => ?_) fun _ _ h => h
    obtain ⟨rfl, h⟩ := h
    exact h
  | false => exact early_giveUp hu

theorem early_handle (e : PyExc) (hs : Settled env s) :
    Ends env (Early env) (fun _ => Settled env) (Pipeline.handle testId e) s := by
  have hreport : ∀ m, Ends env (Early env) (fun _ => Settled env) (Pipeline.reportException testId m) s := by
    intro m
    have hask : ∀ {a : Req}, a.windowless → Only Req.windowless (perform a) := only_request
    refine wp_seq (settled_kept.ends (hask (by trivial)) hs) (fun _ u hu => ?_) fun _ _ h => h
    refine wp_seq (settled_kept.ends (only_mono (fun _ => Req.reporting.windowless)
      (only_emitEvent testId (own_errorEvent testId m))) hu) (fun _ u hu => ?_) fun _ _ h => h
    refine wp_seq (settled_kept.ends (only_mono (fun _ => Req.reporting.windowless) (only_emitNone testId)) hu)
      (fun _ u hu => ?_) fun _ _ h => h
    exact wp_seq (settled_kept.ends (only_mono (fun _ => Req.closing.windowless) (only_aclose _)) hu)
      (fun _ _ h => h) fun _ _ h => h
  unfold Pipeline.handle
  split
  · exact hreport _
  · split
    · exact hreport _
    · exact hs

/-- What a run returns is the collected events less those with a canary id, and the canary
    ids are those of the windows. -/
def Filtered (env : Env) (ref : ListRef) (s : St) : Prop :=
  Settled env s ∧ ref.read s = s.collected.filter fun e => !s.canaryIds.any e.hasId

omit U in
theorem filter_nil_hasId (events : List TraceEvent) :
    events.filter (fun e => !([] : List String).any e.hasId) = events :=
  List.filter_eq_self.mpr fun _ _ => rfl

theorem filtered_result (hs : Settled env s) :
    Ends env (Filtered env) (fun _ => Settled env) Pipeline.result s := by
  refine post_mono (ends_result s) (fun ref t ht => ?_) fun _ _ h => h.elim
  obtain ⟨rfl, rfl⟩ := ht
  refine ⟨hs, ?_⟩
  unfold Pipeline.withoutCanaries
  split
  · rename_i hnil
    rw [hnil]
    exact (filter_nil_hasId _).symm
  · rfl

theorem early_kept {r : Option ListRef} : Kept env Req.aside (Early env r) := by
  cases r with
  | none => exact settled_kept.mono fun _ => Req.aside.windowless
  | some ref =>
    exact Kept.and .const (windowed_kept.mono fun _ => Req.aside.windowless)

theorem run_windowed {controller : Option NetnsController} :
    Ends env (Filtered env) (fun _ => Settled env) (Pipeline.runTestPipeline cfg req controller testId) {} := by
  have hinit : Windowed env [] [] {} :=
    ⟨heard_init, rfl, fun _ h => absurd h List.not_mem_nil, fun _ h => absurd h List.not_mem_nil, rfl⟩
  have hguarded : ∀ {c : NetnsController} {u : St}, Windowed env [] [] u →
      Ends env (Early env) (fun _ => Settled env) (Pipeline.guarded cfg req testId c) u := by
    intro c u hu
    have hteardown := only_teardown req testId
    refine wp_finally (wp_try (early_body hu) (fun _ _ h => h) fun e v hv => early_handle e hv)
      (fun r v hv => ?_) fun e v hv => ?_
    · refine post_mono (early_kept.ends hteardown hv) (fun _ _ h => h) fun _ w h => ?_
      cases r with
      | none => exact h
      | some ref => exact ⟨[], h.2⟩
    · exact post_mono (settled_kept.ends (only_mono (fun _ => Req.aside.windowless) hteardown) hv) (fun _ _ h => h)
        fun _ _ h => h
  have hrest : ∀ {c : NetnsController} {u : St}, Windowed env [] [] u →
      Ends env (Filtered env) (fun _ => Settled env) (Pipeline.runWith cfg req testId c) u := by
    intro c u hu
    refine wp_seq (ends_windowless (only_request (by trivial)) hu rfl) (fun _ v hv => ?_) fun _ _ h => h
    refine wp_seq (hguarded hv) (fun early w hw => ?_) fun _ _ h => h
    cases early with
    | some ref =>
      obtain ⟨rfl, hw⟩ := hw
      refine ⟨⟨[], hw⟩, ?_⟩
      rw [hw.ids]
      exact (filter_nil_hasId _).symm
    | none => exact filtered_result hw
  cases controller with
  | some c => exact hrest hinit
  | none =>
    exact wp_seq (ends_windowless (only_mono (fun _ => Req.aside.windowless) (only_new none)) hinit rfl)
      (fun _ _ h => hrest h) fun _ _ h => h

end Steps

/-! ## The returned list -/

/-- A line about a canary was parsed to this event. -/
def canaryEvent (env : Env) (s : St) (e : TraceEvent) : Bool := (consumed env s).any fun x => x.1.isCanary && x.2 == e

omit U in
theorem filter_eq_iff {α : Type} {p q : α → Bool} {xs : List α} : xs.filter p = xs.filter q ↔ ∀ x ∈ xs, p x = q x := by
  refine ⟨fun h x hx => ?_, fun h => List.filter_congr h⟩
  have hmem : x ∈ xs.filter p ↔ x ∈ xs.filter q := by rw [h]
  rw [List.mem_filter, List.mem_filter] at hmem
  exact Bool.eq_iff_iff.mpr ⟨fun hp => (hmem.mp ⟨hx, hp⟩).2, fun hq => (hmem.mpr ⟨hx, hq⟩).2⟩

/-- The trace events a run returns are the collected ones that are no canary's, exactly
    when each collected event is a canary's if and only if its id was first seen in one of
    the two windows. -/
theorem returned_exact_iff {cfg : Pipeline.Config} {req : TestRequest} {controller : Option NetnsController}
    {testId : String} {ref : ListRef} {s : St}
    (hrun : Steps (world env) (Pipeline.runTestPipeline cfg req controller testId, {}) (.ret ref, s)) :
    (ref.read s).filter TraceEvent.traced = s.collected.filter (fun e => e.traced && !canaryEvent env s e) ↔
      ∀ e ∈ s.collected, e.traced = true → (canaryEvent env s e = true ↔ InWindow s e = true) := by
  obtain ⟨⟨xs, hw⟩, hread⟩ := wp_result run_windowed hrun
  have hids : ∀ e : TraceEvent, s.canaryIds.any e.hasId = InWindow s e := by
    intro e
    rw [InWindow, hw.snapshots, hw.ids]
  rw [hread, List.filter_filter, filter_eq_iff]
  refine forall₂_congr fun e _ => ?_
  rw [hids e]
  cases e.traced <;> cases canaryEvent env s e <;> cases InWindow s e <;> decide

end Nse

namespace Nse

open Coroutine

attribute [local instance] PyStr.Unicode.ascii

theorem returned_exact_iff_sample : ∃ ref s,
    Steps (world {}) (Pipeline.runTestPipeline {} sampleRequest none "a1b2c3d4e5f6", {}) (.ret ref, s) ∧
      (ref.read s).filter TraceEvent.traced = s.collected.filter (fun e => e.traced && !canaryEvent {} s e) ∧
        s.canaryIds ≠ [] := by
  have hplay : Script.returned
      (fun _ s => !s.canaryIds.isEmpty && s.collected.all fun e => !e.traced || canaryEvent {} s e == InWindow s e)
      ((obliging {}).play 200 (Pipeline.runTestPipeline {} sampleRequest none "a1b2c3d4e5f6") {}) = true := by
    decide +kernel
  obtain ⟨ref, s, hrun, hp⟩ := Script.returned_steps (schedule_fits _ _ _) hplay
  simp only [Bool.and_eq_true, Bool.not_eq_true', List.all_eq_true] at hp
  refine ⟨ref, s, hrun, (returned_exact_iff hrun).mpr fun e he ht => ?_, by simpa using hp.1⟩
  have := hp.2 e he
  simp only [ht, Bool.not_true, Bool.false_or, beq_iff_eq] at this
  rw [this]

/-- The line of the first readiness canary comes only after the test packet's, when the
    second canary has been seen and the snapshot taken. -/
def lateCanary (s : St) : Req → List Ev
  | .waitForEvent _ => if s.marks.getLast? = some (.injected (.canary .readiness 1)) then [] else traceLast s
  | .sleep ms =>
    if ms = 150 then traceLast s ++ [.write (.canary .readiness 1) (verdictLine "a9"), .line] else traceLast s
  | a => obligingEvents s a

/-- Every packet has its own id, and yet an event of a canary is left in the list. -/
theorem a_late_canary_stays_in_the_list : ∃ ref s,
    Steps (world {}) (Pipeline.runTestPipeline {} sampleRequest none "a1b2c3d4e5f6", {}) (.ret ref, s) ∧
      (∀ x ∈ consumed {} s, ∀ y ∈ consumed {} s, x.2.traceId = y.2.traceId → x.1 = y.1) ∧
        (ref.read s).filter TraceEvent.traced ≠ s.collected.filter (fun e => e.traced && !canaryEvent {} s e) := by
  have hplay : Script.returned
      (fun ref s => decide (∀ x ∈ consumed {} s, ∀ y ∈ consumed {} s, x.2.traceId = y.2.traceId → x.1 = y.1) &&
        decide ((ref.read s).filter TraceEvent.traced ≠ s.collected.filter (fun e => e.traced && !canaryEvent {} s e)))
      ((schedule {} obligingReply lateCanary).play 200
        (Pipeline.runTestPipeline {} sampleRequest none "a1b2c3d4e5f6") {}) = true := by
    decide +kernel
  obtain ⟨ref, s, hrun, hp⟩ := Script.returned_steps (schedule_fits _ _ _) hplay
  simp only [Bool.and_eq_true, decide_eq_true_eq] at hp
  exact ⟨ref, s, hrun, hp.1, hp.2⟩

end Nse
