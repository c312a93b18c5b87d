/-
  Nse.Cli.Gates — a test that passes has passed every gate.

  A run leaves a mark at each gate: the readiness probe, the injection of each packet
  before and after, the liveness probe, the health check. On every path that misses a gate
  an error event with the run's own id enters the list, and it stays there: the kernel's
  ids are shorter than a test id, so the canary filter never removes it (`Failed`). So
  throughout a run either the list is already condemned or the marks are exactly the gates
  passed so far (`Gated`), and an evaluation that passes leaves only the second
  (`passed_every_gate`).
-/

import Nse.Cli.RunnerProofs
import Nse.Core.Heard
import Nse.Core.Rehearsal

namespace Nse

open Coroutine
open Pipeline (ListRef)

/-! ## Gates -/

def Mark.gate : Mark → Bool
  | .injecting p _ | .injected p => !p.isCanary
  | .probed _ _ | .health _ => true
  | .snapshot _ | .conntrack _ => false

/-- The gates a run has come to, in order. -/
def gates (s : St) : List Mark := s.marks.filter Mark.gate

/-- Every packet of the request, injected once, in order. -/
def injections : Nat → List PacketSpec → List Mark
  | _, [] => []
  | i, pkt :: pkts => .injecting (.test i) pkt :: .injected (.test i) :: injections (i + 1) pkts

variable [U : PyStr.Unicode] {env : Env}

/-- The kernel prints ids of at most 8 characters. -/
def ShortIds (env : Env) : Prop :=
  ∀ s p line, env.writes s p line = true → ∀ q e id, heard env (p, line) = some (q, e) →
    e.traceId = some id → id.length ≤ 8

structure Sound (env : Env) (s : St) : Prop where
  heard : Heard env s
  written : ∀ x ∈ s.out, ∀ q e id, Nse.heard env x = some (q, e) → e.traceId = some id → id.length ≤ 8
  canaries : ∀ id ∈ s.canaryIds, id.length ≤ 8

theorem Sound.seen {s : St} (h : Sound env s) : ∀ id ∈ s.h.seenTraceIds, id.length ≤ 8 := by
  intro id hid
  obtain ⟨-, x, hx, ht⟩ := (h.heard.seen id).mp hid
  obtain ⟨y, hy, hxy⟩ := List.mem_filterMap.mp hx
  exact h.written y (List.mem_of_mem_take hy) _ _ id hxy ht

theorem sound_init : Sound env {} where
  heard := heard_init
  written x hx := by cases hx
  canaries id hid := by cases hid

/-- An error event of this run is in the list. -/
def Failed (testId : String) (s : St) : Prop := ∃ e ∈ s.collected, e.type = .error ∧ e.traceId = some testId

/-- The run has failed, or the gates it came to are as `G` says. -/
def GatedBy (env : Env) (testId : String) (G : List Mark → Prop) (s : St) : Prop :=
  Sound env s ∧ (Failed testId s ∨ G (gates s))

/-- The run has failed, or it has come to exactly these gates. -/
abbrev Gated (env : Env) (testId : String) (xs : List Mark) : St → Prop := GatedBy env testId (· = xs)

/-- Requests that pass no gate. -/
def Req.ungated : Req → Prop
  | .collect e => e.traced = false
  | .mark m => m.gate = false
  | .addCanaryIds ids => ∀ id ∈ ids, id.length ≤ 8
  | .healthErrors => False
  | _ => True

/-- Requests that add no event of the kernel and no long canary id. -/
def Req.sound : Req → Prop
  | .collect e => e.traced = false
  | .addCanaryIds ids => ∀ id ∈ ids, id.length ≤ 8
  | _ => True

section Kept

theorem sound_kept (hids : ShortIds env) : Kept env Req.sound (Sound env) := by
  have hw := written_kept
    (P := fun x => ∀ q e id, Nse.heard env x = some (q, e) → e.traceId = some id → id.length ≤ 8) hids
  have hu : ∀ a : Req, a.sound → a.untraced := fun a ha => by cases a <;> first | exact ha | trivial
  refine ⟨fun s s' hs hm => ⟨hs.heard.move hm, hw.move s s' hs.written hm, hm.canaryIds ▸ hs.canaries⟩,
    fun s a r ha hs hr => ⟨heard_kept.answer s a r (hu a ha) hs.heard hr, hw.answer s a r trivial hs.written hr, ?_⟩⟩
  rw [effect_canaryIds]
  intro id hid
  rcases List.mem_append.mp hid with hid | hid
  · exact hs.canaries id hid
  · cases a <;> first | exact ha id hid | cases hid

variable {testId : String} {xs : List Mark} {G : List Mark → Prop}

omit U in
theorem Failed.mono {s s' : St} (h : Failed testId s) (hc : s.collected <+: s'.collected) : Failed testId s' := by
  obtain ⟨e, he, ht⟩ := h
  exact ⟨e, hc.subset he, ht⟩

theorem failed_kept : Kept env (fun _ => True) (Failed testId) :=
  ⟨fun _ _ hs hm => hs.mono hm.collected, fun s a r _ hs _ => hs.mono (effect_collected s a r ▸ List.prefix_append _ _)⟩

theorem gates_kept : Kept env Req.ungated fun s => G (gates s) := by
  refine ⟨fun s s' h hm => ?_, fun s a r ha h _ => ?_⟩
  · rw [gates, hm.marks]
    exact h
  · have hnone : (a.marks s).filter Mark.gate = [] := by
      cases a with
      | mark m => exact List.filter_eq_nil_iff.mpr fun m' hm => List.mem_singleton.mp hm ▸ Bool.eq_false_iff.mp ha
      | healthErrors => exact False.elim ha
      | _ => rfl
    rw [gates, effect_marks, List.filter_append, hnone, List.append_nil]
    exact h

omit U in
theorem Req.ungated.sound {a : Req} (h : a.ungated) : a.sound := by
  cases a <;> first | exact h | trivial

theorem gated_kept (hids : ShortIds env) : Kept env Req.ungated (GatedBy env testId G) :=
  ((sound_kept hids).mono fun _ => Req.ungated.sound).and ((failed_kept.mono fun _ _ => trivial).or gates_kept)

/-- Passing one gate. -/
theorem ends_gate (hids : ShortIds env) {m : Mark} (hm : m.gate = true) {s : St} (hs : Gated env testId xs s) :
    Ends env (fun _ => Gated env testId (xs ++ [m])) (fun _ => Sound env) (perform (.mark m)) s := by
  refine ends_perform (gated_kept hids).stable hs (fun t v ht hr => ?_) (fun t e _ hr => by cases hr)
  refine ⟨(sound_kept hids).answer t (.mark m) (.ok v) trivial ht.1 hr, ?_⟩
  rcases ht.2 with hf | hg
  · exact .inl (failed_kept.answer t (.mark m) (.ok v) trivial hf hr)
  · right
    rw [gates, effect_marks, List.filter_append]
    exact congrArg₂ _ hg (List.filter_eq_self.mpr fun m' hm' => List.mem_singleton.mp hm' ▸ hm)

theorem ends_ungated (hids : ShortIds env) {α : Type} {c : Prog α} (hc : Only Req.ungated c) {s : St}
    (hs : GatedBy env testId G s) : Ends env (fun _ => GatedBy env testId G) (fun _ => Sound env) c s :=
  post_mono ((gated_kept hids).ends hc hs) (fun _ _ h => h) fun _ _ h => h.1

theorem GatedBy.failed {G' : List Mark → Prop} {s : St} (h : GatedBy env testId G s) (hf : Failed testId s) :
    GatedBy env testId G' s := ⟨h.1, .inl hf⟩

end Kept

/-! ## The steps of a run -/

section Steps

variable {testId : String} {xs : List Mark} {s : St}

omit U in
theorem Req.aside.ungated {a : Req} (h : a.aside) : a.ungated := by
  cases a <;> first | exact False.elim h | trivial

omit U in
theorem Req.spawning.ungated {a : Req} (h : a.spawning) : a.ungated := by
  cases a <;> trivial

omit U in
theorem Req.reporting.ungated {a : Req} (h : a.reporting testId) : a.ungated := by
  cases a with
  | collect e => exact h.1
  | mark m => cases m <;> first | rfl | exact False.elim h
  | addCanaryIds ids => exact False.elim h
  | healthErrors => exact False.elim h
  | _ => trivial

omit U in
theorem Req.opening.ungated {a : Req} (h : a.opening) : a.ungated := by
  cases a <;> first | exact False.elim h | trivial

omit U in
theorem Req.closing.ungated {a : Req} (h : a.closing) : a.ungated := by
  cases a <;> first | exact False.elim h | trivial

omit U in
theorem Req.sending.ungated {label : Label} {a : Req} (h : a.sending (CanaryOf label)) : a.ungated := by
  cases a with
  | mark m =>
    cases m with
    | injecting p _ => obtain ⟨n, rfl⟩ := h; rfl
    | injected p => obtain ⟨n, rfl⟩ := h; rfl
    | _ => exact False.elim h
  | collect e => exact False.elim h
  | addCanaryIds ids => exact False.elim h
  | healthErrors => exact False.elim h
  | _ => trivial

variable (hids : ShortIds env) {cfg : Pipeline.Config} {t : Pipeline.Target}

include hids

theorem gates_probeOracle {label : Label} {spec : PacketSpec} (hs : Gated env testId xs s) :
    Ends env (fun seen => Gated env testId (xs ++ [.probed label seen])) (fun _ => Sound env)
      (Pipeline.probeOracle cfg t label spec) s := by
  have hprobe := ends_ungated hids (only_mono (fun _ => Req.sending.ungated)
    (only_probeFrom cfg t spec label cfg.canaryAttempts 1)) hs
  refine wp_seq hprobe (fun seen u hu => ?_) fun _ _ h => h
  exact wp_seq (ends_gate hids rfl hu) (fun _ _ h => h) fun _ _ h => h

theorem gates_injectFrom : ∀ (pkts : List PacketSpec) {i : Nat} {xs : List Mark} {s : St}, Gated env testId xs s →
    Ends env (fun _ => Gated env testId (xs ++ injections i pkts)) (fun _ => Sound env)
      (Pipeline.injectFrom cfg t i pkts) s
  | [], i, xs, s, hs => by
    rw [injections, List.append_nil]
    exact hs
  | pkt :: pkts, i, xs, s, hs => by
    have hask : ∀ {a : Req}, a.ungated → Only Req.ungated (perform a) := only_request
    have hsend : ∀ {u : St}, Gated env testId xs u →
        Ends env (fun _ => Gated env testId (xs ++ [.injecting (.test i) pkt] ++ [.injected (.test i)]))
          (fun _ => Sound env) (Pipeline.injectPacket t (.test i) pkt) u := by
      intro u hu
      refine wp_seq (ends_gate hids rfl hu) (fun _ v hv => ?_) fun _ _ h => h
      refine wp_seq (ends_ungated hids (only_mono (fun _ => Req.aside.ungated) (only_inject _ _ _ _ _ _)) hv)
        (fun _ w hw => ?_) fun _ _ h => h
      exact ends_gate hids rfl hw
    refine wp_seq (ends_ungated hids (hask (by trivial)) hs) (fun _ u hu => ?_) fun _ _ h => h
    refine wp_seq (hsend hu) (fun _ v hv => ?_) fun _ _ h => h
    refine wp_seq (ends_ungated hids (hask (by trivial)) hv) (fun _ w hw => ?_) fun _ _ h => h
    have := gates_injectFrom pkts (i := i + 1) hw
    simpa [injections] using this

theorem gates_emitEvent {e : TraceEvent} {G : List Mark → Prop} (he : Own testId e) (hs : GatedBy env testId G s) :
    Ends env (fun _ u => GatedBy env testId G u ∧ (e.type = .error → Failed testId u)) (fun _ => Sound env)
      (Pipeline.emitEvent (some e)) s := by
  have hcollect : Ends env (fun _ u => GatedBy env testId G u ∧ (e.type = .error → Failed testId u))
      (fun _ => Sound env) (perform (.collect e)) s := by
    refine ends_perform (gated_kept hids).stable hs (fun u v hu hr => ⟨?_, fun ht => ?_⟩) (fun u _ _ hr => by cases hr)
    · exact (gated_kept hids).answer u (.collect e) (.ok v) he.1 hu hr
    · exact ⟨e, by simp [Req.collects], ht, he.2.1⟩
  have hkept : Kept env Req.ungated fun u => GatedBy env testId G u ∧ (e.type = .error → Failed testId u) := by
    refine (gated_kept hids).and ⟨fun u u' hu hm ht => (hu ht).mono hm.collected, fun u a r _ hu hr ht => ?_⟩
    exact failed_kept.answer u a r trivial (hu ht) hr
  refine wp_seq hcollect (fun _ u hu => ?_) fun _ _ h => h
  exact post_mono (hkept.ends (only_request (by trivial)) hu) (fun _ _ h => h) fun _ _ h => h.1.1

theorem gates_emitOracleError {message : String} {G : List Mark → Prop} (hs : GatedBy env testId G s) :
    Ends env (fun _ u => GatedBy env testId G u ∧ Failed testId u) (fun _ => Sound env)
      (Pipeline.emitOracleError testId message) s := by
  have hstatus : Only Req.ungated (perform (.setStatus .error)) := only_request (by trivial)
  refine wp_seq (ends_ungated hids hstatus hs) (fun _ u hu => ?_) fun _ _ h => h
  exact post_mono (gates_emitEvent hids (own_errorEvent testId _) hu) (fun _ _ h => ⟨h.1, h.2 rfl⟩) fun _ _ h => h

variable {req : TestRequest} {c : NetnsController}

theorem gates_seenTraceIds {G : List Mark → Prop} (hs : GatedBy env testId G s) :
    Ends env (fun ids u => GatedBy env testId G u ∧ ∀ id ∈ ids, id.length ≤ 8) (fun _ => Sound env)
      (perform .seenTraceIds) s := by
  refine ends_perform (gated_kept hids).stable hs (fun u ids hu hr => ⟨?_, ?_⟩) (fun u _ _ hr => by cases hr)
  · exact (gated_kept hids).answer u .seenTraceIds (.ok ids) trivial hu hr
  · have : ids = u.h.seenTraceIds := by simpa [allows, exactly] using hr
    exact this ▸ hu.1.seen

theorem gates_checkLiveness (hs : Gated env testId xs s) :
    Ends env (fun _ => Gated env testId (xs ++ [.probed .liveness true])) (fun _ => Sound env)
      (Pipeline.checkLiveness cfg req testId c) s := by
  refine wp_seq (gates_seenTraceIds hids hs) (fun before u hu => ?_) fun _ _ h => h
  refine wp_seq (gates_probeOracle hids hu.1) (fun alive v hv => ?_) fun _ _ h => h
  have hreport : Ends env (fun _ => Gated env testId (xs ++ [.probed .liveness true])) (fun _ => Sound env)
      (ifSo (alive = false) (Pipeline.emitOracleError testId Pipeline.livenessLost)) v := by
    refine ends_ifSo (fun _ => ?_) fun halive => ?_
    · exact post_mono (gates_emitOracleError hids hv) (fun _ _ h => h.1.failed h.2) fun _ _ h => h
    · rw [Bool.not_eq_false] at halive
      exact halive ▸ hv
  refine wp_seq hreport (fun _ w hw => ?_) fun _ _ h => h
  refine wp_seq (gates_seenTraceIds hids hw) (fun now w' hw' => ?_) fun _ _ h => h
  refine ends_ungated hids (only_request ?_) hw'.1
  exact fun id hid => hw'.2 id (List.mem_filter.mp hid).1

/-- The gates of a run that asked a harvester without complaints. -/
def Checked (xs : List Mark) (g : List Mark) : Prop :=
  ∃ h : Harvester, g = xs ++ [.health h] ∧ h.healthErrors = [] ∧ h.stopRequested = true ∧ h.state ≠ .running

theorem gates_reportHealth (hs : Gated env testId xs s) :
    Ends env (fun _ => GatedBy env testId (Checked xs)) (fun _ => Sound env) (Pipeline.reportHealth testId) s := by
  have hkept : Kept env Req.closing (Gated env testId xs) := (gated_kept hids).mono fun _ => Req.closing.ungated
  have hask : ∀ {u : St}, Gated env testId xs u ∧ Terminal u →
      Ends env (fun problems v => ∃ h : Harvester, Gated env testId (xs ++ [.health h]) v ∧ h.healthErrors = problems ∧
          h.stopRequested = true ∧ h.state ≠ .running) (fun _ => Sound env) (perform .healthErrors) u := by
    intro u hu
    refine ends_perform (hkept.and terminal_kept).stable hu (fun v problems hv hr => ?_) (fun v _ _ hr => by cases hr)
    have : problems = v.h.healthErrors := by simpa [allows, exactly] using hr
    refine ⟨v.h, ⟨(sound_kept hids).answer v .healthErrors (.ok problems) trivial hv.1.1 hr, ?_⟩, this.symm, hv.2⟩
    exact hv.1.2.imp id fun hg => congrArg (· ++ [Mark.health v.h]) hg ▸ List.filter_append ..
  have hemit : ∀ {h : Harvester} {u : St}, Gated env testId (xs ++ [.health h]) u → h.stopRequested = true →
      h.state ≠ .running → Ends env (fun _ => GatedBy env testId (Checked xs)) (fun _ => Sound env)
        (Co.forEach h.healthErrors (Pipeline.emitOracleError testId)) u := by
    intro h u hu hstop hst
    -- either nothing is left to report, or what was reported condemns the run
    refine wp_forEach (P := fun rest v => Gated env testId (xs ++ [.health h]) v ∧
      (rest = [] → h.healthErrors = [] ∨ Failed testId v)) (X := fun _ => Sound env)
      (fun message rest v hv => ?_) (fun v hv => ?_) (fun _ _ h => h) ⟨hu, fun hnil => .inl hnil⟩
    · exact post_mono (gates_emitOracleError hids hv.1) (fun _ _ hw => ⟨hw.1, fun _ => .inr hw.2⟩) fun _ _ h => h
    · rcases hv.2 rfl with he | hf
      · exact ⟨hv.1.1, hv.1.2.imp id fun hg => ⟨h, hg, he, hstop, hst⟩⟩
      · exact ⟨hv.1.1, .inl hf⟩
  refine wp_seq (ends_aclose hkept hs) (fun _ u hu => ?_) fun _ _ h => h.1
  refine wp_seq (hask hu) (fun problems v hv => ?_) fun _ _ h => h
  obtain ⟨h, hg, rfl, hstop, hst⟩ := hv
  refine wp_seq (hemit hg hstop hst) (fun _ w hw => ?_) fun _ _ h => h
  have hstatus :
      Only Req.ungated (do let st ← perform .status; ifSo (st ≠ .error) (perform (.setStatus .done)) : Prog Unit) :=
    only_bind (fun st => only_ifSo (only_request (by trivial))) (only_request (by trivial))
  exact ends_ungated hids hstatus hw

omit hids in
theorem GatedBy.imp {G G' : List Mark → Prop} (h : GatedBy env testId G s) (hG : ∀ g, G g → G' g) :
    GatedBy env testId G' s := ⟨h.1, h.2.imp id (hG _)⟩

/-- All the gates of a run up to the health check. -/
def gatesOf (req : TestRequest) : List Mark :=
  .probed .readiness true :: (injections 0 req.packets ++ [.probed .liveness true])

/-- The list the caller gets holds an error event of this run. -/
def Condemned (testId : String) (ref : ListRef) (s : St) : Prop :=
  ∃ e ∈ ref.read s, e.type = .error ∧ e.traceId = some testId

omit hids U in
/-- A list of its own does not change. -/
theorem condemned_fresh_kept [PyStr.Unicode] {events : List TraceEvent} :
    Kept env Req.ungated (Condemned testId (.fresh events)) :=
  .const (b := ∃ e ∈ events, e.type = .error ∧ e.traceId = some testId)

/-- The list the caller gets is condemned, or the gates are as `G` says. -/
def Returned (env : Env) (testId : String) (G : List Mark → Prop) (ref : ListRef) (s : St) : Prop :=
  Sound env s ∧ (Condemned testId ref s ∨ G (gates s))

theorem returned_kept {G : List Mark → Prop} {ref : ListRef} : Kept env Req.ungated (Returned env testId G ref) := by
  have hcond : Kept env Req.ungated (Condemned testId ref) := by
    cases ref with
    | collected => exact failed_kept.mono fun _ _ => trivial
    | fresh events => exact condemned_fresh_kept
  exact ((sound_kept hids).mono fun _ => Req.ungated.sound).and (hcond.or gates_kept)

omit hids U in
/-- No id of a canary is the id of the run, so the filter leaves the error events. -/
theorem condemned_withoutCanaries (hlen : 8 < testId.length) {events : List TraceEvent} {ids : List String}
    (hshort : ∀ id ∈ ids, id.length ≤ 8) (hs : Condemned testId (.fresh events) s) (hf : Failed testId s) :
    Condemned testId (Pipeline.withoutCanaries events ids) s := by
  unfold Pipeline.withoutCanaries
  split
  · exact hf
  · obtain ⟨e, he, ht, hid⟩ := hs
    refine ⟨e, List.mem_filter.mpr ⟨he, ?_⟩, ht, hid⟩
    rw [Bool.not_eq_true', List.any_eq_false]
    intro id hmem heq
    have hne : id = testId := by
      have := (Bool.and_eq_true_iff.mp heq).2
      rw [hid] at this
      exact (Option.some.inj (eq_of_beq this)).symm
    have := hshort id hmem
    rw [hne] at this
    omega

theorem gates_result (hlen : 8 < testId.length) {G : List Mark → Prop} (hs : GatedBy env testId G s) :
    Ends env (Returned env testId G) (fun _ => Sound env) Pipeline.result s := by
  have hkept : Kept env Req.ungated (GatedBy env testId G) := gated_kept hids
  have hevents : ∀ {events : List TraceEvent}, Kept env Req.ungated
      fun u => GatedBy env testId G u ∧ ((Condemned testId (.fresh events) u ∧ Failed testId u) ∨ G (gates u)) :=
    hkept.and (Kept.or (condemned_fresh_kept.and (failed_kept.mono fun _ _ => trivial)) gates_kept)
  have hread : Ends env (fun events u => GatedBy env testId G u ∧
      ((Condemned testId (.fresh events) u ∧ Failed testId u) ∨ G (gates u))) (fun _ => Sound env)
        (perform .collected) s := by
    refine ends_perform hkept.stable hs (fun u events hu hr => ⟨hu, ?_⟩) (fun u _ _ hr => by cases hr)
    have : events = u.collected := by simpa [allows, exactly] using hr
    exact hu.2.imp (fun hf => ⟨this ▸ hf, hf⟩) id
  refine wp_seq hread (fun events u hu => ?_) fun _ _ h => h
  have hfilter : Ends env (fun ids v => Returned env testId G (Pipeline.withoutCanaries events ids) v)
      (fun _ => Sound env) (perform .canaryIds) u := by
    refine ends_perform hevents.stable hu (fun v ids hv hr => ?_) (fun v _ _ hr => by cases hr)
    have : ids = v.canaryIds := by simpa [allows, exactly] using hr
    refine ⟨hv.1.1, hv.2.imp (fun hc => ?_) id⟩
    exact condemned_withoutCanaries hlen (this ▸ hv.1.1.canaries) hc.1 hc.2
  exact wp_seq hfilter (fun _ _ h => h) fun _ _ h => h

/-- What the `try` block leaves: an early list, or gates passed up to the health check. -/
def Left (env : Env) (req : TestRequest) (testId : String) : Option ListRef → St → Prop
  | some ref => Returned env testId (Checked (gatesOf req)) ref
  | none => GatedBy env testId (Checked (gatesOf req))

omit hids in
theorem left_of_failed {req : TestRequest} (h : GatedBy env testId (fun _ => False) s) : Left env req testId none s :=
  h.imp fun _ hf => hf.elim

theorem gates_giveUp (hlen : 8 < testId.length) (hs : Gated env testId xs s) :
    Ends env (Left env req testId) (fun _ => Sound env) (Pipeline.giveUp testId) s := by
  refine wp_seq (gates_emitOracleError hids hs) (fun _ u hu => ?_) fun _ _ h => h
  have hfailed : GatedBy env testId (Checked (gatesOf req)) u := hu.1.failed hu.2
  refine wp_seq (ends_ungated hids (only_mono (fun _ => Req.reporting.ungated) (only_emitNone testId)) hfailed)
    (fun _ v hv => ?_) fun _ _ h => h
  exact wp_seq (gates_result hids hlen hv) (fun _ _ h => h) fun _ _ h => h

theorem gates_measure (hs : Gated env testId [.probed .readiness true] s) :
    Ends env (Left env req testId) (fun _ => Sound env) (Pipeline.measure cfg req testId c) s := by
  have hask : ∀ {a : Req}, a.ungated → Only Req.ungated (perform a) := only_request
  have hseen : Ends env (fun ids u => Gated env testId [.probed .readiness true] u ∧ ∀ id ∈ ids, id.length ≤ 8)
      (fun _ => Sound env) (perform .seenTraceIds) s := gates_seenTraceIds hids hs
  refine wp_seq hseen (fun ids u hu => ?_) fun _ _ h => h
  have hadd : Only Req.ungated (perform (.addCanaryIds ids)) := only_request hu.2
  refine wp_seq (ends_ungated hids hadd hu.1) (fun _ u hu => ?_) fun _ _ h => h
  refine wp_seq (gates_injectFrom hids req.packets hu) (fun _ u hu => ?_) fun _ _ h => h
  refine wp_seq (ends_ungated hids (hask (by trivial)) hu) (fun _ u hu => ?_) fun _ _ h => h
  refine wp_seq (gates_checkLiveness hids hu) (fun _ u hu => ?_) fun _ _ h => h
  refine wp_seq (ends_ungated hids (only_mono (fun _ => Req.reporting.ungated) (only_reportConntrack c req testId)) hu)
    (fun _ u hu => ?_) fun _ _ h => h
  refine wp_seq (gates_reportHealth hids hu) (fun _ u hu => ?_) fun _ _ h => h
  have hall : GatedBy env testId (Checked (gatesOf req)) u := by simpa [gatesOf] using hu
  exact hall

theorem gates_body (hlen : 8 < testId.length) (hs : Gated env testId [] s) :
    Ends env (Left env req testId) (fun _ => Sound env) (Pipeline.body cfg req testId c) s := by
  have hmonitor : Only Req.ungated (Pipeline.startMonitor cfg req testId c) :=
    only_mono (fun _ => Req.opening.ungated) (only_startMonitor c req testId cfg)
  refine wp_seq (ends_ungated hids (only_mono (fun _ => Req.aside.ungated) (only_setupTopology c req testId)) hs)
    (fun _ u hu => ?_) fun _ _ h => h
  refine wp_seq (ends_ungated hids (only_mono (fun _ => Req.spawning.ungated) (only_spawnListeners c req testId)) hu)
    (fun _ u hu => ?_) fun _ _ h => h
  refine wp_seq (ends_ungated hids hmonitor hu) (fun _ u hu => ?_) fun _ _ h => h
  refine wp_seq (gates_probeOracle hids hu) (fun ready u hu => ?_) fun _ _ h => h
  cases ready with
  | true => exact gates_measure hids hu
  | false => exact gates_giveUp hids hlen hu

theorem gates_handle (e : PyExc) (hs : Sound env s) :
    Ends env (Left env req testId) (fun _ => Sound env) (Pipeline.handle testId e) s := by
  have hreport : ∀ m, Ends env (Left env req testId) (fun _ => Sound env) (Pipeline.reportException testId m) s := by
    intro m
    have hs' : GatedBy env testId (fun _ => True) s := ⟨hs, .inr trivial⟩
    refine wp_seq (ends_ungated hids (only_request (by trivial)) hs') (fun _ u hu => ?_) fun _ _ h => h
    refine wp_seq (gates_emitEvent hids (own_errorEvent testId m) hu) (fun _ u hu => ?_) fun _ _ h => h
    have hf : GatedBy env testId (fun _ => False) u := hu.1.failed (hu.2 rfl)
    refine wp_seq (ends_ungated hids (only_mono (fun _ => Req.reporting.ungated) (only_emitNone testId)) hf)
      (fun _ u hu => ?_) fun _ _ h => h
    refine wp_seq (ends_ungated hids (only_mono (fun _ => Req.closing.ungated) (only_aclose _)) hu)
      (fun _ u hu => ?_) fun _ _ h => h
    exact left_of_failed hu
  unfold Pipeline.handle
  split
  · exact hreport _
  · split
    · exact hreport _
    · exact hs

theorem left_kept {r : Option ListRef} : Kept env Req.ungated (Left env req testId r) := by
  cases r with
  | none => exact gated_kept hids
  | some ref => exact returned_kept hids

theorem gates_runWith (hlen : 8 < testId.length) {s : St} (hs : Gated env testId [] s) :
    Ends env (Returned env testId (Checked (gatesOf req))) (fun _ => Sound env)
      (Pipeline.runWith cfg req testId c) s := by
  have hsound : Kept env Req.ungated (Sound env) := (sound_kept hids).mono fun _ => Req.ungated.sound
  have hteardown : Only Req.ungated (Pipeline.teardown req testId) :=
    only_mono (fun _ => Req.aside.ungated) (only_teardown req testId)
  have hguarded : ∀ {u : St}, Gated env testId [] u →
      Ends env (Left env req testId) (fun _ => Sound env) (Pipeline.guarded cfg req testId c) u := by
    intro u hu
    refine wp_finally (wp_try (gates_body hids hlen hu) (fun _ _ h => h) fun e v hv => gates_handle hids e hv)
      (fun r v hv => ?_) fun e v hv => ?_
    · refine post_mono ((left_kept hids).ends hteardown hv) (fun _ _ h => h) fun _ w h => ?_
      cases r <;> exact h.1
    · exact post_mono (hsound.ends hteardown hv) (fun _ _ h => h) fun _ _ h => h
  refine wp_seq (ends_ungated hids (only_request (by trivial)) hs) (fun _ v hv => ?_) fun _ _ h => h
  refine wp_seq (hguarded hv) (fun early w hw => ?_) fun _ _ h => h
  cases early with
  | some ref => exact hw
  | none => exact gates_result hids hlen hw

theorem gates_runTestPipeline (hlen : 8 < testId.length) {controller : Option NetnsController} :
    Ends env (Returned env testId (Checked (gatesOf req))) (fun _ => Sound env)
      (Pipeline.runTestPipeline cfg req controller testId) {} := by
  have hinit : Gated env testId [] {} := ⟨sound_init, .inr rfl⟩
  cases controller with
  | some c => exact gates_runWith hids hlen hinit
  | none =>
    have hnew : Only Req.ungated (NetnsController.new none) := only_mono (fun _ => Req.aside.ungated) (only_new none)
    exact wp_seq (ends_ungated hids hnew hinit) (fun _ _ h => gates_runWith hids hlen h) fun _ _ h => h

end Steps

/-- If a case passes, its run passed every gate: the readiness probe succeeded, then every
    packet was injected once and in order, then the liveness probe succeeded, then the
    closed harvester had nothing to complain about; and the list reduces to the expected
    verdicts, of which there are some. -/
theorem passed_every_gate {P : Runner.Pydantic} {raw : PyValue} {index : Nat} {name : String} {req : TestRequest}
    {expected : List String} (hcase : Runner.buildCase P raw index = .ok (name, req, expected)) (hids : ShortIds env)
    {testId : String} (hid : testId.length = 12) {cfg : Pipeline.Config} {controller : Option NetnsController}
    {ref : ListRef} {s t : St}
    (hrun : Steps (world env) (Pipeline.runTestPipeline cfg req controller testId, {}) (.ret ref, s))
    (hafter : After (world env) s t) (hpass : (Runner.evaluateCase name expected (ref.read t)).passed = true) :
    ∃ h : Harvester,
      gates t = .probed .readiness true :: (injections 0 req.packets ++ [.probed .liveness true, .health h]) ∧
        h.healthErrors = [] ∧ h.stopRequested = true ∧ h.state = .stopped ∧ h.unparsedTraceLines = 0 ∧
        Runner.reduceVerdicts (ref.read t) = expected ∧ expected ≠ [] := by
  have hlen : 8 < testId.length := by omega
  have hret : Returned env testId (Checked (gatesOf req)) ref s :=
    wp_result (gates_runTestPipeline hids hlen) hrun
  have hend : Returned env testId (Checked (gatesOf req)) ref t := (returned_kept hids).stable.after hafter hret
  obtain ⟨hclean, hreduce⟩ := Runner.evaluateCase_passed.mp hpass
  rcases hend.2 with ⟨e, he, ht, -⟩ | ⟨h, hg, hhealth, hstop, hst⟩
  · exact absurd ht (hclean e he)
  · obtain ⟨hstate, hunparsed⟩ := Harvester.healthErrors_nil hhealth hst
    obtain ⟨hlength, hne⟩ := Runner.buildCase_shape hcase
    refine ⟨h, by simpa [gatesOf] using hg, hhealth, hstop, hstate, hunparsed, hreduce, ?_⟩
    rintro rfl
    exact hne (List.eq_nil_of_length_eq_zero hlength.symm)

end Nse

namespace Nse

open Coroutine

attribute [local instance] PyStr.Unicode.ascii

/-- Pydantic, for values that already have the type of their field. -/
def plainPydantic : Runner.Pydantic where
  protocol
    | .str "tcp" => some .tcp
    | .str "udp" => some .udp
    | .str "icmp" => some .icmp
    | _ => none
  str
    | .str s => some s
    | _ => none
  optInt
    | .none => some none
    | .int n => some (some n)
    | _ => none
  strList
    | .list [] => some []
    | _ => none
  packetMessage _ := ""
  requestMessage _ := ""

/-- The suite entry of the sample request. -/
def sampleEntry : PyValue :=
  .dict [(.str "name", .str "web"), (.str "rules", .str "table ip filter"),
    (.str "packets", .list [.dict [(.str "src_ip", .str "10.0.0.1"), (.str "dst_port", .int 80)]])]

def quietEnv : Env where
  writes := writesOnly ([.canary .readiness 1, .test 0, .canary .liveness 1].map fun p => (p, lineOf p))

theorem quietEnv_shortIds : ShortIds quietEnv := by
  have hall : ∀ x ∈ ([.canary .readiness 1, .test 0, .canary .liveness 1] : List Packet).map fun p => (p, lineOf p),
      (heard quietEnv x).all (fun y => y.2.traceId.all (·.length ≤ 8)) = true := by decide +kernel
  intro s p line hw q e id hh hid
  have := hall (p, line) (by simpa [quietEnv, writesOnly] using hw)
  simpa [hh, hid] using this

theorem passed_every_gate_sample : ∃ ref s h,
    Steps (world quietEnv) (Pipeline.runTestPipeline {} sampleRequest none "a1b2c3d4e5f6", {}) (.ret ref, s) ∧
      gates s = .probed .readiness true ::
        (injections 0 sampleRequest.packets ++ [.probed .liveness true, .health h]) := by
  have hplay : Script.returned (fun ref s => (Runner.evaluateCase "web" ["ACCEPT"] (ref.read s)).passed)
      ((obliging quietEnv).play 200 (Pipeline.runTestPipeline {} sampleRequest none "a1b2c3d4e5f6") {}) = true := by
    decide +kernel
  obtain ⟨ref, s, hrun, hpass⟩ := Script.returned_steps (schedule_fits _ _ _) hplay
  have hcase : Runner.buildCase plainPydantic sampleEntry 0 = .ok ("web", sampleRequest, ["ACCEPT"]) := by
    rfl
  obtain ⟨h, hg, -⟩ := passed_every_gate hcase quietEnv_shortIds (by decide) hrun .refl hpass
  exact ⟨ref, s, h, hrun, hg⟩

end Nse
