/-
  Nse.Cli.Attribution — whose verdict is compared with which expectation.

  The runner knows packets only by the order in which their trace ids are first seen. If a
  case passes, the packets on which the user's ruleset reached a verdict, in that order,
  are as many as the expectations, and the lines of each one alone decide its expectation;
  where these are the test packets in the order of their injection, each test packet has
  met its own expectation (`passed_attributes`). A test packet whose lines are lost and a
  foreign packet that is traced cancel out (`an_intruder_takes_the_place_of_a_lost_packet`).
-/

import Mathlib.Data.List.Nodup
import Mathlib.Data.List.Perm.Subperm
import Nse.Cli.Gates
import Nse.Cli.Reduction
import Nse.Core.CanaryFilter

namespace Nse

open Coroutine
open Pipeline (ListRef)

variable [U : PyStr.Unicode] {env : Env}

/-! ## Packets and ids -/

/-- The kernel has one id for each packet. -/
def Separated (env : Env) (s : St) : Prop :=
  ∀ x ∈ consumed env s, ∀ y ∈ consumed env s, x.2.traceId = y.2.traceId ↔ x.1 = y.1

/-- The events that come from lines about `p`. -/
def ownEvents (env : Env) (s : St) (p : Packet) (events : List TraceEvent) : List TraceEvent :=
  events.filter fun e => (consumed env s).contains (p, e)

/-- The packet with this id. -/
def packetOf (env : Env) (s : St) (id : String) : Option Packet :=
  ((consumed env s).find? fun x => x.2.hasId id).map (·.1)

/-- The packets on which the user's ruleset reached a verdict, in the order in which their
    ids are first seen. -/
def decidedPackets (env : Env) (s : St) (events : List TraceEvent) : List Packet :=
  ((Runner.idsSeen events).filter fun id => (Runner.verdictFor events id).isSome).filterMap (packetOf env s)

/-- Test packets come in the order of their injection. -/
def InInjectionOrder (ps : List Packet) : Prop := ps.Pairwise fun p q => ∀ i j, p = .test i → q = .test j → i < j

section Ids

variable {s : St} {p : Packet} {e : TraceEvent} {id : String}

theorem packetOf_eq (hsep : Separated env s) (hmem : (p, e) ∈ consumed env s) (hid : e.hasId id = true) :
    packetOf env s id = some p := by
  unfold packetOf
  cases hf : (consumed env s).find? fun x => x.2.hasId id with
  | none => exact absurd hid (List.find?_eq_none.mp hf (p, e) hmem)
  | some x =>
    have hx : x.2.hasId id = true := List.find?_some (p := fun x : Packet × TraceEvent => x.2.hasId id) hf
    simp only [TraceEvent.hasId, Bool.and_eq_true, beq_iff_eq] at hid hx
    have hsame := (hsep x (List.mem_of_find?_eq_some hf) (p, e) hmem).mp (hx.2.trans hid.2.symm)
    simp [hsame]

theorem packetOf_inj (hsep : Separated env s) {id' : String} (h : packetOf env s id = some p)
    (h' : packetOf env s id' = some p) : id = id' := by
  obtain ⟨x, hx, rfl⟩ := Option.map_eq_some_iff.mp h
  obtain ⟨y, hy, hxy⟩ := Option.map_eq_some_iff.mp h'
  have hxid : x.2.hasId id = true := List.find?_some (p := fun x : Packet × TraceEvent => x.2.hasId id) hx
  have hyid : y.2.hasId id' = true := List.find?_some (p := fun x : Packet × TraceEvent => x.2.hasId id') hy
  simp only [TraceEvent.hasId, Bool.and_eq_true, beq_iff_eq] at hxid hyid
  have hsame := (hsep x (List.mem_of_find?_eq_some hx) y (List.mem_of_find?_eq_some hy)).mpr hxy.symm
  exact Option.some.inj (hxid.2.symm.trans (hsame.trans hyid.2))

end Ids

/-! ## Where the returned events come from -/

/-- What the pipeline makes up itself names no table. -/
def Tableless (s : St) : Prop := ∀ e ∈ s.collected, e.traced = false → e.table = none

theorem tableless_kept : Kept env (fun a => ∀ e, a = .collect e → e.traced = false ∧ e.table = none) fun s =>
    Heard env s ∧ Tableless s := by
  refine ⟨fun s s' hs hm => ⟨hs.1.move hm, ?_⟩, fun s a r ha hs hr => ⟨?_, fun e he ht => ?_⟩⟩
  · cases hm with
    | deliver e hl _ =>
      intro e' he' ht
      rcases List.mem_append.mp he' with he' | he'
      · exact hs.2 e' he' ht
      · obtain ⟨p, hp⟩ := hs.1.putting e hl
        rw [List.mem_singleton.mp he', (mem_consumed hp).1] at ht
        cases ht
    | _ => exact hs.2
  · refine heard_kept.answer s a r ?_ hs.1 hr
    cases a with
    | collect e => exact (ha e rfl).1
    | _ => trivial
  · rw [effect_collected] at he
    rcases List.mem_append.mp he with he | he
    · exact hs.2 e he ht
    · cases a <;> simp only [Req.collects, List.not_mem_nil, List.mem_singleton] at he
      subst he
      exact (ha _ rfl).2

omit U in
theorem reaches_table {e : TraceEvent} (h : Runner.reaches e = true) : e.table ≠ none := by
  intro hnone
  simp [Runner.reaches, hnone] at h

/-- Every returned event that reaches the user's ruleset is parsed from a line about some packet. -/
theorem returned_heard {cfg : Pipeline.Config} {req : TestRequest} {controller : Option NetnsController}
    {testId : String} {ref : ListRef} {s t : St}
    (hrun : Steps (world env) (Pipeline.runTestPipeline cfg req controller testId, {}) (.ret ref, s))
    (hafter : After (world env) s t) :
    ∀ e ∈ ref.read t, Runner.reaches e = true → ∃ p, (p, e) ∈ consumed env t := by
  have hinit : Heard env {} ∧ Tableless {} := ⟨heard_init, fun e he => by cases he⟩
  have hs : Heard env s ∧ Tableless s := by
    refine run_kept tableless_kept (fun a ha e hae => ?_) hinit hrun
    subst hae
    exact ⟨ha.1, ha.2.2⟩
  have ht : Heard env t ∧ Tableless t := tableless_kept.stable.after hafter hs
  have hcollected : ∀ e ∈ s.collected, e ∈ t.collected := by
    have hkept : Kept env (fun _ => True) fun u => ∀ e ∈ s.collected, e ∈ u.collected :=
      ⟨fun u u' hu hm e he => hm.collected.subset (hu e he), fun u a r _ hu _ e he => by simp [hu e he]⟩
    exact hkept.stable.after hafter fun _ he => he
  have hread : ∀ e ∈ ref.read t, e ∈ t.collected := by
    obtain ⟨-, hfiltered⟩ := wp_result run_windowed hrun
    cases ref with
    | collected => exact fun _ he => he
    | fresh events =>
      have hfiltered : events = s.collected.filter fun e => !s.canaryIds.any e.hasId := hfiltered
      intro e he
      rw [show ListRef.read t (.fresh events) = events from rfl, hfiltered] at he
      exact hcollected e (List.mem_filter.mp he).1
  intro e he hreach
  refine ht.1.collected e (hread e he) ?_
  by_cases htraced : e.traced = true
  · exact htraced
  · exact absurd (ht.2 e (hread e he) (Bool.eq_false_iff.mpr htraced)) (reaches_table hreach)

/-! ## Verdicts of packets -/

section Own

variable {s : St} {events : List TraceEvent} {p : Packet} {e : TraceEvent} {id : String}

/-- The lines of a packet alone decide what its id decides. -/
theorem reduceVerdicts_own (hsep : Separated env s)
    (hheard : ∀ e ∈ events, Runner.reaches e = true → ∃ p, (p, e) ∈ consumed env s) (hmem : (p, e) ∈ consumed env s)
    (hid : Runner.carries id e = true) :
    Runner.reduceVerdicts (ownEvents env s p events) = (Runner.verdictFor events id).toList := by
  have htrace : e.traceId = some id := (Runner.carries_iff.mp hid).2.2
  refine Runner.reduceVerdicts_filter (fun e' _ hown id' hid' => ?_) fun e' he' hid' hreach => ?_
  · have hsame := (hsep (p, e') (List.contains_iff_mem.mp hown) (p, e) hmem).mpr rfl
    have := (Runner.carries_iff.mp hid').2.2
    exact Option.some.inj (this.symm.trans (hsame.trans htrace))
  · obtain ⟨q, hq⟩ := hheard e' he' hreach
    have hsame : q = p :=
      (hsep (q, e') hq (p, e) hmem).mp ((Runner.carries_iff.mp hid').2.2.trans htrace.symm)
    exact List.contains_iff_mem.mpr (hsame ▸ hq)

/-- An id with a verdict belongs to a packet whose own lines decide it. -/
theorem packetOf_decided (hsep : Separated env s)
    (hheard : ∀ e ∈ events, Runner.reaches e = true → ∃ p, (p, e) ∈ consumed env s) {v : String}
    (hv : Runner.verdictFor events id = some v) :
    ∃ p, packetOf env s id = some p ∧ Runner.reduceVerdicts (ownEvents env s p events) = [v] := by
  have hreached : Runner.reached events id = true := by
    by_cases hr : Runner.reached events id = true
    · exact hr
    · rw [Runner.verdictFor, if_neg hr] at hv
      cases hv
  obtain ⟨e, he, hc, hreach⟩ := Runner.reached_iff.mp hreached
  obtain ⟨p, hp⟩ := hheard e he hreach
  have hid : e.hasId id = true := (Bool.and_eq_true_iff.mp hc).2
  refine ⟨p, packetOf_eq hsep hp hid, ?_⟩
  rw [reduceVerdicts_own hsep hheard hp hc, hv]
  rfl

theorem decidedPackets_nodup (hsep : Separated env s) : (decidedPackets env s events).Nodup := by
  refine List.Nodup.filterMap (fun id id' p h h' => ?_) (List.Nodup.filter _ (Runner.idsSeen_nodup events))
  exact packetOf_inj hsep h h'

/-- Each packet with a verdict, and the verdict. -/
theorem decidedPackets_verdicts (hsep : Separated env s)
    (hheard : ∀ e ∈ events, Runner.reaches e = true → ∃ p, (p, e) ∈ consumed env s) :
    (decidedPackets env s events).map (fun p => Runner.reduceVerdicts (ownEvents env s p events)) =
      (Runner.reduceVerdicts events).map fun v => [v] := by
  rw [Runner.reduceVerdicts_eq, decidedPackets]
  induction Runner.idsSeen events with
  | nil => rfl
  | cons id ids ih =>
    cases hv : Runner.verdictFor events id with
    | none =>
      rw [List.filter_cons_of_neg (by simp [hv]), List.filterMap_cons_none hv]
      exact ih
    | some v =>
      obtain ⟨p, hp, hown⟩ := packetOf_decided hsep hheard hv
      rw [List.filter_cons_of_pos (by simp [hv]), List.filterMap_cons_some hp,
        List.filterMap_cons_some hv, List.map_cons,
        List.map_cons, ih, hown]

/-- Every packet whose own lines decide something is among them. -/
theorem mem_decidedPackets (hsep : Separated env s)
    (hheard : ∀ e ∈ events, Runner.reaches e = true → ∃ p, (p, e) ∈ consumed env s)
    (h : Runner.reduceVerdicts (ownEvents env s p events) ≠ []) : p ∈ decidedPackets env s events := by
  obtain ⟨id, hid⟩ : ∃ id, id ∈ Runner.idsSeen (ownEvents env s p events) := by
    refine List.exists_mem_of_ne_nil _ fun hnil => h ?_
    rw [Runner.reduceVerdicts_eq, hnil]
    rfl
  obtain ⟨e, he, hc⟩ := Runner.mem_idsSeen.mp hid
  obtain ⟨he, hown⟩ := List.mem_filter.mp he
  have hmem : (p, e) ∈ consumed env s := List.contains_iff_mem.mp hown
  have hsome : (Runner.verdictFor events id).isSome = true := by
    rw [reduceVerdicts_own hsep hheard hmem hc] at h
    cases hv : Runner.verdictFor events id with
    | none => exact absurd (by rw [hv]; rfl) h
    | some v => rfl
  refine List.mem_filterMap.mpr ⟨id, List.mem_filter.mpr ⟨Runner.mem_idsSeen.mpr ⟨e, he, hc⟩, hsome⟩, ?_⟩
  exact packetOf_eq hsep hmem (Bool.and_eq_true_iff.mp hc).2

end Own

omit U in
/-- As many test packets as there are, in order, are all of them. -/
theorem tests_in_order {ps : List Packet} {n : Nat} (hnodup : ps.Nodup) (hlen : ps.length = n)
    (htests : ∀ p ∈ ps, ∃ i, p = .test i ∧ i < n) (hord : InInjectionOrder ps) : ps = (List.range n).map .test := by
  have hsub : ps ⊆ (List.range n).map .test := by
    intro p hp
    obtain ⟨i, rfl, hi⟩ := htests p hp
    exact List.mem_map.mpr ⟨i, List.mem_range.mpr hi, rfl⟩
  have hperm : ps.Perm ((List.range n).map .test) :=
    (hnodup.subperm hsub).perm_of_length_le (by simp [hlen])
  have hall : InInjectionOrder ((List.range n).map .test) := by
    refine List.pairwise_map.mpr (List.pairwise_lt_range.imp fun hij a b ha hb => ?_)
    cases ha
    cases hb
    exact hij
  refine List.Perm.eq_of_pairwise (fun p q hp hq hpq hqp => ?_) hord hall hperm
  obtain ⟨i, rfl, -⟩ := htests p hp
  obtain ⟨j, -, rfl⟩ := List.mem_map.mp hq
  have := hpq i j rfl rfl
  have := hqp j i rfl rfl
  omega

/-- If a case passes, the packets with a verdict of the user's ruleset, in the order in
    which their ids are first seen, have met the expectations one by one, each with its own
    lines; and if they are test packets in the order of injection, each test packet has met
    its own. -/
theorem passed_attributes {P : Runner.Pydantic} {raw : PyValue} {index : Nat} {name : String} {req : TestRequest}
    {expected : List String} (hcase : Runner.buildCase P raw index = .ok (name, req, expected)) {cfg : Pipeline.Config}
    {controller : Option NetnsController} {testId : String} {ref : ListRef} {s t : St}
    (hrun : Steps (world env) (Pipeline.runTestPipeline cfg req controller testId, {}) (.ret ref, s))
    (hafter : After (world env) s t) (hsep : Separated env t)
    (hpass : (Runner.evaluateCase name expected (ref.read t)).passed = true) :
    let own := fun p => Runner.reduceVerdicts (ownEvents env t p (ref.read t))
    let ps := decidedPackets env t (ref.read t)
    ps.Nodup ∧ ps.map own = expected.map (fun v => [v]) ∧ (∀ p, own p ≠ [] → p ∈ ps) ∧
      ((∀ p ∈ ps, ∃ i, p = .test i ∧ i < req.packets.length) → InInjectionOrder ps →
        (List.range req.packets.length).map (fun i => own (.test i)) = expected.map fun v => [v]) := by
  intro own ps
  have hheard := returned_heard hrun hafter
  obtain ⟨-, hreduce⟩ := Runner.evaluateCase_passed.mp hpass
  have hnodup : ps.Nodup := decidedPackets_nodup hsep
  have hverdicts : ps.map own = expected.map fun v => [v] := by
    rw [← hreduce]
    exact decidedPackets_verdicts hsep hheard
  refine ⟨hnodup, hverdicts, fun p hp => mem_decidedPackets hsep hheard hp, fun htests hord => ?_⟩
  have hlen : ps.length = req.packets.length := by
    have := congrArg List.length hverdicts
    rw [List.length_map, List.length_map] at this
    exact this.trans (Runner.buildCase_shape hcase).1
  rw [← hverdicts, tests_in_order hnodup hlen htests hord, List.map_map]
  rfl

end Nse

namespace Nse

open Coroutine
open Pipeline (ListRef)

attribute [local instance] PyStr.Unicode.ascii

instance (env : Env) (s : St) : Decidable (Separated env s) :=
  inferInstanceAs (Decidable (∀ x ∈ consumed env s, ∀ y ∈ consumed env s, x.2.traceId = y.2.traceId ↔ x.1 = y.1))

theorem passed_attributes_sample : ∃ ref s,
    Steps (world {}) (Pipeline.runTestPipeline {} sampleRequest none "a1b2c3d4e5f6", {}) (.ret ref, s) ∧
      Runner.reduceVerdicts (ownEvents {} s (.test 0) (ref.read s)) = ["ACCEPT"] := by
  have hplay : Script.returned
      (fun ref s => decide (Separated {} s) && (Runner.evaluateCase "web" ["ACCEPT"] (ref.read s)).passed &&
        decide (decidedPackets {} s (ref.read s) = [.test 0]))
      ((obliging {}).play 200 (Pipeline.runTestPipeline {} sampleRequest none "a1b2c3d4e5f6") {}) = true := by
    decide +kernel
  obtain ⟨ref, s, hrun, hp⟩ := Script.returned_steps (schedule_fits _ _ _) hplay
  simp only [Bool.and_eq_true, decide_eq_true_eq] at hp
  obtain ⟨⟨hsep, hpass⟩, hdecided⟩ := hp
  have hcase : Runner.buildCase plainPydantic sampleEntry 0 = .ok ("web", sampleRequest, ["ACCEPT"]) := by
    rfl
  obtain ⟨-, -, -, htests⟩ := passed_attributes hcase hrun .refl hsep hpass
  have hown := htests (by simp [hdecided, sampleRequest]) (by simp [hdecided, InInjectionOrder])
  exact ⟨ref, s, hrun, by simpa [sampleRequest] using hown⟩

/-- The test packet is not traced, and a foreign one is. -/
def intruder (s : St) : Req → List Ev
  | .sleep 150 => [.write (.foreign 0) (lineOf (.foreign 0)), .line]
  | .sleep _ => []
  | a => obligingEvents s a

/-- The case passes without a line about its only packet. -/
theorem an_intruder_takes_the_place_of_a_lost_packet : ∃ ref s,
    Steps (world {}) (Pipeline.runTestPipeline {} sampleRequest none "a1b2c3d4e5f6", {}) (.ret ref, s) ∧
      Separated {} s ∧ (Runner.evaluateCase "web" ["ACCEPT"] (ref.read s)).passed = true ∧
        Runner.reduceVerdicts (ownEvents {} s (.test 0) (ref.read s)) = [] := by
  have hplay : Script.returned
      (fun ref s => decide (Separated {} s) && (Runner.evaluateCase "web" ["ACCEPT"] (ref.read s)).passed &&
        decide (Runner.reduceVerdicts (ownEvents {} s (.test 0) (ref.read s)) = []))
      ((schedule {} obligingReply intruder).play 200
        (Pipeline.runTestPipeline {} sampleRequest none "a1b2c3d4e5f6") {}) = true := by
    decide +kernel
  obtain ⟨ref, s, hrun, hp⟩ := Script.returned_steps (schedule_fits _ _ _) hplay
  simp only [Bool.and_eq_true, decide_eq_true_eq] at hp
  exact ⟨ref, s, hrun, hp.1.1, hp.1.2, hp.2⟩

end Nse
