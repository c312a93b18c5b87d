/-
  Nse.Core.Probe — what a probe that succeeds has seen.

  The signal a probe waits for is one flag, raised by every event the read loop delivers,
  whatever packet it is about. Arming clears it, so at the end of a wait it says that some
  event was delivered since (`signalled_stable`); that is an event of the probe's own
  canary if no other packet's event is delivered before (`probe_sound`). Background
  traffic alone makes both probes of a run succeed
  (`background_traffic_answers_both_probes`).
-/

import Nse.Core.Heard
import Nse.Core.Rehearsal

namespace Nse

open Coroutine

variable [U : PyStr.Unicode] {env : Env}

/-! ## The signal -/

/-- The event hands an event of the kernel to the queue, which raises the signal. -/
def delivers (env : Env) (s : St) : Ev → Bool
  | .line => !s.full env && s.loop == .reading && (s.out[s.nread]?.bind (heard env)).isSome
  | .resume => !s.full env && match s.loop with | .putting _ => true | _ => false
  | _ => false

/-- The line it comes from: the next one, or the last one read. -/
def source (s : St) : Ev → Option (Packet × String)
  | .line => s.out[s.nread]?
  | .resume => (s.out.take s.nread).getLast?
  | _ => none

section Loop

variable (s : St)

omit U in
@[simp] theorem finish_signal (st : HarvestState) : (Loop.finish env st s).h.eventSignal = s.h.eventSignal := by
  unfold Loop.finish Loop.close
  dsimp only
  split <;> simp

omit U in
@[simp] theorem top_signal : (Loop.top env s).h.eventSignal = s.h.eventSignal := by
  unfold Loop.top
  split
  · exact finish_signal s _
  · rfl

/-- A line that raises the signal is parsed, with room on the queue. -/
theorem consume_signal {p : Packet} {raw : String} (hs : s.h.eventSignal = false)
    (h : (Loop.consume env raw s).h.eventSignal = true) : s.full env = false ∧ (heard env (p, raw)).isSome = true := by
  unfold Loop.consume at h
  dsimp only at h
  split at h
  · rw [top_signal] at h
    rw [hs] at h
    cases h
  · rename_i hne
    split at h
    · rw [top_signal, Harvester.recordUnparsed_signal, hs] at h
      cases h
    · rename_i e hp
      unfold Loop.putEvent at h
      split at h
      · rw [Harvester.recordId_signal, hs] at h
        cases h
      · rename_i hfull
        refine ⟨by simpa [St.full] using hfull, ?_⟩
        simp [heard, hne, TraceParser.eventOf_of_ok hp]
    · rw [finish_signal] at h
      rw [hs] at h
      cases h

end Loop

/-- The signal is raised only by an event that is delivered. -/
theorem delivers_of_signal {s s' : St} {e : Ev} (he : event env s e = some s') (hs : s.h.eventSignal = false)
    (hs' : s'.h.eventSignal = true) : delivers env s e = true := by
  have hsame : s'.h.eventSignal = s.h.eventSignal → delivers env s e = true := by
    intro h
    rw [h, hs] at hs'
    cases hs'
  cases e with
  | tick ms => cases he; exact hsame rfl
  | write p line =>
    simp only [event] at he
    split at he
    · cases he; exact hsame rfl
    · cases he
  | exit =>
    simp only [event] at he
    split at he
    · cases he; exact hsame rfl
    · cases he
  | take =>
    simp only [event] at he
    split at he
    · cases he; exact hsame rfl
    · cases he
  | begin =>
    simp only [event] at he
    split at he
    · cases he; exact hsame (top_signal _)
    · cases he
  | poll =>
    simp only [event] at he
    split at he
    · cases he; exact hsame (top_signal _)
    · cases he
  | eof =>
    simp only [event] at he
    split at he
    · cases he; exact hsame (finish_signal _ _)
    · cases he
  | readError e =>
    simp only [event] at he
    split at he
    · cases he; exact hsame (finish_signal _ _)
    · cases he
  | line =>
    simp only [event] at he
    split at he
    · rename_i p raw hl hraw
      cases he
      obtain ⟨hfull, hsome⟩ := consume_signal (p := p) s hs hs'
      simp [delivers, hfull, hl, hraw, hsome]
    · cases he
  | resume =>
    simp only [event] at he
    split at he
    · cases he
    · rename_i hfull
      split at he
      · rename_i hl
        simp [delivers, hfull, hl]
      · cases he; exact hsame rfl
      · cases he

/-! ## Evidence -/

/-- A canary that was injected by the call that began in `s₀`. -/
def OwnCanary (s₀ : St) (label : Label) (s : St) (p : Packet) : Prop :=
  ∃ attempt spec, p = .canary label attempt ∧ .injecting p spec ∈ s.marks.drop s₀.marks.length

/-- A line about one of them has been read and parsed. -/
def Evidence (env : Env) (s₀ : St) (label : Label) (s : St) : Prop :=
  ∃ x ∈ s.out.take s.nread, OwnCanary s₀ label s x.1 ∧ (heard env x).isSome = true

/-- If the event raises the signal, it comes from a line about one of the call's own
    canaries, or such a line has been parsed before. -/
def OwnFirst (env : Env) (s₀ : St) (label : Label) (s : St) (e : Ev) : Prop :=
  delivers env s e = true →
    (∃ x, source s e = some x ∧ OwnCanary s₀ label s x.1 ∧ (heard env x).isSome = true) ∨ Evidence env s₀ label s

/-- The world in which no other packet's event comes first. -/
abbrev ownFirst (env : Env) (s₀ : St) (label : Label) : World Req Reply PyExc St Ev :=
  (world env).restrict (fun _ _ _ => True) (OwnFirst env s₀ label)

variable {s₀ : St} {label : Label}

theorem Evidence.mono {s s' : St} (h : Evidence env s₀ label s) (hread : s.out.take s.nread <+: s'.out.take s'.nread)
    (hmarks : s.marks <+: s'.marks) : Evidence env s₀ label s' := by
  obtain ⟨x, hx, ⟨attempt, spec, hp, hm⟩, hh⟩ := h
  obtain ⟨more, hmore⟩ := hmarks
  refine ⟨x, hread.subset hx, ⟨attempt, spec, hp, ?_⟩, hh⟩
  rw [← hmore, List.drop_append]
  exact List.mem_append_left _ hm

/-- What has been read stays read. -/
theorem Move.read {s s' : St} (h : Move env s s') : s.out.take s.nread <+: s'.out.take s'.nread := by
  have hnext : s.out.take s.nread <+: s.out.take (s.nread + 1) := List.take_prefix_take_left (Nat.le_succ _)
  cases h with
  | write p line _ _ _ => exact (List.take_append ▸ List.prefix_append _ _)
  | blank p _ => exact hnext
  | unparsed p line _ _ _ => exact hnext
  | parsed p line e _ _ _ => exact hnext
  | _ => exact List.prefix_rfl

theorem moves_marks {s s' : St} (h : Moves env s s') : s'.marks = s.marks :=
  moves_keep (P := fun t => t.marks = s.marks) (fun _ _ ht hm => hm.marks.trans ht) h rfl

theorem evidence_kept : Kept env (fun _ => True) (Evidence env s₀ label) := by
  refine ⟨fun s s' h hm => h.mono hm.read (hm.marks ▸ List.prefix_rfl), fun s a r _ h _ => ?_⟩
  exact h.mono (by simp) (by simp)

/-- A raised signal is evidence. -/
def Signalled (env : Env) (s₀ : St) (label : Label) (s : St) : Prop :=
  s.h.eventSignal = true → Evidence env s₀ label s

theorem signalled_stable : Stable (ownFirst env s₀ label) (Signalled env s₀ label) := by
  intro s e s' hs he hsig
  obtain ⟨he, hown⟩ : event env s e = some s' ∧ OwnFirst env s₀ label s e := he
  have hmono : Evidence env s₀ label s → Evidence env s₀ label s' := fun h => evidence_kept.stable s e s' h he
  by_cases hbefore : s.h.eventSignal = true
  · exact hmono (hs hbefore)
  · rw [Bool.not_eq_true] at hbefore
    rcases hown (delivers_of_signal he hbefore hsig) with ⟨x, hsrc, ⟨attempt, spec, hp, hm⟩, hh⟩ | h
    · cases e with
      | line =>
        simp only [event] at he
        split at he
        · rename_i p raw hl hraw
          cases he
          simp only [source, hraw, Option.some.injEq] at hsrc
          obtain ⟨hout, hnread⟩ : (Loop.consume env raw s).out = s.out ∧
            (Loop.consume env raw s).nread = s.nread + 1 := by
            rcases consume_cases raw s with hread | ⟨exc, text, -, hends⟩
            · exact hread
            · rw [hends, finish_signal, hbefore] at hsig
              cases hsig
          have hmarks : (Loop.consume env raw s).marks = s.marks := moves_marks (consume_moves hl hraw)
          refine ⟨x, ?_, ⟨attempt, spec, hp, hmarks ▸ hm⟩, hh⟩
          rw [hout, hnread, List.take_add_one, hraw, hsrc]
          simp
        · cases he
      | resume => exact hmono ⟨x, List.mem_of_getLast? hsrc, ⟨attempt, spec, hp, hm⟩, hh⟩
      | _ => cases hsrc
    · exact hmono h

omit U in
theorem effect_signal {which : Packet → Prop} {a : Req} (ha : a.sending which) (s : St) (r : Except PyExc (Reply a))
    (h : (effect env s a r).h.eventSignal = true) : s.h.eventSignal = true := by
  cases a with
  | run c =>
    cases r with
    | ok _ => exact h
    | error e =>
      simp only [effect] at h
      split at h <;> exact h
  | armEventSignal => cases r <;> cases h
  | _ => first | exact False.elim ha | (cases r <;> exact h)

/-! ## The probe -/

section Probe

variable {cfg : Pipeline.Config} {t : Pipeline.Target} {spec : PacketSpec} {s : St}

abbrev Probes {α : Type} (env : Env) (s₀ : St) (label : Label) (V : α → St → Prop) (c : Prog α) (s : St) : Prop :=
  wp (ownFirst env s₀ label) (fun _ _ => True) (Post V fun _ _ => True) c s

theorem signalled_only {α : Type} {which : Packet → Prop} {c : Prog α} (hc : Only (Req.sending which) c)
    (hs : Signalled env s₀ label s) : Probes env s₀ label (fun _ => Signalled env s₀ label) c s := by
  refine wp_mono (fun r u hu => ?_) c s (wp_of_only signalled_stable (fun _ _ _ _ => trivial)
    (fun u a r u' ha hu hr hsig => ?_) c s hc hs)
  · cases r with
    | ok v => exact hu
    | error e => trivial
  · obtain ⟨⟨hal, rfl⟩, -⟩ := hr
    exact evidence_kept.answer u a r trivial (hu (effect_signal ha u r hsig)) hal

theorem probes_attempt (attempt : Nat) :
    Probes env s₀ label (fun seen u => seen = true → Evidence env s₀ label u)
      (Pipeline.probeAttempt cfg t label spec attempt) s := by
  have hany : Stable (ownFirst env s₀ label) fun _ => True := fun _ _ _ _ _ => trivial
  have harm : Probes env s₀ label (fun _ => Signalled env s₀ label) (perform .armEventSignal) s := by
    refine wp_request hany trivial (fun _ _ => trivial) fun u r u' _ hr => ?_
    obtain ⟨⟨-, rfl⟩, -⟩ := hr
    cases r with
    | ok v => exact fun h => by cases h
    | error e => trivial
  have hwait : ∀ {u : St}, Signalled env s₀ label u →
      Probes env s₀ label (fun seen u => seen = true → Evidence env s₀ label u)
        (perform (.waitForEvent cfg.canaryInterval)) u := by
    intro u hu
    refine wp_request (a := .waitForEvent cfg.canaryInterval) signalled_stable hu (fun _ _ => trivial)
      fun v r v' hv hr => ?_
    obtain ⟨⟨hal, rfl⟩, -⟩ := hr
    cases r with
    | ok seen =>
      rintro rfl
      have hsig : v.h.eventSignal = true := hal
      exact hv hsig
    | error e => trivial
  have hdeadline : Only (Req.sending (CanaryOf label)) (perform (.extendDeadline cfg.idleTimeout)) :=
    only_request (by trivial)
  refine wp_seq harm (fun _ u hu => ?_) fun _ _ _ => trivial
  refine wp_seq (signalled_only hdeadline hu) (fun _ v hv => ?_) fun _ _ _ => trivial
  refine wp_seq (signalled_only (only_injectCanary cfg t spec label attempt) hv) (fun injected w hw => ?_)
    fun _ _ _ => trivial
  cases injected with
  | true => exact hwait hw
  | false => exact fun h => by cases h

theorem probes_from : ∀ (left attempt : Nat) {s : St},
    Probes env s₀ label (fun seen u => seen = true → Evidence env s₀ label u)
      (Pipeline.probeFrom cfg t label spec attempt left) s
  | 0, _, _ => fun h => by cases h
  | left + 1, attempt, s => by
    refine wp_seq (probes_attempt attempt) (fun seen u hu => ?_) fun _ _ _ => trivial
    cases seen with
    | true => exact hu
    | false => exact probes_from left (attempt + 1)

/-- A probe that succeeds has seen one of its own canaries, if no other packet's event was
    delivered during the call before one of theirs. -/
theorem probe_sound {s₁ : St}
    (hrun : Steps (ownFirst env s₀ label) (Pipeline.probeOracle cfg t label spec, s₀) (.ret true, s₁)) :
    Evidence env s₀ label s₁ := by
  have hmark : ∀ {seen : Bool} {u : St}, (seen = true → Evidence env s₀ label u) →
      Probes env s₀ label (fun _ u => seen = true → Evidence env s₀ label u)
        (perform (.mark (.probed label seen))) u := by
    intro seen u hu
    have hstable : Stable (ownFirst env s₀ label) fun u => seen = true → Evidence env s₀ label u :=
      fun u e u' hu he hseen => evidence_kept.stable u e u' (hu hseen) he.1
    refine wp_request hstable hu (fun _ _ => trivial) fun v r v' hv hr => ?_
    obtain ⟨⟨hal, rfl⟩, -⟩ := hr
    cases r with
    | ok _ => exact fun hseen => evidence_kept.answer v _ _ trivial (hv hseen) hal
    | error e => trivial
  have hprobe : Probes env s₀ label (fun seen u => seen = true → Evidence env s₀ label u)
      (Pipeline.probeOracle cfg t label spec) s₀ := by
    refine wp_seq (probes_from cfg.canaryAttempts 1) (fun seen u hu => ?_) fun _ _ _ => trivial
    exact wp_seq (hmark hu) (fun _ _ h => h) fun _ _ _ => trivial
  exact wp_result hprobe hrun rfl

end Probe

end Nse

namespace Nse

open Coroutine

attribute [local instance] PyStr.Unicode.ascii

/-- A delivered event comes from a line about a canary the readiness probe injected. -/
def ownOnly (s : St) (e : Ev) : Bool :=
  !delivers {} s e || (source s e).any fun x => (heard {} x).isSome && match x.1 with
    | .canary .readiness k =>
      s.marks.any fun m => match m with | .injecting p _ => p == .canary .readiness k | _ => false
    | _ => false

theorem ownOnly_ownFirst {s₀ s : St} {e : Ev} (h₀ : s₀.marks = []) (h : ownOnly s e = true) :
    OwnFirst {} s₀ .readiness s e := by
  intro hd
  simp only [ownOnly, hd, Bool.not_true, Bool.false_or, Option.any_eq_true, Bool.and_eq_true] at h
  obtain ⟨⟨p, raw⟩, hsrc, hh, hp⟩ := h
  cases p with
  | canary label k =>
    cases label with
    | readiness =>
      obtain ⟨m, hm, hinj⟩ := List.any_eq_true.mp hp
      cases m with
      | injecting q spec =>
        cases eq_of_beq hinj
        exact .inl ⟨_, hsrc, ⟨k, spec, rfl, by simpa [h₀] using hm⟩, hh⟩
      | _ => cases hinj
    | liveness => cases hp
  | _ => cases hp

/-- A monitor that has just started. -/
def started : St := { loop := .reading, h := { state := .running, deadline := 10000 } }

theorem probe_sound_sample : ∃ s,
    Steps (ownFirst {} started .readiness)
      (Pipeline.probeOracle {} (Pipeline.target sampleRequest "a1b2c3d4e5f6" ⟨true⟩) .readiness
        (Pipeline.canarySpec samplePacket), started) (.ret true, s) ∧ Evidence {} started .readiness s := by
  have hplay : Script.returned (fun seen _ => seen)
      (((obliging {}).guarded (fun _ _ _ => true) ownOnly).play 30
        (Pipeline.probeOracle {} (Pipeline.target sampleRequest "a1b2c3d4e5f6" ⟨true⟩) .readiness
          (Pipeline.canarySpec samplePacket)) started) = true := by
    decide +kernel
  have hfits : ((obliging {}).guarded (fun _ _ _ => true) ownOnly).Fits (ownFirst {} started .readiness) :=
    (schedule_fits {} obligingReply obligingEvents).guarded (fun _ _ _ _ => trivial) fun _ _ => ownOnly_ownFirst rfl
  obtain ⟨seen, s, hrun, rfl⟩ := Script.returned_steps hfits hplay
  exact ⟨s, hrun, probe_sound hrun⟩

/-- Only background traffic is traced, one line in each wait. -/
def backgroundOnly (_ : St) : Req → List Ev
  | .waitReady _ => [.begin]
  | .waitForEvent _ => [.write (.foreign 0) (lineOf (.foreign 0)), .line]
  | .awaitTask _ => [.exit, .eof]
  | _ => []

/-- Both probes of a run succeed, and no line about any canary was ever written. -/
theorem background_traffic_answers_both_probes : ∃ ref s,
    Steps (world {}) (Pipeline.runTestPipeline {} sampleRequest none "a1b2c3d4e5f6", {}) (.ret ref, s) ∧
      Mark.probed .readiness true ∈ s.marks ∧ Mark.probed .liveness true ∈ s.marks ∧
        ∀ x ∈ s.out, x.1.isCanary = false := by
  have hplay : Script.returned
      (fun _ s => s.marks.contains (.probed .readiness true) && s.marks.contains (.probed .liveness true) &&
        s.out.all fun x => !x.1.isCanary)
      ((schedule {} obligingReply backgroundOnly).play 200
        (Pipeline.runTestPipeline {} sampleRequest none "a1b2c3d4e5f6") {}) = true := by
    decide +kernel
  obtain ⟨ref, s, hrun, hp⟩ := Script.returned_steps (schedule_fits _ _ _) hplay
  simp only [Bool.and_eq_true, List.contains_iff_mem, List.all_eq_true, Bool.not_eq_true'] at hp
  exact ⟨ref, s, hrun, hp.1.1, hp.1.2, hp.2⟩

end Nse
