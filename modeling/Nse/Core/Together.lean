/-
  Nse.Core.Together — two runs at once, on a host that others use too.

  Actors. Each run has its own monitor, read loop and clock (`Nse.Core.World`); the host is one.
  A command takes effect while the other run waits or has ended. Outsiders use the host as in
  `Nse.Core.Hosted`. To each run the other is one of the others: what it does is a deed that
  keeps to its own part (`step_follows`), so what holds of a run among others holds of both.

  Proved, for runs that are given their controllers, where the first eight characters of the
  ids differ:
  - `together_measured`: as long as neither leaves a worker thread behind, the outsiders' part of
    the host is theirs alone at every moment, and whatever a run measures it measures in the
    topology of its own request.
  - `together_restored`: once both have ended, uncancelled, the host is what the outsiders'
    commands would have made of it without the two.
-/

import Nse.Core.Prepared

namespace Nse

open Coroutine
open NetHost (Act End Host Side)
open NetnsController (Connected)
open Relation (ReflTransGen)

/-! ## Two runs -/

structure Together where
  prog : Caller → Prog Pipeline.ListRef
  st : Caller → St
  host : Host (Option Caller)
  /-- What everybody but this caller did. -/
  deeds : Caller → List Deed
  /-- What neither did. -/
  outside : List Deed

def Together.stage (s : Together) (r : Caller) : Stage := { st := s.st r, host := s.host, deeds := s.deeds r }

def outsiders : Side (Option Caller) := { owners := (· == none), unowned := true }

/-- What a request of `r` did on the host, as the other run sees it. -/
inductive Did (r : Caller) (h : Host (Option Caller)) : Req → Host (Option Caller) → List Deed → Prop
  | nothing {a : Req} : Did r h a h []
  | deed {c : Cmd} {h' : Host (Option Caller)} : (commandOf c.argv).2 ≠ .other →
      h.perform (some r) (commandOf c.argv).1 (commandOf c.argv).2 = some h' →
        Did r h (.run c) h' [⟨some r, (commandOf c.argv).1, (commandOf c.argv).2⟩]

section Defs

variable [U : PyStr.Unicode] (env : Caller → Env) (calls : Caller → RunCall)
    (ok : Caller → Stage → (a : Req) → Except PyExc (Reply a) → Prop)

abbrev among (r : Caller) : World Req Reply PyExc Stage Happening :=
  (hosted (env r) (calls r) r).restrict (ok r) fun _ _ => True

/-- The run is parked, or has ended. -/
def Together.Waits (s : Together) (r : Caller) : Prop := ∀ a k, s.prog r = .ask a k → parked (env r) (s.st r) a = true

inductive TogetherStep : Together → Together → Prop
  | answer {s : Together} {r : Caller} {a : Req} {k : Except PyExc (Reply a) → Prog Pipeline.ListRef}
    {reply : Except PyExc (Reply a)}
      {t : Stage} {ds : List Deed} : s.prog r = .ask a k → (among env calls ok r).answer (s.stage r) a reply t →
        Did r s.host a t.host ds →
        (ds ≠ [] → s.Waits env r.other) →
          TogetherStep s
            { prog := fun q => if q = r then k reply else s.prog q
              st := fun q => if q = r then t.st else s.st q
              host := t.host
              deeds := fun q => if q = r then s.deeds q else s.deeds q ++ ds
              outside := s.outside }
  | event {s : Together} {r : Caller} {e : Ev} {u : St} : s.Waits env r → event (env r) (s.st r) e = some u →
      TogetherStep s { s with st := fun q => if q = r then u else s.st q }
  | deed {s : Together} {d : Deed} {h' : Host (Option Caller)} : (∀ r, s.Waits env r) → d.who = none →
      s.host.Within outsiders d.stack d.act → (∀ r, ∀ n ∈ d.act.newSpaces, ¬(calls r).ofRun n) →
        (d.stack = none → ∀ r, (calls r).vethHost ∉ d.act.newLinks) → s.host.perform d.who d.stack d.act = some h' →
          TogetherStep s { s with host := h', deeds := fun q => s.deeds q ++ [d], outside := s.outside ++ [d] }

abbrev TogetherSteps : Together → Together → Prop := ReflTransGen (TogetherStep env calls ok)

def Together.start (h₀ : Host (Option Caller)) : Together where
  prog r := (calls r).prog
  st _ := {}
  host := h₀
  deeds _ := []
  outside := []

end Defs

/-! ## To each the other is one of the others -/

section Sides

variable {r : Caller}

theorem ours_le_theirs : (ours r).Le (theirs r.other) where
  owners o ho := owners_theirs.mpr fun heq => r.ne_other (Option.some.inj ((owners_ours.mp ho).symm.trans heq))
  unowned hu := by cases hu

theorem ours_le_inside : (ours r).Le outsiders.other where
  owners o ho := by
    rw [owners_ours.mp ho]
    rfl
  unowned hu := by cases hu

theorem outsiders_le_theirs : outsiders.Le (theirs r) where
  owners o ho := by
    rw [beq_iff_eq.mp ho]
    rfl
  unowned _ := rfl

end Sides

section Follow

variable [U : PyStr.Unicode] {env : Caller → Env} {calls : Caller → RunCall}
    {ok : Caller → Stage → (a : Req) → Except PyExc (Reply a) → Prop}
  {h₀ : Host (Option Caller)} {s s' : Together} {r : Caller}

/-- The run goes by its own rules, and keeps its part of the host. -/
def InPart (calls : Caller → RunCall) (h₀ : Host (Option Caller)) (s : Together) (r : Caller) : Prop :=
  ∃ linked, OrderedTidy (calls r) linked (s.prog r) ∧ Keeping (calls r) r h₀ linked (s.stage r)

omit U in
theorem newLinks_mayRun {x : RunCall} {linked : Bool} {stack : Option String} {act : Act}
    (hmay : MayRun x linked stack act) (hstack : stack = none) :
    ∀ l ∈ act.newLinks, l = x.vethHost ∨ l = x.vethPeer := by
  subst hstack
  cases hmay with
  | linkAdd => simp [Act.newLinks]
  | _ => simp [Act.newLinks]

omit U in
theorem newSpaces_mayRun {x : RunCall} {linked : Bool} {stack : Option String} {act : Act}
    (hmay : MayRun x linked stack act) :
    ∀ n ∈ act.newSpaces, x.ofRun n := by
  cases hmay with
  | netnsAdd hn => simpa [Act.newSpaces] using hn
  | _ => simp [Act.newSpaces]

omit U in
/-- A command of one run keeps apart from the other. -/
theorem apart_command (hids : ToldApart calls) {c : Cmd} {k : Except PyExc (Reply (.run c)) → Prog Pipeline.ListRef}
    {h' : Host (Option Caller)} (hin : InPart calls h₀ s r) (hprog : s.prog r = .ask (.run c) k)
      (hother : (commandOf c.argv).2 ≠ .other)
    (hperform : s.host.perform (some r) (commandOf c.argv).1 (commandOf c.argv).2 = some h') :
    s.host.Within (ours r) (commandOf c.argv).1 (commandOf c.argv).2 ∧
      Apart (calls r.other) r.other s.host ⟨some r, (commandOf c.argv).1, (commandOf c.argv).2⟩ := by
  obtain ⟨linked, hobeys, hk⟩ := hin
  rw [hprog] at hobeys
  obtain ⟨hmay, htidy⟩ := hobeys.1
  have hw : s.host.Within (ours r) (commandOf c.argv).1 (commandOf c.argv).2 :=
    within_mayRun hk.rest (fun hl => (hk.linked hl).notOthers) hmay htidy hother hperform
  refine ⟨hw, ?_, hw.mono ours_le_theirs, fun n hn => namespaces_apart hids (newSpaces_mayRun hmay n hn),
    fun hstack hl => ?_⟩
  · exact fun heq => r.ne_other (Option.some.inj heq)
  · have hlink := vethHost_apart hids r.other
    rw [r.other_other] at hlink
    exact hlink (newLinks_mayRun hmay hstack _ hl)

theorem follows_event {p : Prog Pipeline.ListRef} {t t' : Stage} {e : Happening}
    (hwaits : ∀ a k, p = .ask a k → parked (env r) t.st a = true)
    (he : Stage.Happened (env r) (calls r) r t e t') : Follows (among env calls ok r) (p, t) (p, t') := by
  cases p with
  | ask a k => exact .step (.event e (hwaits a k rfl) ⟨he, trivial⟩)
  | ret ref => exact .after e (fun _ _ h => by cases h) ⟨he, trivial⟩
  | throw e' => exact .after e (fun _ _ h => by cases h) ⟨he, trivial⟩

/-- A step of the two is for each a step among others. -/
theorem step_follows (hids : ToldApart calls) (hin : ∀ r, InPart calls h₀ s r) (h : TogetherStep env calls ok s s')
    (r : Caller) :
    Follows (among env calls ok r) (s.prog r, s.stage r) (s'.prog r, s'.stage r) := by
  cases h with
  | @answer q a k reply t ds hprog hanswer hdid hwaits =>
    rcases Caller.eq_or_other r q with rfl | rfl
    · have hdeeds : t.deeds = s.deeds r := by
        cases hanswer.1
        rfl
      have hstage : t = { st := t.st, host := t.host, deeds := s.deeds r } := by rw [← hdeeds]
      rw [hstage] at hanswer
      simp only [Together.stage, if_true, hprog]
      exact .step (.answer reply hanswer)
    · have hne : q.other ≠ q := fun heq => q.ne_other heq.symm
      obtain ⟨st, host, deeds⟩ := t
      simp only [Together.stage, if_neg hne]
      cases hdid with
      | nothing =>
        rw [List.append_nil]
        exact .idle
      | deed hother hperform =>
        exact follows_event (hwaits (by simp)) (.deed (apart_command hids (hin q) hprog hother hperform).2 hperform)
  | @event q e u hwaits he =>
    by_cases hq : r = q
    · subst hq
      simp only [Together.stage, if_true]
      exact follows_event hwaits (.ev he)
    · simp only [Together.stage, if_neg hq]
      exact .idle
  | deed hwaits hwho hw hnetns hlinks hperform =>
    have happart : Apart (calls r) r s.host _ :=
      ⟨by rw [hwho]; simp, hw.mono outsiders_le_theirs, hnetns r, fun hstack => hlinks hstack r⟩
    exact follows_event (hwaits r) (.deed happart hperform)

/-- More is allowed. -/
theorem together_mono {ok' : Caller → Stage → (a : Req) → Except PyExc (Reply a) → Prop}
    (hok : ∀ r t a reply, ok r t a reply → ok' r t a reply) (h : TogetherSteps env calls ok s s') :
      TogetherSteps env calls ok' s s' := by
  refine ReflTransGen.mono (fun t t' hstep => ?_) _ _ h
  cases hstep with
  | answer hprog hanswer hdid hwaits => exact .answer hprog ⟨hanswer.1, hok _ _ _ _ hanswer.2⟩ hdid hwaits
  | event hwaits he => exact .event hwaits he
  | deed hwaits hwho hw hnetns hlinks hperform => exact .deed hwaits hwho hw hnetns hlinks hperform

theorem inPart_step (hids : ToldApart calls) (hin : ∀ r, InPart calls h₀ s r) (h : TogetherStep env calls ok s s')
    (r : Caller) :
    InPart calls h₀ s' r := by
  obtain ⟨linked, hobeys, hk⟩ := hin r
  exact obeys_follows (fun _ => keeping_stable.restrict) (fun _ _ _ _ _ ha hk' hr => keeping_answer ha hk' hr.1)
    (step_follows hids hin h r)
    hobeys hk

/-- The outsiders' part is what they made it. -/
theorem outside_step (hids : ToldApart calls) (hin : ∀ r, InPart calls h₀ s r) (h : TogetherStep env calls ok s s')
    (htold : Deed.performed h₀ s.outside = some (s.host.part outsiders)) :
    Deed.performed h₀ s'.outside = some (s'.host.part outsiders) := by
  cases h with
  | @answer q a k reply t ds hprog hanswer hdid hwaits =>
    obtain ⟨st, host, deeds⟩ := t
    cases hdid with
    | nothing => exact htold
    | deed hother hperform =>
      have hw := (apart_command hids (hin q) hprog hother hperform).1.mono ours_le_inside
      have houtside := Host.part_outside rfl hw hperform
      rw [Side.other_other] at houtside
      show Deed.performed h₀ s.outside = some (host.part outsiders)
      rw [houtside]
      exact htold
  | event => exact htold
  | deed hwaits hwho hw hnetns hlinks hperform =>
    obtain ⟨linked, -, hk⟩ := hin .first
    show Deed.performed h₀ (s.outside ++ [_]) = some (Host.part outsiders _)
    rw [performed_append, htold, Option.bind_some]
    exact Host.part_inside hk.sound.formed (by rw [hwho]; rfl) hw hperform

end Follow

/-! ## Both runs -/

section Runs

variable [U : PyStr.Unicode] {env : Caller → Env} {calls : Caller → RunCall}
    {ok : Caller → Stage → (a : Req) → Except PyExc (Reply a) → Prop}
  {h₀ : Host (Option Caller)} {s : Together} {c : Caller → NetnsController}

theorem inPart_start (hgiven : ∀ r, (calls r).source = .given (c r)) (hstart : ∀ r, Clear (calls r) r h₀) (r : Caller) :
    InPart calls h₀ (Together.start calls h₀) r :=
  ⟨false, orderedTidy_prog (hgiven r), keeping_start (hstart r)⟩

omit U in
/-- A host where neither has anything is the outsiders'. -/
theorem part_outsiders {h : Host (Option Caller)} (hs : h.Sound) (hspaces : ∀ r, ∀ sp ∈ h.spaces, sp.owner ≠ some r)
    (hpairs : ∀ r, ∀ p ∈ h.pairs, p.owner ≠ some r) : h.part outsiders = h := by
  have hnone : ∀ o : Option Caller, (∀ r, o ≠ some r) → outsiders.other.owners o ≠ true := by
    intro o ho
    cases o with
    | none => simp [Side.other, outsiders]
    | some r => exact absurd rfl (ho r)
  apply Host.part_of_empty hs
  · exact List.filter_eq_nil_iff.mpr fun sp hsp => hnone _ fun r => hspaces r sp hsp
  · exact List.filter_eq_nil_iff.mpr fun p hp => hnone _ fun r => hpairs r p hp
  · rfl

/-- What holds of each run among others holds of the two together. -/
theorem together_steps (hids : ToldApart calls) (hgiven : ∀ r, (calls r).source = .given (c r))
    (hstart : ∀ r, Clear (calls r) r h₀)
    {I : Caller → Stage → Req → Prop} {Q : Caller → Except PyExc Pipeline.ListRef → Stage → Prop}
    (hQ : ∀ r reply, Stable (among env calls ok r) (Q r reply))
    (hwp : ∀ r, wp (among env calls ok r) (I r) (Q r) (calls r).prog { host := h₀ })
    (hrun : TogetherSteps env calls ok (Together.start calls h₀) s) :
    (∀ r, InPart calls h₀ s r ∧ wp (among env calls ok r) (I r) (Q r) (s.prog r) (s.stage r)) ∧
      Deed.performed h₀ s.outside = some (s.host.part outsiders) := by
  induction hrun with
  | refl =>
    refine ⟨fun r => ⟨inPart_start hgiven hstart r, hwp r⟩, ?_⟩
    show some h₀ = some (h₀.part outsiders)
    rw [part_outsiders (hstart .first).sound (fun r => (hstart r).spaces) fun r => (hstart r).pairs]
  | tail _ hstep ih =>
    obtain ⟨hboth, htold⟩ := ih
    have hin := fun r => (hboth r).1
    exact ⟨fun r => ⟨inPart_step hids hin hstep r, wp_follows (hQ r) (step_follows hids hin hstep r) (hboth r).2⟩,
      outside_step hids hin hstep htold⟩

/-- Beside the other run, each measures in its own topology, and the outsiders keep theirs. -/
theorem together_measured (hids : ToldApart calls) (hgiven : ∀ r, (calls r).source = .given (c r))
    (hstart : ∀ r, Clear (calls r) r h₀)
    (hrun : TogetherSteps env calls (fun _ => Attended) (Together.start calls h₀) s) :
    Deed.performed h₀ s.outside = some (s.host.part outsiders) ∧
      ∀ r a k, s.prog r = .ask a k → a.measures = true → s.host.part (ours r) = topologyHost (calls r) r ∧
        ((calls r).req.topology = .gateway → Connected (s.host.part (ours r)) (gatewayOf (calls r).testId)
          {} defaultLayout (some r)) := by
  have hwp : ∀ r, wp (among env calls (fun _ => Attended) r) (InTopology (calls r) r) (fun _ _ => True)
      (calls r).prog { host := h₀ } := by
    intro r
    rw [prog_given (hgiven r)]
    exact wp_restrict (wp_mono (fun _ _ _ => trivial) _ _
      (measured_runWith (c r) ⟨keeping_start (hstart r), own_start (hstart r)⟩))
  obtain ⟨hboth, htold⟩ := together_steps hids hgiven hstart (fun _ _ _ _ _ _ _ => trivial) hwp hrun
  refine ⟨htold, fun r a k hprog ha => ?_⟩
  have hpending := (hboth r).2
  rw [hprog] at hpending
  have hown : s.host.part (ours r) = topologyHost (calls r) r := (hpending _ .refl).1 ha
  refine ⟨hown, fun htop => ?_⟩
  rw [hown, topologyHost, htop]
  exact gatewayHost_connected

/-- Once both have ended, the host is what the outsiders made of it. -/
theorem together_restored (hids : ToldApart calls) (hgiven : ∀ r, (calls r).source = .given (c r))
    (hstart : ∀ r, Clear (calls r) r h₀)
    (hrun : TogetherSteps env calls Carried (Together.start calls h₀) s) (hended : ∀ r a k, s.prog r ≠ .ask a k) :
    Deed.performed h₀ s.outside = some s.host := by
  have hwp : ∀ r, wp (among env calls Carried r) (fun _ _ => True) (fun _ => Cleared (calls r) r h₀)
      (calls r).prog { host := h₀ } := by
    intro r
    rw [prog_given (hgiven r)]
    refine wp_mono (fun reply t ht => ?_) _ _ (cleared_runWith (c r) (keeping_start (hstart r)))
    cases reply <;> exact ht
  obtain ⟨hboth, htold⟩ := together_steps hids hgiven hstart (fun _ _ => cleared_stable.restrict) hwp hrun
  have hcleared : ∀ r, Cleared (calls r) r h₀ (s.stage r) := by
    intro r
    have hend := (hboth r).2
    cases hp : s.prog r with
    | ret ref =>
      rw [hp] at hend
      exact hend
    | throw e =>
      rw [hp] at hend
      exact hend
    | ask a k => exact absurd hp (hended r a k)
  rw [htold]
  exact congrArg some (part_outsiders (hcleared .first).keeping.sound (fun r => (hcleared r).unowned.1)
    fun r => (hcleared r).unowned.2)

end Runs

/-! ## A simple run and a gateway -/

section Schedule

variable [U : PyStr.Unicode] (env : Caller → Env) (calls : Caller → RunCall)

def Together.waits (s : Together) (r : Caller) : Bool :=
  match s.prog r with
  | .ask a _ => parked (env r) (s.st r) a
  | _ => true

/-- What a reply to `r` did on the host. -/
def doneBy (r : Caller) : (a : Req) → Except PyExc (Reply a) → List Deed
  | .run c, .ok done =>
    if done.returncode = 0 ∧ (commandOf c.argv).2 ≠ .other
      then [⟨some r, (commandOf c.argv).1, (commandOf c.argv).2⟩] else []
  | _, _ => []

def Together.happen (r : Caller) : List Ev → Together → Option Together
  | [], s => some s
  | e :: es, s =>
    if s.waits env r then (event (env r) (s.st r) e).bind fun u => Together.happen r es
      { s with st := fun q => if q = r then u else s.st q }
    else none

/-- The reply comes, unless the other run has to go on first. -/
def Together.reply (r : Caller) (s : Together) : Option Together :=
  match s.prog r with
  | .ask a k =>
    let reply := hostReply r (s.stage r) a
    let ds := doneBy r a reply
    if allows (env r) (s.st r) a reply && carries r (s.stage r) a reply then
      if ds.isEmpty || s.waits env r.other then
        (hostAfter r s.host a reply).map fun h' =>
          { prog := fun q => if q = r then k reply else s.prog q
            st := fun q => if q = r then effect (env r) (s.st r) a reply else s.st q
            host := h'
            deeds := fun q => if q = r then s.deeds q else s.deeds q ++ ds
            outside := s.outside }
      else some s
    else none
  | _ => some s

/-- One request of `r`, where its monitor is obliging. -/
def Together.serve (r : Caller) (s : Together) : Option Together :=
  match s.prog r with
  | .ask a _ => (Together.happen env r (obligingEvents (s.st r) a) s).bind (Together.reply env r)
  | _ => some s

/-- One request of each, this many times. -/
def Together.turns : Nat → Together → Option Together
  | 0, s => some s
  | n + 1, s => (s.serve env .first).bind fun s => (s.serve env .second).bind (Together.turns n)

def Together.lab (d : Deed) (s : Together) : Option Together :=
  if s.waits env .first && s.waits env .second && decide (s.host.Within outsiders d.stack d.act ∧ d.who = none ∧
      Apart (calls .first) .first s.host d ∧ Apart (calls .second) .second s.host d) then
    (s.host.perform d.who d.stack d.act).map fun h' =>
      { s with host := h', deeds := fun q => s.deeds q ++ [d], outside := s.outside ++ [d] }
  else none

variable {env calls} {s s' : Together} {r : Caller}

omit U in
theorem waits_of {s : Together} {r : Caller} (h : s.waits env r = true) : s.Waits env r := by
  intro a k hprog
  rwa [Together.waits, hprog] at h

theorem happen_steps : ∀ {es : List Ev} {s : Together}, Together.happen env r es s = some s' →
    TogetherSteps env calls Carried s s'
  | [], s, h => by
    cases h
    exact .refl
  | e :: es, s, h => by
    rw [Together.happen] at h
    split at h
    · obtain ⟨u, hu, hrest⟩ := Option.bind_eq_some_iff.mp h
      exact .head (.event (waits_of ‹_›) hu) (happen_steps hrest)
    · cases h

omit U in
theorem did_doneBy {h h' : Host (Option Caller)} {a : Req} {reply : Except PyExc (Reply a)}
    (hafter : hostAfter r h a reply = some h') :
    Did r h a h' (doneBy r a reply) := by
  cases a with
  | run c =>
    cases reply with
    | ok done =>
      simp only [hostAfter] at hafter
      by_cases hcode : done.returncode = 0
      · rw [if_pos hcode] at hafter
        by_cases hother : (commandOf c.argv).2 = .other
        · rw [hother] at hafter
          cases (Host.perform_iff.mp hafter).2
          simp only [doneBy, hother, ne_eq, not_true_eq_false, and_false, if_false]
          exact .nothing
        · simp only [doneBy, hcode, ne_eq, hother, not_false_eq_true, and_self, if_true]
          exact .deed hother hafter
      · rw [if_neg hcode] at hafter
        split at hafter
        · cases hafter
        · cases hafter
          simp only [doneBy, hcode, false_and, if_false]
          exact .nothing
    | error e =>
      cases hafter
      exact .nothing
  | _ =>
    cases hafter
    cases reply <;> exact .nothing

theorem reply_steps (h : s.reply env r = some s') : TogetherSteps env calls Carried s s' := by
  unfold Together.reply at h
  split at h
  · rename_i a k hprog
    dsimp only at h
    split at h
    · rename_i hfit
      obtain ⟨hallows, hcarries⟩ := Bool.and_eq_true_iff.mp hfit
      split at h
      · rename_i hturn
        rw [Bool.or_eq_true, List.isEmpty_iff] at hturn
        obtain ⟨h', hafter, rfl⟩ := Option.map_eq_some_iff.mp h
        exact .single (.answer hprog ⟨.reply hallows (reacts_hostAfter hafter), carried_of_carries hcarries⟩
          (did_doneBy hafter)
          fun hne => waits_of (hturn.resolve_left hne))
      · cases h
        exact .refl
    · cases h
  · cases h
    exact .refl

theorem serve_togetherSteps (h : s.serve env r = some s') : TogetherSteps env calls Carried s s' := by
  unfold Together.serve at h
  split at h
  · obtain ⟨t, hevents, hreply⟩ := Option.bind_eq_some_iff.mp h
    exact (happen_steps hevents).trans (reply_steps hreply)
  · cases h
    exact .refl

theorem turns_steps : ∀ {n : Nat} {s : Together}, Together.turns env n s = some s' →
    TogetherSteps env calls Carried s s'
  | 0, s, h => by
    cases h
    exact .refl
  | n + 1, s, h => by
    obtain ⟨t, hfirst, hrest⟩ := Option.bind_eq_some_iff.mp h
    obtain ⟨u, hsecond, hturns⟩ := Option.bind_eq_some_iff.mp hrest
    exact (serve_togetherSteps hfirst).trans ((serve_togetherSteps hsecond).trans (turns_steps hturns))

theorem lab_steps {d : Deed} (h : s.lab env calls d = some s') : TogetherSteps env calls Carried s s' := by
  unfold Together.lab at h
  split at h
  · rename_i hfit
    simp only [Bool.and_eq_true, decide_eq_true_eq] at hfit
    obtain ⟨⟨hfirst, hsecond⟩, hw, hwho, hone, htwo⟩ := hfit
    obtain ⟨h', hperform, rfl⟩ := Option.map_eq_some_iff.mp h
    refine .single (.deed (fun r => ?_) hwho hw (fun r => ?_) (fun hstack r => ?_) hperform)
    · cases r with
      | first => exact waits_of hfirst
      | second => exact waits_of hsecond
    · cases r with
      | first => exact hone.netns
      | second => exact htwo.netns
    · cases r with
      | first => exact hone.link hstack
      | second => exact htwo.link hstack
  · cases h

end Schedule

attribute [local instance] PyStr.Unicode.ascii

/-- A simple run, and a gateway. -/
def bothTopologies : Caller → RunCall
  | .first => labCall
  | .second => { gatewayCall with testId := "0f9e8d7c6b5a", source := .given { useNsenter := true } }

/-- Turn by turn, with the lab's namespace made on the way. -/
def samplePlay (m n : Nat) : Option Together :=
  ((Together.start bothTopologies bareHost).turns (fun _ => {}) m).bind fun s =>
    (s.lab (fun _ => {}) bothTopologies ⟨none, none, .netnsAdd "lab"⟩).bind (Together.turns (fun _ => {}) n)

theorem samplePlay_steps {m n : Nat} {s : Together} (h : samplePlay m n = some s) :
    TogetherSteps (fun _ => {}) bothTopologies Carried (Together.start bothTopologies bareHost) s := by
  obtain ⟨t, hbefore, hrest⟩ := Option.bind_eq_some_iff.mp h
  obtain ⟨u, hlab, hafter⟩ := Option.bind_eq_some_iff.mp hrest
  exact (turns_steps hbefore).trans ((lab_steps hlab).trans (turns_steps hafter))

theorem bothTopologies_toldApart : ToldApart bothTopologies := by
  unfold ToldApart
  decide +kernel

def bothControllers : Caller → NetnsController
  | .first => { useNsenter := false }
  | .second => { useNsenter := true }

theorem bothTopologies_given : ∀ r, (bothTopologies r).source = .given (bothControllers r)
  | .first => rfl
  | .second => rfl

theorem bothTopologies_clear : ∀ r, Clear (bothTopologies r) r bareHost
  | .first => bareHost_clear
  | .second =>
    { sound := bareHost_clear.sound
      spaces := by simp [bareHost]
      pairs := by simp [bareHost]
      netns := fun _ _ => rfl
      link := by decide +kernel }

def sends : Prog Pipeline.ListRef → Bool
  | .ask (.sendp _ _) _ => true
  | _ => false

theorem ask_of_sends {p : Prog Pipeline.ListRef} (h : sends p = true) : ∃ f iface k, p = .ask (.sendp f iface) k := by
  unfold sends at h
  split at h
  · exact ⟨_, _, _, rfl⟩
  · cases h

/-- A frame goes through the gateway while the simple run cleans up. -/
theorem together_measured_sample : ∃ s f iface k,
    TogetherSteps (fun _ => {}) bothTopologies (fun _ => Attended) (Together.start bothTopologies bareHost) s ∧
      s.prog .second = .ask (.sendp f iface) k ∧ (s.host.spaces.length = 3 ∧ s.outside.length = 1) ∧
        Connected (s.host.part (ours .second)) (gatewayOf "0f9e8d7c6b5a") {} defaultLayout (some .second) := by
  have hplay : ((samplePlay 6 64).any fun s => sends (s.prog .second) &&
      (s.host.spaces.length == 3 && s.outside.length == 1)) = true := by
    decide +kernel
  obtain ⟨s, hs, hp⟩ := (Option.any_eq_true _ _).mp hplay
  simp only [Bool.and_eq_true, beq_iff_eq] at hp
  obtain ⟨hsends, hspaces, houtside⟩ := hp
  obtain ⟨f, iface, k, hprog⟩ := ask_of_sends hsends
  have hrun := together_mono (fun _ _ _ _ h => h.attended) (samplePlay_steps hs)
  have hmeasured := (together_measured bothTopologies_toldApart bothTopologies_given bothTopologies_clear hrun).2
      .second _ k hprog rfl
  exact ⟨s, f, iface, k, hrun, hprog, ⟨hspaces, houtside⟩, hmeasured.2 rfl⟩

/-- Both have passed, and the lab's namespace is there. -/
theorem together_restored_sample :
    ∃ s, TogetherSteps (fun _ => {}) bothTopologies Carried (Together.start bothTopologies bareHost) s ∧
    ((s.st .first).status = .done ∧ (s.st .second).status = .done ∧ s.outside.length = 1) ∧
      Deed.performed bareHost s.outside = some s.host := by
  have hplay : ((samplePlay 6 112).any fun s => (!hasNext (s.prog .first) && !hasNext (s.prog .second)) &&
      ((s.st .first).status == .done && (s.st .second).status == .done && s.outside.length == 1)) = true := by
    decide +kernel
  obtain ⟨s, hs, hp⟩ := (Option.any_eq_true _ _).mp hplay
  simp only [Bool.and_eq_true, beq_iff_eq] at hp
  obtain ⟨⟨hfirst, hsecond⟩, ⟨hdone, hdone'⟩, houtside⟩ := hp
  have hended : ∀ r a k, s.prog r ≠ .ask a k := by
    intro r a k hprog
    cases r with
    | first =>
      rw [hprog] at hfirst
      cases hfirst
    | second =>
      rw [hprog] at hsecond
      cases hsecond
  have hrun := samplePlay_steps hs
  exact ⟨s, hrun, ⟨hdone, hdone', houtside⟩,
    together_restored bothTopologies_toldApart bothTopologies_given bothTopologies_clear hrun hended⟩

end Nse
