/-
  Nse.Core.Hosted — a run on a host that others use too.

  Actors. The run asks, and its commands take effect on the host as the host lets them, or
  fail, or are cut short. The monitor, the read loop and the clock move as in `Nse.Core.World`.
  Others run commands of their own at any time, which keep to what is not the run's and take
  none of the names the run will use (`Apart`); those that took effect are recorded, in order.

  The host has two parts, the run's (`ours`) and the others' (`theirs`). Proved, for a run that
  is given its controller, so that it sweeps nothing, and that leaves no worker thread behind
  (`isolated`): at every moment, however the run goes and whatever fails, the others' part is
  exactly what their commands would have made of the host without the run. A thread left behind
  could still move `veth-nse`, which by then may be another's.
-/

import Nse.Core.TwoRuns
import Nse.Lib.NetParts

namespace Nse

open Coroutine
open NetHost (Act End Host Side)
open Relation (ReflTransGen)

/-! ## The two parts -/

/-- A command of somebody else that took effect. -/
structure Deed where
  who : Option Caller
  stack : Option String
  act : Act

/-- One deed after another. -/
def Deed.performed : Host (Option Caller) → List Deed → Option (Host (Option Caller))
  | h, [] => some h
  | h, d :: ds => (h.perform d.who d.stack d.act).bind fun h' => Deed.performed h' ds

def ours (r : Caller) : Side (Option Caller) := { owners := (· == some r), unowned := false }

abbrev theirs (r : Caller) : Side (Option Caller) := (ours r).other

structure Stage where
  st : St := {}
  host : Host (Option Caller)
  deeds : List Deed := []

section Defs

variable (x : RunCall) (r : Caller)

/-- The others keep to their part of the host, and take none of the names of the run. -/
structure Apart (h : Host (Option Caller)) (d : Deed) : Prop where
  who : d.who ≠ some r
  within : h.Within (theirs r) d.stack d.act
  netns : ∀ n ∈ d.act.newSpaces, ¬x.ofRun n
  link : d.stack = none → x.vethHost ∉ d.act.newLinks

/-- Nothing on the host is the run's or has one of its names. -/
structure Clear (h : Host (Option Caller)) : Prop where
  sound : h.Sound
  spaces : ∀ sp ∈ h.spaces, sp.owner ≠ some r
  pairs : ∀ p ∈ h.pairs, p.owner ≠ some r
  netns : ∀ n, x.ofRun n → h.hasSpace n = false
  link : h.has none x.vethHost = false

end Defs

/-! ## The world -/

inductive Happening where
  | ev (e : Ev)
  | deed (d : Deed)

section World

variable [U : PyStr.Unicode] (env : Env) (x : RunCall) (r : Caller)

inductive Stage.Replied : Stage → (a : Req) → Except PyExc (Reply a) → Stage → Prop
  | reply {s : Stage} {a : Req} {reply : Except PyExc (Reply a)}
    {h' : Host (Option Caller)} : allows env s.st a reply = true →
      Reacts (some r) s.host a reply h' → Replied s a reply { s with st := effect env s.st a reply, host := h' }

inductive Stage.Happened : Stage → Happening → Stage → Prop
  | ev {s : Stage} {e : Ev} {t : St} : event env s.st e = some t → Happened s (.ev e) { s with st := t }
  | deed {s : Stage} {d : Deed} {h' : Host (Option Caller)} : Apart x r s.host d →
      s.host.perform d.who d.stack d.act = some h' → Happened s (.deed d) { s with host := h', deeds := s.deeds ++ [d] }

def hosted : World Req Reply PyExc Stage Happening where
  answer := Stage.Replied env r
  event := Stage.Happened env x r
  parked s a := parked env s.st a = true

omit U in
/-- The answer leaves no worker thread behind. -/
def Attended (s : Stage) (a : Req) (reply : Except PyExc (Reply a)) : Prop := abandons s.st a reply = false

/-- Nobody cancels the run while a worker thread is at work for it. -/
abbrev attended : World Req Reply PyExc Stage Happening := (hosted env x r).restrict Attended fun _ _ => True

end World

/-! ## What each part keeps -/

/-- The others' part holds none of the names of the run. -/
structure RestPart (x : RunCall) (e : Host (Option Caller)) : Prop where
  sound : e.Sound
  netns : ∀ n, x.ofRun n → e.hasSpace n = false
  link : e.has none x.vethHost = false

/-- The run's part holds its namespaces only, and a pair with an end in the root stack has the
    host's end of the run there. -/
structure OwnPart (x : RunCall) (m : Host (Option Caller)) : Prop where
  sound : m.Sound
  titles : ∀ n o, (n, o) ∈ m.titles → x.ofRun n
  rooted : ∀ st ∈ m.seats, st.any (·.1 == none) = true → st.any (· == (none, x.vethHost)) = true

/-- The other end of a link that has just been made is in the root stack. -/
structure Linked (x : RunCall) (m e : Host (Option Caller)) : Prop where
  own : m.has none x.vethPeer = true
  notOthers : e.has none x.vethPeer = false

structure Keeping (x : RunCall) (r : Caller) (h₀ : Host (Option Caller)) (linked : Bool) (s : Stage) : Prop where
  sound : s.host.Sound
  own : OwnPart x (s.host.part (ours r))
  rest : RestPart x (s.host.part (theirs r))
  linked : linked = true → Linked x (s.host.part (ours r)) (s.host.part (theirs r))
  told : Deed.performed h₀ s.deeds = some (s.host.part (theirs r))

section Parts

variable {x : RunCall} {r : Caller} {who : Option Caller} {h h' m e : Host (Option Caller)}
    {stack : Option String} {a : Act}

theorem performed_append : ∀ (ds : List Deed) (h : Host (Option Caller)) (d : Deed),
    Deed.performed h (ds ++ [d]) = (Deed.performed h ds).bind fun h' => h'.perform d.who d.stack d.act
  | [], h, d => by
    rw [List.nil_append, Deed.performed, Deed.performed, Option.bind_some]
    cases h.perform d.who d.stack d.act <;> rfl
  | d' :: ds, h, d => by
    rw [List.cons_append, Deed.performed, Deed.performed]
    cases h.perform d'.who d'.stack d'.act with
    | none => rfl
    | some h' => exact performed_append ds h' d

theorem RestPart.perform (he : RestPart x e) (hnetns : ∀ n ∈ a.newSpaces, ¬x.ofRun n)
    (hlink : stack = none → x.vethHost ∉ a.newLinks)
    (hperform : e.perform who stack a = some h') : RestPart x h' where
  sound := he.sound.perform hperform
  netns n hn := Host.no_space_perform (fun hnew => hnetns n hnew hn) hperform (he.netns n hn)
  link := Host.has_root_perform hlink hperform he.link

/-- Nothing of the others is in a namespace of the run. -/
theorem RestPart.vacant (he : RestPart x e) {n : String} (hn : x.ofRun n) : ∀ en ∈ e.ends, en.touches n = false :=
  he.sound.untouched (he.netns n hn)

theorem vethHost_ne_vethPeer (x : RunCall) : x.vethHost ≠ x.vethPeer := by
  intro heq
  unfold RunCall.vethPeer at heq
  split at heq <;> have hchars := congrArg String.toList heq <;>
    simp [RunCall.vethHost, deriveNames, String.toList_append] at hchars

/-- A move of any other end leaves a pair rooted. -/
theorem rooted_moved {x : RunCall} {place : Option String × String} {space : String} {st : NetHost.Seat (Option Caller)}
    (hne : place ≠ (none, x.vethHost)) (hst : st.any (·.1 == none) = true → st.any (· == (none, x.vethHost)) = true)
    (hroot : (st.map (NetHost.moveTo place space)).any (·.1 == none) = true) :
    (st.map (NetHost.moveTo place space)).any (· == (none, x.vethHost)) = true := by
  have hstays : ∀ y : Option String × String, y = (none, x.vethHost) → NetHost.moveTo place space y =
      (none, x.vethHost) := by
    rintro y rfl
    rw [NetHost.moveTo, if_neg (by simpa using Ne.symm hne)]
  have hwas : ∀ y : Option String × String, (NetHost.moveTo place space y).1 = none → y.1 = none := by
    intro y hy
    unfold NetHost.moveTo at hy
    split at hy
    · cases hy
    · exact hy
  simp only [NetHost.Seat.any, NetHost.Seat.map, Bool.or_eq_true, beq_iff_eq] at hst hroot ⊢
  rcases hst (hroot.imp (hwas _) (hwas _)) with hnear | hfar
  · exact .inl (hstays _ hnear)
  · exact .inr (hstays _ hfar)

/-- The commands a run may run keep its part. -/
theorem OwnPart.perform (hm : OwnPart x m) {linked : Bool} (hmay : MayRun x linked stack a)
    (hperform : m.perform who stack a = some h') :
    OwnPart x h' := by
  have htitles := Host.titles_perform hperform
  have hseats := Host.seats_perform hperform
  refine ⟨hm.sound.perform hperform, fun n o hmem => ?_, fun st hst hroot => ?_⟩
  · rw [htitles] at hmem
    cases hmay with
    | netnsAdd hn =>
      rcases List.mem_cons.mp hmem with heq | hmem
      · cases heq
        exact hn
      · exact hm.titles n o hmem
    | netnsDel => exact hm.titles n o (List.mem_filter.mp hmem).1
    | _ => exact hm.titles n o hmem
  · rw [hseats] at hst
    have hsub : ∀ {q : NetHost.Seat (Option Caller) → Bool}, st ∈ m.seats.filter q →
        st.any (· == (none, x.vethHost)) = true :=
      fun hst => hm.rooted st (List.mem_filter.mp hst).1 hroot
    cases hmay with
    | netnsDel => exact hsub hst
    | linkDel => exact hsub hst
    | linkAdd =>
      rcases List.mem_cons.mp hst with rfl | hst
      · simp [NetHost.Seat.any]
      · exact hm.rooted st hst hroot
    | linkAddInside hn =>
      rcases List.mem_cons.mp hst with rfl | hst
      · simp [NetHost.Seat.any] at hroot
      · exact hm.rooted st hst hroot
    | linkMove hlinked hn =>
      obtain ⟨st₀, hst₀, rfl⟩ := List.mem_map.mp hst
      exact rooted_moved (by simpa using Ne.symm (vethHost_ne_vethPeer x)) (hm.rooted st₀ hst₀) hroot
    | linkMoveInside hn hn' =>
      obtain ⟨st₀, hst₀, rfl⟩ := List.mem_map.mp hst
      exact rooted_moved (by simp) (hm.rooted st₀ hst₀) hroot
    | _ => exact hm.rooted st hst hroot

/-! ## A command of the run -/

/-- The run deletes nothing but its own. -/
def Tidy (x : RunCall) (stack : Option String) (a : Act) : Prop :=
  (∀ n, a = .netnsDel n → x.ofRun n) ∧ ∀ n, stack = none → a = .linkDel n → n = x.vethHost

/-- A command that a run may run and that is accepted keeps to the run's part. -/
theorem within_mayRun {linked : Bool} (he : RestPart x (h.part (theirs r)))
    (hlinked : linked = true → (h.part (theirs r)).has none x.vethPeer = false) (hmay : MayRun x linked stack a)
    (htidy : Tidy x stack a) (hother : a ≠ .other) (hperform : h.perform who stack a = some h') :
      h.Within (ours r) stack a := by
  obtain ⟨hstack, hacted⟩ := Host.perform_iff.mp hperform
  have hhere : ∀ {n : String}, x.ofRun n → stack = some n → (h.part (ours r)).hasStack stack = true := by
    rintro n hn rfl
    exact Host.hasSpace_part (he.netns n hn) hstack
  have hspaces : ∀ {n : String}, x.ofRun n → (h.part (theirs r)).hasSpace n = false ∧
      ∀ en ∈ (h.part (theirs r)).ends, en.touches n = false := fun hn => ⟨he.netns _ hn, he.vacant hn⟩
  have hinside : ∀ {n : String}, x.ofRun n → ∀ d, (h.part (theirs r)).has (some n) d = false := by
    intro n hn d
    rw [Host.has, List.any_eq_false]
    intro en hen hat
    exact absurd (Bool.and_eq_true_iff.mp hat).1 (Bool.eq_false_iff.mp (he.vacant hn en hen))
  have hnone : ∀ {ns : List String}, ns = [] → ∀ n ∈ ns, (h.part (theirs r)).hasSpace n = false ∧
      ∀ en ∈ (h.part (theirs r)).ends, en.touches n = false := by
    rintro ns rfl n hn
    cases hn
  cases hmay with
  | netnsAdd hn => exact ⟨rfl, List.forall_mem_singleton.mpr (hspaces hn), by simp [Act.linkNames]⟩
  | @netnsDel n => exact ⟨rfl, List.forall_mem_singleton.mpr (hspaces (htidy.1 n rfl)), by simp [Act.linkNames]⟩
  | @linkDel n =>
    refine ⟨rfl, hnone rfl, List.forall_mem_singleton.mpr ?_⟩
    rw [htidy.2 n rfl rfl]
    exact he.link
  | linkAdd =>
    refine ⟨rfl, hnone rfl, fun d hd => ?_⟩
    cases hacted with
    | linkAdd hne hnear hfar =>
      simp only [Act.linkNames, List.mem_cons, List.not_mem_nil, or_false] at hd
      rcases hd with rfl | rfl
      · exact Host.any_part_eq_false hnear
      · exact Host.any_part_eq_false hfar
  | linkMove hl hn =>
    exact ⟨rfl, List.forall_mem_singleton.mpr (hspaces hn), List.forall_mem_singleton.mpr (hlinked hl)⟩
  | linkUp => exact ⟨rfl, hnone rfl, List.forall_mem_singleton.mpr he.link⟩
  | addrAdd haddr => exact ⟨rfl, hnone rfl, List.forall_mem_singleton.mpr he.link⟩
  | routeAdd v6 => exact ⟨rfl, hnone rfl, List.forall_mem_singleton.mpr he.link⟩
  | other => exact absurd rfl hother
  | linkAddInside hn => exact ⟨hhere hn rfl, hnone rfl, fun d _ => hinside hn d⟩
  | linkMoveInside hn hn' => exact ⟨hhere hn rfl, List.forall_mem_singleton.mpr (hspaces hn'), fun d _ => hinside hn d⟩
  | linkUpInside hn => exact ⟨hhere hn rfl, hnone rfl, fun d _ => hinside hn d⟩
  | addrAddInside hn => exact ⟨hhere hn rfl, hnone rfl, fun d _ => hinside hn d⟩
  | routeAddInside hn => exact ⟨hhere hn rfl, hnone rfl, fun d _ => hinside hn d⟩

end Parts

/-! ## What every step keeps -/

section Steps

variable [U : PyStr.Unicode] {env : Env} {x : RunCall} {r : Caller} {h₀ : Host (Option Caller)}
    {linked : Bool} {s s' : Stage}

omit U in
theorem owners_ours {o : Option Caller} : (ours r).owners o = true ↔ o = some r := beq_iff_eq

omit U in
theorem owners_theirs {o : Option Caller} : (theirs r).owners o = true ↔ o ≠ some r := by
  simp [ours, Side.other]

omit U in
/-- A command within the run's part changes that part and no other. -/
theorem keeping_within {h' : Host (Option Caller)} {stack : Option String} {act : Act} {st : St}
    (hk : Keeping x r h₀ linked s)
    (hmay : MayRun x linked stack act) (hw : s.host.Within (ours r) stack act)
    (hperform : s.host.perform (some r) stack act = some h') {linked' : Bool}
    (hmade : linked' = true → Linked x (h'.part (ours r)) (h'.part (theirs r))) :
    Keeping x r h₀ linked' { s with st, host := h' } := by
  have hinside := Host.part_inside hk.sound.formed (owners_ours.mpr rfl) hw hperform
  have houtside := Host.part_outside (owners_ours.mpr rfl) hw hperform
  refine ⟨hk.sound.perform hperform, hk.own.perform hmay hinside, ?_, hmade, ?_⟩
  · rw [houtside]
    exact hk.rest
  · rw [houtside]
    exact hk.told

omit U in
theorem keeping_command {h' : Host (Option Caller)} {stack : Option String} {act : Act} {st : St}
    (hk : Keeping x r h₀ linked s)
    (hmay : MayRun x linked stack act) (htidy : Tidy x stack act) (hperform : s.host.perform (some r) stack act =
      some h') {linked' : Bool}
    (hmade : linked' = true → Linked x (h'.part (ours r)) (h'.part (theirs r))) :
    Keeping x r h₀ linked' { s with st, host := h' } := by
  by_cases hother : act = .other
  · subst hother
    cases (Host.perform_iff.mp hperform).2
    exact ⟨hk.sound, hk.own, hk.rest, hmade, hk.told⟩
  · exact keeping_within hk hmay (within_mayRun hk.rest (fun hl => (hk.linked hl).notOthers) hmay htidy hother hperform)
      hperform hmade

omit U in
/-- After `ip link add` in the root stack. -/
theorem linked_made {h h' : Host (Option Caller)} (he : RestPart x (h.part (theirs r)))
    (hperform : h.perform (some r) none (.linkAdd x.vethHost x.vethPeer) = some h') :
    Linked x (h'.part (ours r)) (h'.part (theirs r)) := by
  have hfree := Host.free_of_linkAdd hperform
  have hpeer : (h.part (theirs r)).has none x.vethPeer = false := Host.any_part_eq_false hfree.2
  have hw : h.Within (ours r) none (.linkAdd x.vethHost x.vethPeer) :=
    within_mayRun he (fun _ => hpeer) (.linkAdd : MayRun x true none _) ⟨by simp, by simp⟩ (by simp) hperform
  have houtside := Host.part_outside (owners_ours.mpr rfl) hw hperform
  constructor
  · apply Host.has_part
    · rw [houtside]
      exact hpeer
    · cases (Host.perform_iff.mp hperform).2 with
      | linkAdd hne hnear hfar =>
        show (h.withPair _).has none x.vethPeer = true
        rw [Host.has_withPair]
        simp [NetHost.Pair.any, End.at]
  · rw [houtside]
    exact hpeer

theorem keeping_replies {a : Req} {reply : Except PyExc (Reply a)} (hallowed : Allowed x linked a)
    (htidy : ∀ c, a = .run c → Tidy x (commandOf c.argv).1 (commandOf c.argv).2) (hk : Keeping x r h₀ linked s)
    (hr : Stage.Replied env r s a reply s') : Keeping x r h₀ (linkedAfter linked a reply) s' := by
  have hmade : ∀ {c : Cmd} {h' : Host (Option Caller)}, MayRun x linked (commandOf c.argv).1 (commandOf c.argv).2 →
      isRootAdd (commandOf c.argv) = true →
        s.host.perform (some r) (commandOf c.argv).1 (commandOf c.argv).2 = some h' →
        Linked x (h'.part (ours r)) (h'.part (theirs r)) := by
    intro c h' hmay hadd hperform
    rcases hcommand : commandOf c.argv with ⟨stack, act⟩
    rw [hcommand] at hmay hadd hperform
    cases hmay with
    | linkAdd => exact linked_made hk.rest hperform
    | @other stack => cases stack <;> cases hadd
    | _ => cases hadd
  cases hr with
  | reply hal hreacts =>
    cases hreacts with
    | done stdout stderr hperform =>
      exact keeping_command hk hallowed (htidy _ rfl) hperform fun hl => hmade hallowed
        (Bool.and_eq_true_iff.mp hl).2 hperform
    | failed stdout stderr hcheck hcode =>
      refine ⟨hk.sound, hk.own, hk.rest, fun hl => ?_, hk.told⟩
      rw [linkedAfter, hcheck] at hl
      cases hl
    | raised e =>
      refine ⟨hk.sound, hk.own, hk.rest, fun hl => ?_, hk.told⟩
      cases hl
    | cutShort e hperform =>
      refine keeping_command hk hallowed (htidy _ rfl) hperform fun hl => ?_
      cases hl
    | answered reply hrun =>
      refine ⟨hk.sound, hk.own, hk.rest, fun hl => hk.linked ?_, hk.told⟩
      cases a with
      | run c => exact absurd rfl (hrun c)
      | _ => exact hl

omit U in
/-- A deed changes the others' part and no other. -/
theorem keeping_deed {d : Deed} {h' : Host (Option Caller)} (hk : Keeping x r h₀ linked s) (hd : Apart x r s.host d)
    (hperform : s.host.perform d.who d.stack d.act = some h') :
    Keeping x r h₀ linked { s with host := h', deeds := s.deeds ++ [d] } := by
  have hwho : (theirs r).owners d.who = true := owners_theirs.mpr hd.who
  have hinside := Host.part_inside hk.sound.formed hwho hd.within hperform
  have houtside := Host.part_outside hwho hd.within hperform
  rw [Side.other_other] at houtside
  refine ⟨hk.sound.perform hperform, ?_, hk.rest.perform hd.netns hd.link hinside, fun hl => ?_, ?_⟩
  · rw [houtside]
    exact hk.own
  · have hlinked := hk.linked hl
    refine ⟨by rw [houtside]; exact hlinked.own, Host.has_root_perform ?_ hinside hlinked.notOthers⟩
    -- the name is taken
    intro hstack hnew
    have htaken := Host.has_of_part hlinked.own
    rw [hstack] at hperform
    cases hact : d.act with
    | linkAdd near far =>
      rw [hact] at hperform hnew
      obtain ⟨hnear, hfar⟩ := Host.free_of_linkAdd hperform
      simp only [Act.newLinks, List.mem_cons, List.not_mem_nil, or_false] at hnew
      rcases hnew with hname | hname
      · rw [hname, hnear] at htaken
        cases htaken
      · rw [hname, hfar] at htaken
        cases htaken
    | _ =>
      rw [hact] at hnew
      cases hnew
  · rw [performed_append, hk.told, Option.bind_some]
    exact hinside

theorem keeping_stable : Stable (hosted env x r) (Keeping x r h₀ linked) := by
  intro s e s' hk he
  cases he with
  | ev hev => exact ⟨hk.sound, hk.own, hk.rest, hk.linked, hk.told⟩
  | deed hd hperform => exact keeping_deed hk hd hperform

end Steps

/-! ## A run that is given its controller -/

section Run

variable {x : RunCall}

def Req.tidy (x : RunCall) : Req → Prop
  | .run c => Tidy x (commandOf c.argv).1 (commandOf c.argv).2
  | _ => True

theorem tidy_other {stack : Option String} {a : Act} (h : a = .other) : Tidy x stack a := by
  subst h
  exact ⟨by simp, by simp⟩

theorem Req.inside.tidy {m : Bool} {ns links : String → Prop} {a : Req} (h : a.inside m ns links) : a.tidy x := by
  cases a with
  | run c => exact tidy_other h.2
  | _ => trivial

/-- A command that is no deletion. -/
def keepsAll : Act → Bool
  | .netnsDel _ => false
  | .linkDel _ => false
  | _ => true

theorem tidy_keepsAll {stack : Option String} {a : Act} (h : keepsAll a = true) : Tidy x stack a := by
  constructor
  · rintro n rfl
    cases h
  · rintro n - rfl
    cases h

theorem tidy_runAll {argvs : List (List Arg)} (h : ((argvs.map commandOf).map (·.2)).all keepsAll = true) :
    Only (Req.tidy x) (NetnsController.runAll argvs) := by
  apply NetnsController.asks_runAll
  intro argv hargv
  exact tidy_keepsAll (List.all_eq_true.mp h _ (List.mem_map_of_mem (List.mem_map_of_mem hargv)))

theorem tidy_createNetns (c : NetnsController) (n : String) : Only (Req.tidy x) (c.createNetns n) := by
  refine c.asks_createNetns (tidy_keepsAll rfl) trivial fun setting => tidy_other ?_
  exact congrArg Prod.snd (commandOf_execPrefix c.useNsenter n (NetnsController.sysctl setting))

theorem tidy_setupTopology (c : NetnsController) : Only (Req.tidy x) (Pipeline.setupTopology x.req x.testId c) := by
  by_cases htop : x.req.topology = .gateway
  · have hsetup : Pipeline.setupTopology x.req x.testId c = c.createGateway (gatewayOf x.testId) {} := by
      rw [Pipeline.setupTopology, htop]
      rfl
    rw [hsetup, NetnsController.createGateway_eq]
    refine only_bind (fun _ => only_bind (fun _ => ?_) (tidy_createNetns c _)) (tidy_createNetns c _)
    refine only_bind (fun _ => only_bind (fun _ => only_bind (fun _ => ?_) ?_) ?_) ?_
    · exact tidy_runAll (by rw [NetnsController.commands_routes]; rfl)
    · exact tidy_runAll (by rw [NetnsController.commands_serverLink]; rfl)
    · exact tidy_runAll (by rw [NetnsController.commands_hostLink]; rfl)
    · exact tidy_runAll (by rw [NetnsController.commands_forward]; rfl)
  · have hsimple : x.req.topology = .simple := by
      cases ht : x.req.topology with
      | simple => rfl
      | gateway => exact absurd ht htop
    rw [Pipeline.setupTopology, hsimple]
    refine only_bind (fun _ => ?_) (tidy_createNetns c _)
    show Only (Req.tidy x) (NetnsController.runAll
      (c.vethArgvs (deriveNames x.testId).netns x.vethHost "veth-nse" ["10.0.0.1/24"] ["10.0.0.2/24"]))
    exact tidy_runAll (by rw [NetnsController.commands_veth]; rfl)

theorem tidy_teardown : Only (Req.tidy x) (Pipeline.teardown x.req x.testId) := by
  have hlinkDel : Only (Req.tidy x) (Pipeline.deleteHostVeth (deriveNames x.testId).vethHost) := by
    refine only_bind (fun _ => only_ret) (only_request ⟨by rintro n ⟨⟩, ?_⟩)
    rintro n - ⟨⟩
    rfl
  refine only_bind (fun procs => only_bind (fun _ => only_bind (fun _ => hlinkDel) ?_) ?_) (only_request trivial)
  · refine only_forEach fun n hn => NetnsController.asks_destroyNetns ⟨?_, by rintro m - ⟨⟩⟩ (fun _ => trivial) trivial
    rintro m ⟨⟩
    exact hn
  · exact only_forEach fun proc _ => only_mono (fun _ h => h.tidy) (inside_stopListener (m := true) x.req x.testId proc)

variable [U : PyStr.Unicode]

theorem tidy_runWith (c : NetnsController) : Only (Req.tidy x) (Pipeline.runWith x.cfg x.req x.testId c) := by
  have hinside : ∀ {α : Type} {y : Prog α}, Only (Req.insideOf x.req x.testId c.useNsenter) y → Only (Req.tidy x) y :=
    fun hy => only_mono (fun _ h => h.tidy) hy
  refine only_bind (fun early => ?_) (only_request trivial)
  refine only_bind (fun early => ?_) (only_tryFinally tidy_teardown (only_tryCatch (fun e => ?_) ?_))
  · cases early with
    | some ref => exact trivial
    | none => exact hinside (inside_result x.req x.testId)
  · exact hinside (inside_handle x.req x.testId e)
  · exact only_bind (fun _ => hinside (inside_setUp c x.cfg x.req x.testId)) (tidy_setupTopology c)

abbrev OrderedTidy {α : Type} (x : RunCall) (linked : Bool) (y : Prog α) : Prop :=
  Obeys (fun linked a => Allowed x linked a ∧ a.tidy x) linkedAfter linked y

theorem prog_given {c : NetnsController} (hgiven : x.source = .given c) :
    x.prog = Pipeline.runWith x.cfg x.req x.testId c := by
  rw [RunCall.prog, hgiven]
  rfl

theorem orderedTidy_prog {c : NetnsController} (hgiven : x.source = .given c) : OrderedTidy x false x.prog := by
  apply obeys_and_only (ordered_prog x false)
  rw [prog_given hgiven]
  exact tidy_runWith c

variable {env : Env} {r : Caller} {h₀ : Host (Option Caller)}

theorem keeping_answer {linked : Bool} {s s' : Stage} {a : Req} {reply : Except PyExc (Reply a)}
    (ha : Allowed x linked a ∧ a.tidy x) (hk : Keeping x r h₀ linked s) (hr : (hosted env x r).answer s a reply s') :
    Keeping x r h₀ (linkedAfter linked a reply) s' := by
  refine keeping_replies ha.1 ?_ hk hr
  rintro c rfl
  exact ha.2

omit U in
theorem empty_of_clear (hstart : Clear x r h₀) : (h₀.part (ours r)).spaces = [] ∧ (h₀.part (ours r)).pairs = [] := by
  constructor
  · exact List.filter_eq_nil_iff.mpr fun sp hsp ho => hstart.spaces sp hsp (owners_ours.mp ho)
  · exact List.filter_eq_nil_iff.mpr fun p hp ho => hstart.pairs p hp (owners_ours.mp ho)

omit U in
/-- The run begins with nothing. -/
theorem own_start (hstart : Clear x r h₀) : h₀.part (ours r) = {} := by
  obtain ⟨hspaces, hpairs⟩ := empty_of_clear hstart
  have hfixed : (h₀.part (ours r)).fixed = [] := rfl
  have hends : (h₀.part (ours r)).ends = [] := by
    rw [Host.ends, hspaces, hpairs, hfixed]
    rfl
  refine Host.ext_of hspaces hpairs hfixed ?_
  show h₀.routes.filter (fun rt => (h₀.part (ours r)).has rt.stack rt.dev) = []
  rw [List.filter_eq_nil_iff]
  intro rt _
  rw [Host.has, hends]
  exact Bool.false_ne_true

omit U in
theorem keeping_start (hstart : Clear x r h₀) : Keeping x r h₀ false { host := h₀ } := by
  obtain ⟨hspaces, hpairs⟩ := empty_of_clear hstart
  have hours := own_start hstart
  have htheirs : h₀.part (theirs r) = h₀ := by
    apply Host.part_of_empty hstart.sound
    · rw [Side.other_other]
      exact hspaces
    · rw [Side.other_other]
      exact hpairs
    · rfl
  refine ⟨hstart.sound, ?_, ?_, fun hl => (by cases hl), ?_⟩
  · rw [hours]
    refine ⟨⟨?_, ?_, ?_, ?_⟩, fun n o hmem => (by cases hmem), ?_⟩ <;> intro _ hmem <;> cases hmem
  · rw [htheirs]
    exact ⟨hstart.sound, hstart.netns, hstart.link⟩
  · rw [htheirs]
    rfl

theorem keeping_steps {c : NetnsController} (hgiven : x.source = .given c) (hstart : Clear x r h₀)
    {p : Prog Pipeline.ListRef} {s : Stage}
    (hrun : Steps (hosted env x r) (x.prog, { host := h₀ }) (p, s)) : ∃ linked, Keeping x r h₀ linked s := by
  have hanswer : ∀ linked s a reply s', Allowed x linked a ∧ a.tidy x → Keeping x r h₀ linked s →
      (hosted env x r).answer s a reply s' → Keeping x r h₀ (linkedAfter linked a reply) s' :=
    fun _ _ _ _ _ => keeping_answer
  obtain ⟨linked, -, hk⟩ :=
    obeys_steps (fun _ => keeping_stable) hanswer (orderedTidy_prog hgiven) (keeping_start hstart) hrun
  exact ⟨linked, hk⟩

/-- At every moment, the others' part of the host is what their own commands would have made of
    the host without the run. -/
theorem isolated {c : NetnsController} (hgiven : x.source = .given c) (hstart : Clear x r h₀)
    {p : Prog Pipeline.ListRef} {s t : Stage}
    (hrun : Steps (attended env x r) (x.prog, { host := h₀ }) (p, s)) (hafter : After (hosted env x r) s t) :
    Deed.performed h₀ t.deeds = some (t.host.part (theirs r)) := by
  obtain ⟨linked, hk⟩ := keeping_steps hgiven hstart (projects_unrestricted.steps hrun)
  exact ((keeping_stable.after hafter) hk).told

end Run

/-! ## Schedules -/

/-- The host after a reply that fits it. -/
def hostAfter (r : Caller) (h : Host (Option Caller)) : (a : Req) → Except PyExc (Reply a) →
    Option (Host (Option Caller))
  | .run c, .ok done =>
    if done.returncode = 0 then h.perform (some r) (commandOf c.argv).1 (commandOf c.argv).2
      else if c.check then none else some h
  | _, _ => some h

theorem reacts_hostAfter {r : Caller} {h h' : Host (Option Caller)} {a : Req} {reply : Except PyExc (Reply a)}
    (hafter : hostAfter r h a reply = some h') : Reacts (some r) h a reply h' := by
  cases a with
  | run c =>
    cases reply with
    | ok done =>
      obtain ⟨code, stdout, stderr⟩ := done
      simp only [hostAfter] at hafter
      split at hafter
      · rename_i hcode
        cases hcode
        exact .done stdout stderr hafter
      · split at hafter
        · cases hafter
        · rename_i hcode hcheck
          cases hafter
          exact .failed stdout stderr (Bool.eq_false_iff.mpr hcheck) hcode
    | error e =>
      cases hafter
      exact .raised e
  | _ =>
    cases hafter
    exact .answered _ (by simp)

instance (side : Side (Option Caller)) (h : Host (Option Caller)) (stack : Option String) (a : Act) :
    Decidable (h.Within side stack a) :=
  decidable_of_iff ((h.part side).hasStack stack = true ∧
      (∀ n ∈ a.spaceNames, (h.part side.other).hasSpace n = false ∧
        ∀ e ∈ (h.part side.other).ends, e.touches n = false) ∧
      ∀ dev ∈ a.linkNames, (h.part side.other).has stack dev = false)
    ⟨fun h => ⟨h.1, h.2.1, h.2.2⟩, fun h => ⟨h.here, h.spaces, h.links⟩⟩

instance (x : RunCall) (r : Caller) (h : Host (Option Caller)) (d : Deed) : Decidable (Apart x r h d) :=
  decidable_of_iff (d.who ≠ some r ∧ h.Within (theirs r) d.stack d.act ∧
      (∀ n ∈ d.act.newSpaces, n ∉ Pipeline.namespaces x.req x.testId) ∧ (d.stack = none → x.vethHost ∉ d.act.newLinks))
    ⟨fun h => ⟨h.1, h.2.1, h.2.2.1, h.2.2.2⟩, fun h => ⟨h.who, h.within, h.netns, h.link⟩⟩

section Schedule

variable [U : PyStr.Unicode]

/-- A schedule of the world. -/
def staged (env : Env) (x : RunCall) (r : Caller) (reply : Stage → (a : Req) → Except PyExc (Reply a))
    (before : Stage → Req → List Happening) : Script Req Reply PyExc Stage Happening where
  answer s a reply :=
    if allows env s.st a reply then (hostAfter r s.host a reply).map fun h' =>
      { s with st := effect env s.st a reply, host := h' }
    else none
  event s
    | .ev e => (event env s.st e).map fun t => { s with st := t }
    | .deed d =>
      if Apart x r s.host d then
        (s.host.perform d.who d.stack d.act).map fun h' => { s with host := h', deeds := s.deeds ++ [d] }
      else none
  parked s := parked env s.st
  reply := reply
  before := before

theorem staged_fits {env : Env} {x : RunCall} {r : Caller} {reply : Stage → (a : Req) → Except PyExc (Reply a)}
    {before : Stage → Req → List Happening} : (staged env x r reply before).Fits (hosted env x r) where
  answer s a reply s' h := by
    simp only [staged] at h
    split at h
    · obtain ⟨h', hafter, rfl⟩ := Option.map_eq_some_iff.mp h
      exact .reply ‹_› (reacts_hostAfter hafter)
    · cases h
  event s e s' h := by
    cases e with
    | ev e =>
      obtain ⟨t, ht, rfl⟩ := Option.map_eq_some_iff.mp h
      exact .ev ht
    | deed d =>
      simp only [staged] at h
      split at h
      · obtain ⟨h', hperform, rfl⟩ := Option.map_eq_some_iff.mp h
        exact .deed ‹_› hperform
      · cases h
  parked _ _ h := h

/-- Success, as far as the host lets it. -/
def hostReply (r : Caller) (s : Stage) : (a : Req) → Except PyExc (Reply a)
  | .run c =>
    match s.host.perform (some r) (commandOf c.argv).1 (commandOf c.argv).2 with
    | some _ => obligingReply s.st (.run c)
    | none =>
      if c.check then .error { cls := .calledProcessError, text := "exit status 1" }
      else .ok { returncode := 1, stdout := "", stderr := "Cannot find device" }
  | a => obligingReply s.st a

/-- What others do, at the request after this many commands, beside what the monitor does. -/
def meanwhileDone (deeds : List (Nat × Deed)) (s : Stage) (a : Req) : List Happening :=
  (match a with
  | .run _ => (deeds.filter fun d => d.1 == s.st.cmds.length).map fun d => .deed d.2
  | _ => []) ++ (obligingEvents s.st a).map .ev

end Schedule

attribute [local instance] PyStr.Unicode.ascii

/-- Somebody makes a namespace with a link, and keeps a link of the run's peer name. -/
def labDeeds : List (Nat × Deed) :=
  [(1, ⟨none, none, .netnsAdd "lab"⟩), (2, ⟨none, none, .linkAdd "lab0" "lab1"⟩),
    (5, ⟨none, none, .linkMove "lab1" "lab"⟩),
    (5, ⟨none, some "lab", .linkUp "lab1"⟩)]

def labCall : RunCall := callOf "a1b2c3d4e5f6" (.given { useNsenter := false })

/-- Beside the lab, and attended. -/
def besideLab [PyStr.Unicode] (x : RunCall) : Script Req Reply PyExc Stage Happening :=
  (staged {} x .first (hostReply .first) (meanwhileDone labDeeds)).guarded (fun s a reply => !abandons s.st a reply)
    fun _ _ => true

theorem besideLab_fits [PyStr.Unicode] {x : RunCall} : (besideLab x).Fits (attended {} x .first) :=
  staged_fits.guarded (fun _ _ _ h => by simpa [Attended] using h) fun _ _ _ => trivial

theorem bareHost_clear : Clear labCall .first bareHost where
  sound :=
    ⟨by simp [bareHost, Host.Live], by simp [bareHost], by simp [bareHost], by simp [bareHost, Host.Placed, Host.seats]⟩
  spaces := by simp [bareHost]
  pairs := by simp [bareHost]
  netns _ _ := rfl
  link := by decide +kernel

/-- Both pairs are there, the run's and the lab's. -/
theorem isolated_sample : ∃ p s, Steps (attended {} labCall .first) (labCall.prog, { host := bareHost }) (p, s) ∧
    (s.host.pairs.length = 2 ∧ s.deeds.length = 4) ∧ Deed.performed bareHost s.deeds =
      some (s.host.part (theirs .first)) := by
  have hplay : Script.waiting (fun _ s => s.host.pairs.length == 2 && s.deeds.length == 4)
      ((besideLab labCall).play 20 labCall.prog { host := bareHost }) = true := by
    decide +kernel
  obtain ⟨a, k, s, hrun, hp⟩ := Script.waiting_steps besideLab_fits hplay
  simp only [Bool.and_eq_true, beq_iff_eq] at hp
  exact ⟨.ask a k, s, hrun, hp, isolated rfl bareHost_clear hrun .refl⟩

end Nse
