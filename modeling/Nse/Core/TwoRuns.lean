/-
  Nse.Core.TwoRuns — what two runs on one host do to each other.

  A command is `Undisturbed` when it names nothing of the other run, leaves what the other run
  has as it is, and is accepted wherever it would be accepted without that.

  As built a run is disturbed by another one: a startup sweep deletes the namespaces and links
  of live runs (`a_live_run_swept`). Commands are courteous when no sweep deletes what the
  other live run has, no run makes a link to `veth-nse` while that name is taken by the other's
  in the root stack, and no run adds its transit routes while the other's are there.
  `undisturbed`: where the first eight characters of the ids differ, courteous runs never
  disturb each other, in whatever order their commands come.
-/

import Nse.Core.Callers
import Nse.Core.Rehearsal

namespace Nse

open Coroutine
open NetHost (Act End Host Seat)

/-! ## The property -/

/-- What a command of `r` does beside the other caller's live run. -/
structure Undisturbed (h : Host (Option Caller)) (r : Caller) (argv : List Arg) : Prop where
  names : h.Spares (some r.other) (commandOf argv).1 (commandOf argv).2
  kept : ∀ h', h.perform (some r) (commandOf argv).1 (commandOf argv).2 = some h' →
    h'.belongings (some r.other) = h.belongings (some r.other)
  accepted : ∀ h₁, (h.without (some r.other)).perform (some r) (commandOf argv).1 (commandOf argv).2 = some h₁ →
    ∃ h₂, h.perform (some r) (commandOf argv).1 (commandOf argv).2 = some h₂

/-- No command about to be run beside a live run disturbs it or is disturbed by it. -/
def NoDisturbance (s : Two) : Prop :=
  ∀ r c k, s.prog r = .ask (.run c) k → s.isLive r.other → Undisturbed s.host r c.argv

/-! ## Courtesy -/

section Courtesy

variable (calls : Caller → RunCall)

/-- What is asked of a command of `r` beside the other caller's live run. -/
structure Courteous (h : Host (Option Caller)) (r : Caller) (argv : List Arg) : Prop where
  /-- Deletions other than of its own: those of a startup sweep. -/
  sweptNetns : ∀ n, commandOf argv = (none, .netnsDel n) → ¬(calls r).ofRun n →
    (n, some r.other) ∉ h.titles ∧ ∀ e ∈ h.endsOf (some r.other), e.touches n = false
  sweptLink : ∀ n, commandOf argv = (none, .linkDel n) → n ≠ (calls r).vethHost →
    ∀ e ∈ h.endsOf (some r.other), e.at none n = false
  peer : ∀ near, commandOf argv = (none, .linkAdd near "veth-nse") → ∀ e ∈ h.endsOf (some r.other),
    e.at none "veth-nse" = false
  routes : ∀ v6 dest via dev d, commandOf argv = (none, .routeAdd v6 dest via dev) →
    NetHost.parseDest v6 dest = some d →
    ∀ x ∈ h.routes, x.stack = none → x.dest.same d = true → ∀ e ∈ h.endsOf (some r.other), e.at none x.dev = false

/-- So are the commands about to be run. -/
def AllCourteous (s : Two) : Prop :=
  ∀ r c k, s.prog r = .ask (.run c) k → s.isLive r.other → Courteous calls s.host r c.argv

/-- The names of two calls are told apart by the first eight characters of their ids. -/
def ToldApart : Prop := PyStr.take 8 (calls .first).testId ≠ PyStr.take 8 (calls .second).testId

end Courtesy

/-! ## Names -/

section Names

variable {calls : Caller → RunCall}

theorem toldApart_other (h : ToldApart calls) (r : Caller) :
    PyStr.take 8 (calls r).testId ≠ PyStr.take 8 (calls r.other).testId := by
  cases r with
  | first => exact h
  | second => exact Ne.symm h

theorem ofRun_cases {x : RunCall} {n : String} (h : x.ofRun n) :
    n = "nse_" ++ x.testId ∨ n = "nsr_" ++ x.testId ∨ n = "nss_" ++ x.testId := by
  unfold RunCall.ofRun OfRun Pipeline.namespaces at h
  dsimp only at h
  split at h
  · simp only [List.mem_cons, List.not_mem_nil, or_false] at h
    exact .inr h
  · exact .inl (List.mem_singleton.mp h)

theorem namespaces_apart (h : ToldApart calls) {r : Caller} {n : String} (hn : (calls r).ofRun n) :
    ¬(calls r.other).ofRun n := by
  intro ho
  have hids : (calls r).testId ≠ (calls r.other).testId := fun heq => toldApart_other h r (by rw [heq])
  rcases ofRun_cases hn with rfl | rfl | rfl <;> rcases ofRun_cases ho with heq | heq | heq <;>
    have hchars := congrArg String.toList heq <;>
    simp [String.toList_append, String.toList_inj, hids] at hchars

theorem vethHost_apart (h : ToldApart calls) (r : Caller) : ¬(calls r.other).rootLink (calls r).vethHost := by
  have hids := toldApart_other h r
  intro hlink
  rcases hlink with heq | heq
  · have hchars := congrArg String.toList heq
    simp [RunCall.vethHost, deriveNames, String.toList_append, String.toList_inj, hids] at hchars
  · split at heq <;> have hchars := congrArg String.toList heq <;>
      simp [RunCall.vethHost, deriveNames, String.toList_append] at hchars

theorem vethPeer_apart (h : ToldApart calls) {r : Caller} (hne : (calls r).vethPeer ≠ "veth-nse") :
    ¬(calls r.other).rootLink (calls r).vethPeer := by
  have hids := toldApart_other h r
  unfold RunCall.vethPeer at hne ⊢
  split at hne
  · rename_i htop
    rw [if_pos htop]
    intro hlink
    rcases hlink with heq | heq
    · have hchars := congrArg String.toList heq
      simp [deriveNames, String.toList_append] at hchars
    · split at heq <;> have hchars := congrArg String.toList heq <;>
        simp [deriveNames, String.toList_append, String.toList_inj, hids] at hchars
  · exact absurd rfl hne

end Names

/-! ## What the two have -/

/-- An interface of this call: in the root stack it has one of the call's names there and the
    addresses of a host's end, elsewhere it is in one of the call's namespaces. -/
structure Fits (x : RunCall) (e : End) : Prop where
  root : e.stack = none → x.rootLink e.name ∧ ∀ addr ∈ e.addrs, addr ∈ rootAddresses
  inside : ∀ n, e.stack = some n → x.ofRun n

theorem fits_inside {x : RunCall} {e : End} {n : String} (hstack : e.stack = some n) (hn : x.ofRun n) : Fits x e where
  root hroot := absurd (hroot.symm.trans hstack) (by simp)
  inside m hm := by
    rw [Option.some.inj (hm.symm.trans hstack)]
    exact hn

/-- The other end of the host link of `r` is in the root stack. -/
structure LinkHeld (calls : Caller → RunCall) (r : Caller) (h : Host (Option Caller)) : Prop where
  mine : ∃ s ∈ h.seats, s.owner = some r ∧ s.any (· == (none, (calls r).vethPeer)) = true
  notOthers : ∀ e ∈ h.endsOf (some r.other), e.at none (calls r).vethPeer = false

/-- Each caller's namespaces and interfaces are its own. -/
structure OwnOnly (calls : Caller → RunCall) (h : Host (Option Caller)) : Prop where
  titles : ∀ r n, (n, some r) ∈ h.titles → (calls r).ofRun n
  ends : ∀ r, ∀ e ∈ h.endsOf (some r), Fits (calls r) e

section Command

variable {calls : Caller → RunCall} {h : Host (Option Caller)} {r : Caller} {linked : Bool}
    {stack : Option String} {a : Act}

theorem not_in_stack {e : End} {n d : String} (h : e.touches n = false) : e.at (some n) d = false := by
  rw [End.touches] at h
  rw [End.at, h, Bool.false_and]

theorem OwnOnly.notThere (ho : OwnOnly calls h) (hnames : ToldApart calls) {n : String} (hn : (calls r).ofRun n) :
    (n, some r.other) ∉ h.titles ∧ ∀ e ∈ h.endsOf (some r.other), e.touches n = false := by
  have hapart := namespaces_apart hnames hn
  constructor
  · exact fun htitle => hapart (ho.titles r.other n htitle)
  · intro e he
    rw [Bool.eq_false_iff]
    intro htouches
    exact hapart ((ho.ends r.other e he).inside n (beq_iff_eq.mp htouches))

theorem OwnOnly.notNamed (ho : OwnOnly calls h) {d : String} (hd : ¬(calls r.other).rootLink d) :
    ∀ e ∈ h.endsOf (some r.other), e.at none d = false := by
  intro e he
  rw [Bool.eq_false_iff]
  intro hat
  rw [End.at, Bool.and_eq_true] at hat
  apply hd
  rw [← beq_iff_eq.mp hat.2]
  exact ((ho.ends r.other e he).root (beq_iff_eq.mp hat.1)).1

theorem spares_links {o : Option Caller} (hspaces : a.spaceNames = [])
    (hlinks : ∀ d ∈ a.linkNames, ∀ e ∈ h.endsOf o, e.at stack d = false) : h.Spares o stack a :=
  ⟨by simp [hspaces], hlinks⟩

/-- A command that a run may run names nothing of the other, if it is courteous. -/
theorem spares_mayRun (hnames : ToldApart calls) (ho : OwnOnly calls h) (hheld : linked = true → LinkHeld calls r h)
    {argv : List Arg} (hargv : commandOf argv = (stack, a)) (hc : Courteous calls h r argv)
    (hmay : MayRun (calls r) linked stack a) : h.Spares (some r.other) stack a := by
  have hhost := ho.notNamed (vethHost_apart hnames r)
  have hinside : ∀ {n : String}, (calls r).ofRun n → ∀ d, ∀ e ∈ h.endsOf (some r.other), e.at (some n) d = false :=
    fun hn d e he => not_in_stack ((ho.notThere hnames hn).2 e he)
  cases hmay with
  | @netnsAdd n hn => exact ⟨List.forall_mem_singleton.mpr (ho.notThere hnames hn), by simp [Act.linkNames]⟩
  | @netnsDel n =>
    refine ⟨List.forall_mem_singleton.mpr ?_, by simp [Act.linkNames]⟩
    by_cases hn : (calls r).ofRun n
    · exact ho.notThere hnames hn
    · exact hc.sweptNetns n hargv hn
  | @linkDel n =>
    refine spares_links rfl (List.forall_mem_singleton.mpr ?_)
    by_cases hn : n = (calls r).vethHost
    · rw [hn]
      exact hhost
    · exact hc.sweptLink n hargv hn
  | linkAdd =>
    apply spares_links rfl
    intro d hd
    simp only [Act.linkNames, List.mem_cons, List.not_mem_nil, or_false] at hd
    rcases hd with rfl | rfl
    · exact hhost
    · by_cases hpeer : (calls r).vethPeer = "veth-nse"
      · rw [hpeer] at hargv ⊢
        exact hc.peer _ hargv
      · exact ho.notNamed (vethPeer_apart hnames hpeer)
  | linkMove hlinked hn =>
    exact ⟨List.forall_mem_singleton.mpr (ho.notThere hnames hn),
      List.forall_mem_singleton.mpr (hheld hlinked).notOthers⟩
  | linkUp => exact spares_links rfl (List.forall_mem_singleton.mpr hhost)
  | addrAdd _ => exact spares_links rfl (List.forall_mem_singleton.mpr hhost)
  | routeAdd v6 => exact spares_links rfl (List.forall_mem_singleton.mpr hhost)
  | other => exact spares_links rfl (by simp [Act.linkNames])
  | linkAddInside hn => exact spares_links rfl fun d _ => hinside hn d
  | linkMoveInside hn hm => exact ⟨List.forall_mem_singleton.mpr (ho.notThere hnames hm), fun d _ => hinside hn d⟩
  | linkUpInside hn => exact spares_links rfl fun d _ => hinside hn d
  | addrAddInside hn => exact spares_links rfl fun d _ => hinside hn d
  | routeAddInside hn => exact spares_links rfl fun d _ => hinside hn d

/-- No address of a host's end is a transit gateway or lies in a transit network. -/
theorem rootAddresses_apart (v6 : Bool) : ∀ s ∈ rootAddresses.filterMap IpAddress.parseSubnet,
    (s.v6 == v6 && s.addr == (nearSubnets 2 v6).addr) = false ∧
      (!s.v6 && s.same (NetnsController.transit v6)) = false := by
  have hall : ((rootAddresses.filterMap IpAddress.parseSubnet).all fun s =>
      !(s.v6 == v6 && s.addr == (nearSubnets 2 v6).addr) &&
      !(!s.v6 && s.same (NetnsController.transit v6))) = true := by
    cases v6 <;> decide +kernel
  intro s hs
  have hs := List.all_eq_true.mp hall s hs
  rw [Bool.and_eq_true, Bool.not_eq_true', Bool.not_eq_true'] at hs
  exact hs

theorem routable_mayRun (hnames : ToldApart calls) (ho : OwnOnly calls h) {argv : List Arg}
    (hargv : commandOf argv = (stack, a))
    (hc : Courteous calls h r argv) (hmay : MayRun (calls r) linked stack a) : h.Routable (some r.other) stack a := by
  intro v6 dest via dev d n ha hd hn
  subst ha
  cases hmay with
  | routeAdd v6 =>
    have htransit : NetHost.parseDest v6 (NetnsController.transitText v6) = some (NetnsController.transit v6) := by
      cases v6 <;> decide +kernel
    have hgateway :
        IpAddress.plainAddress (NetnsController.hostPart (({} : NetnsController.GatewayAddresses).routerHost v6)) =
        some (v6, (nearSubnets 2 v6).addr) := by
      cases v6 <;> decide +kernel
    cases htransit.symm.trans hd
    cases hgateway.symm.trans hn
    constructor
    · intro x hx hstack hsame e he
      rw [hstack]
      exact hc.routes _ _ _ _ _ hargv htransit x hx hstack hsame e he
    · intro e he hstack s hs
      apply rootAddresses_apart v6 s
      obtain ⟨addr, haddr, hparse⟩ := List.mem_filterMap.mp hs
      exact List.mem_filterMap.mpr ⟨addr, ((ho.ends r.other e he).root hstack).2 addr haddr, hparse⟩
  | routeAddInside hin =>
    have hthere := (ho.notThere hnames hin).2
    constructor
    · intro x hx hstack hsame e he
      rw [hstack]
      exact not_in_stack (hthere e he)
    · intro e he hstack
      have htouches := hthere e he
      rw [End.touches, hstack, beq_self_eq_true] at htouches
      cases htouches

/-- One command of a run beside the other. -/
theorem undisturbed_command (hnames : ToldApart calls) (ho : OwnOnly calls h)
    (hheld : linked = true → LinkHeld calls r h)
    {argv : List Arg} (hc : Courteous calls h r argv)
      (hmay : MayRun (calls r) linked (commandOf argv).1 (commandOf argv).2) :
    Undisturbed h r argv := by
  have hspares := spares_mayRun hnames ho hheld rfl hc hmay
  have hne : some r ≠ some r.other := by cases r <;> decide
  exact ⟨hspares, fun h' hperform => Host.belongings_perform hne hspares hperform,
    fun h₁ hperform => Host.accepted_of_without hspares (routable_mayRun hnames ho rfl hc hmay) hperform⟩

/-! ## What a command leaves -/

variable {h' : Host (Option Caller)}

theorem keeps_mayRun (hnames : ToldApart calls) (hheld : linked = true → LinkHeld calls r h)
    (hmay : MayRun (calls r) linked stack a) (q : Caller) :
    Host.Keeps (Fits (calls q)) (some r = some q) (h.endsOf (some q)) stack a := by
  -- nothing of the other is in a namespace of this call
  have hinside : ∀ {n m : String} {e : End}, (calls r).ofRun n → (calls r).ofRun m →
      e.stack = some n → Fits (calls q) e →
      (calls q).ofRun m := by
    intro n m e hn hm hstack hfits
    rcases Caller.eq_or_other q r with rfl | rfl
    · exact hm
    · exact absurd (hfits.inside n hstack) (namespaces_apart hnames hn)
  have hnew : ∀ {n name : String}, (calls r).ofRun n → some r = some q → Fits (calls q) { name, stack := some n } := by
    intro n name hn hq
    cases hq
    exact fits_inside rfl hn
  cases hmay with
  | netnsAdd hn => exact hnew hn
  | netnsDel => trivial
  | linkDel => trivial
  | linkAdd =>
    intro hq
    cases hq
    exact ⟨⟨fun _ => ⟨.inl rfl, by simp⟩, by simp⟩, ⟨fun _ => ⟨.inr rfl, by simp⟩, by simp⟩⟩
  | linkMove hlinked hn =>
    intro e he hat hfits
    rcases Caller.eq_or_other q r with rfl | rfl
    · exact fits_inside rfl hn
    · rw [(hheld hlinked).notOthers e he] at hat
      cases hat
  | linkUp => exact fun e _ _ hfits => ⟨hfits.root, hfits.inside⟩
  | addrAdd haddr =>
    intro e _ _ hfits
    refine ⟨fun hstack => ⟨(hfits.root hstack).1, fun addr hmem => ?_⟩, hfits.inside⟩
    rcases List.mem_append.mp hmem with hmem | hmem
    · exact (hfits.root hstack).2 addr hmem
    · rw [List.mem_singleton.mp hmem]
      exact haddr
  | routeAdd v6 => trivial
  | other => trivial
  | linkAddInside hn => exact fun hq => ⟨hnew hn hq, hnew hn hq⟩
  | linkMoveInside hn hm =>
    intro e _ hat hfits
    exact fits_inside rfl (hinside hn hm (beq_iff_eq.mp (Bool.and_eq_true_iff.mp hat).1) hfits)
  | linkUpInside hn => exact fun e _ _ hfits => ⟨hfits.root, hfits.inside⟩
  | addrAddInside hn =>
    intro e _ hat hfits
    refine ⟨fun hstack => ?_, hfits.inside⟩
    have hin := beq_iff_eq.mp (Bool.and_eq_true_iff.mp hat).1
    rw [show e.stack = none from hstack] at hin
    cases hin
  | routeAddInside hn => trivial

theorem OwnOnly.perform (hnames : ToldApart calls) (ho : OwnOnly calls h) (hheld : linked = true → LinkHeld calls r h)
    (hmay : MayRun (calls r) linked stack a) (hperform : h.perform (some r) stack a = some h') : OwnOnly calls h' where
  ends q := Host.ends_perform (keeps_mayRun hnames hheld hmay q) (ho.ends q) hperform
  titles q n hmem := by
    rw [Host.titles_perform hperform] at hmem
    cases hmay with
    | netnsAdd hn =>
      rcases List.mem_cons.mp hmem with heq | hmem
      · cases heq
        exact hn
      · exact ho.titles q n hmem
    | netnsDel => exact ho.titles q n (List.mem_filter.mp hmem).1
    | _ => exact ho.titles q n hmem

/-- After `ip link add` in the root stack. -/
theorem linkHeld_made (hperform : h.perform (some r) none (.linkAdd (calls r).vethHost (calls r).vethPeer) = some h') :
    LinkHeld calls r h' where
  mine := by
    rw [Host.seats_perform hperform]
    exact ⟨_, List.mem_cons_self, rfl, by simp [Seat.any]⟩
  notOthers := by
    have hfree := (Host.free_of_linkAdd hperform).2
    have hbefore : ∀ e ∈ h.endsOf (some r.other), e.at none (calls r).vethPeer = false := by
      intro e he
      exact Bool.eq_false_iff.mpr (List.any_eq_false.mp hfree e (Host.mem_ends_of_endsOf he))
    apply Host.ends_perform _ hbefore hperform
    intro hq
    exact absurd (Option.some.inj hq) r.ne_other

/-- The link of the other is where it was. -/
theorem LinkHeld.beside (hheld : LinkHeld calls r.other h) (hmay : MayRun (calls r) linked stack a)
    (hperform : h.perform (some r) stack a = some h') (hkept : h'.belongings (some r.other) =
      h.belongings (some r.other)) :
    LinkHeld calls r.other h' where
  mine := by
    obtain ⟨s, hs, howner, hany⟩ := hheld.mine
    exact ⟨s, Host.seat_kept hkept hs howner, howner, hany⟩
  notOthers := by
    have hbefore := hheld.notOthers
    rw [Caller.other_other] at hbefore ⊢
    have hpair : h.hasPair none (calls r.other).vethPeer = true := by
      obtain ⟨s, hs, -, hany⟩ := hheld.mine
      rw [Host.hasPair_eq]
      exact List.any_eq_true.mpr ⟨s, hs, hany⟩
    apply Host.ends_perform _ hbefore hperform
    cases hmay with
    | linkAdd =>
      -- the host has made no second interface of that name
      have hother : ∀ name, h.has none name = false → name ≠ (calls r.other).vethPeer := by
        rintro name hname rfl
        rw [Host.hasPair_of_has hname] at hpair
        cases hpair
      obtain ⟨hnear, hfar⟩ := Host.free_of_linkAdd hperform
      intro _
      simp [End.at, hother _ hnear, hother _ hfar]
    | netnsAdd _ => exact fun _ => rfl
    | linkMove _ _ => exact fun _ _ _ _ => rfl
    | linkUp => exact fun _ _ _ hat => hat
    | addrAdd _ => exact fun _ _ _ hat => hat
    | linkAddInside _ => exact fun _ => ⟨rfl, rfl⟩
    | linkMoveInside _ _ => exact fun _ _ _ _ => rfl
    | linkUpInside _ => exact fun _ _ _ hat => hat
    | addrAddInside _ => exact fun _ _ _ hat => hat
    | _ => trivial

end Command

/-! ## Runs -/

section Runs

variable [U : PyStr.Unicode] {calls : Caller → RunCall}

structure InOrder (calls : Caller → RunCall) (linked : Caller → Bool) (s : Two) : Prop where
  own : OwnOnly calls s.host
  ordered : ∀ r, Ordered (calls r) (linked r) (s.prog r)
  held : ∀ r, s.isLive r → linked r = true → LinkHeld calls r s.host

theorem inOrder_start {h : Host (Option Caller)} (hh : Unowned h) :
    InOrder calls (fun _ => false) (Two.start h calls) where
  own := ⟨fun r n htitle => absurd htitle (hh.titles r n), fun r e he => by
    rw [show (Two.start h calls).host = h from rfl, hh.ends r] at he
    cases he⟩
  ordered r := ordered_prog (calls r) false
  held r _ hlinked := by cases hlinked

omit U in
/-- A link that has just been made was made on this host. -/
theorem linkHeld_reacts {r : Caller} {linked : Bool} {h h' : Host (Option Caller)} {a : Req}
    {reply : Except PyExc (Reply a)}
    (hallowed : Allowed (calls r) linked a) (hheld : linked = true → LinkHeld calls r h)
      (hreacts : Reacts (some r) h a reply h')
    (hlinked : linkedAfter linked a reply = true) : LinkHeld calls r h' := by
  have hmade : ∀ {c : Cmd}, Allowed (calls r) linked (.run c) → isRootAdd (commandOf c.argv) = true →
      h.perform (some r) (commandOf c.argv).1 (commandOf c.argv).2 = some h' → LinkHeld calls r h' := by
    intro c hallowed hadd hperform
    have hmay : MayRun (calls r) linked (commandOf c.argv).1 (commandOf c.argv).2 := hallowed
    rcases hcommand : commandOf c.argv with ⟨stack, act⟩
    rw [hcommand] at hmay hadd hperform
    cases hmay with
    | linkAdd => exact linkHeld_made hperform
    | @other stack => cases stack <;> cases hadd
    | _ => cases hadd
  cases hreacts with
  | done stdout stderr hperform =>
    exact hmade hallowed (Bool.and_eq_true_iff.mp hlinked).2 hperform
  | failed stdout stderr hcheck hcode =>
    rw [linkedAfter, hcheck] at hlinked
    cases hlinked
  | raised e => cases hlinked
  | cutShort e hperform => cases hlinked
  | answered reply hrun =>
    apply hheld
    cases a with
    | run c => exact absurd rfl (hrun c)
    | _ => exact hlinked

omit U in
/-- One answer, given to a courteous request. -/
theorem inOrder_step (hnames : ToldApart calls) {linked : Caller → Bool} {s s' : Two} (hs : InOrder calls linked s)
    (hstep : TwoStep (Courteous calls) s s') : ∃ linked', InOrder calls linked' s' := by
  obtain ⟨hask, hreacts, hcourteous⟩ := hstep
  rename_i r a k reply h'
  have hordered := hs.ordered r
  rw [hask] at hordered
  obtain ⟨hallowed, hnext⟩ := hordered
  have hlive : s.isLive r := ⟨a, k, hask⟩
  refine ⟨fun q => if q = r then linkedAfter (linked r) a reply else linked q, ?_, ?_, ?_⟩
  · rcases hreacts.host with rfl | ⟨c, rfl, hperform⟩
    · exact hs.own
    · exact hs.own.perform hnames (hs.held r hlive) hallowed hperform
  · intro q
    by_cases hq : q = r
    · subst hq
      simp only [if_true]
      exact hnext reply
    · simp only [if_neg hq]
      exact hs.ordered q
  · intro q hqlive hqlinked
    by_cases hq : q = r
    · subst hq
      simp only [if_true] at hqlinked
      exact linkHeld_reacts hallowed (hs.held q hlive) hreacts hqlinked
    · have hother : q = r.other := by
        rcases Caller.eq_or_other q r with h | h
        · exact absurd h hq
        · exact h
      subst hother
      simp only [if_neg hq] at hqlinked
      have hqlive' : s.isLive r.other := by
        simpa only [Two.isLive, if_neg hq] using hqlive
      have hheld := hs.held r.other hqlive' hqlinked
      rcases hreacts.host with rfl | ⟨c, rfl, hperform⟩
      · exact hheld
      · have hundisturbed := undisturbed_command hnames hs.own (hs.held r hlive) (hcourteous c rfl hqlive') hallowed
        exact hheld.beside hallowed hperform (hundisturbed.kept h' hperform)

theorem inOrder_steps (hnames : ToldApart calls) {h : Host (Option Caller)} (hh : Unowned h) {s : Two}
    (hsteps : TwoSteps (Courteous calls) (Two.start h calls) s) : ∃ linked, InOrder calls linked s := by
  induction hsteps with
  | refl => exact ⟨_, inOrder_start hh⟩
  | tail _ hstep ih =>
    obtain ⟨linked, hs⟩ := ih
    exact inOrder_step hnames hs hstep

/-- Courteous runs never disturb each other, in whatever order their commands come. -/
theorem undisturbed (hnames : ToldApart calls) {h : Host (Option Caller)} (hh : Unowned h) {s : Two}
    (hsteps : TwoSteps (Courteous calls) (Two.start h calls) s) (hcourteous : AllCourteous calls s) :
      NoDisturbance s := by
  obtain ⟨linked, hs⟩ := inOrder_steps hnames hh hsteps
  intro r c k hask hlive
  have hordered := hs.ordered r
  rw [hask] at hordered
  exact undisturbed_command hnames hs.own (hs.held r ⟨_, _, hask⟩) (hcourteous r c k hask hlive) hordered.1

end Runs

/-! ## As built -/

/-- The lines of `ip netns list`. -/
def netnsListing (h : Host (Option Caller)) : String := String.join (h.spaces.map fun s => s.name ++ "\n")

/-- Everything succeeds as far as the host lets it. -/
def kindly (r : Caller) (h : Host (Option Caller)) : (a : Req) → Option (Except PyExc (Reply a) × Host (Option Caller))
  | .run c => (h.perform (some r) (commandOf c.argv).1 (commandOf c.argv).2).map fun h' =>
      let listing := if c.argv = NetnsController.ip ["netns", "list"] then netnsListing h else ""
      (.ok { returncode := 0, stdout := listing, stderr := "" }, h')
  | .inContainer => some (.ok false, h)
  | .setStatus _ => some (.ok (), h)
  | .addActive _ => some (.ok (), h)
  | _ => none

/-- The next request of `r` is answered. -/
def Two.serve (r : Caller) (s : Two) : Two :=
  match s.prog r with
  | .ask a k =>
    match kindly r s.host a with
    | some (reply, h') => { host := h', prog := fun q => if q = r then k reply else s.prog q }
    | none => s
  | _ => s

/-- The command about to be run. -/
def pendingArgv {α : Type} : Prog α → Option (List Arg)
  | .ask (.run c) _ => some c.argv
  | _ => none

def hasNext {α : Type} : Prog α → Bool
  | .ask _ _ => true
  | _ => false

theorem live_of_hasNext {s : Two} {r : Caller} (h : hasNext (s.prog r) = true) : s.isLive r := by
  unfold hasNext at h
  split at h
  · exact ⟨_, _, by assumption⟩
  · cases h

theorem reacts_kindly {r : Caller} {h h' : Host (Option Caller)} {a : Req} {reply : Except PyExc (Reply a)}
    (hk : kindly r h a = some (reply, h')) : Reacts (some r) h a reply h' := by
  cases a with
  | run c =>
    obtain ⟨h₁, hperform, heq⟩ := Option.map_eq_some_iff.mp hk
    cases heq
    exact .done _ _ hperform
  | inContainer =>
    cases hk
    exact .answered _ (by simp)
  | setStatus st =>
    cases hk
    exact .answered _ (by simp)
  | addActive netns =>
    cases hk
    exact .answered _ (by simp)
  | _ => cases hk

theorem serve_steps {ok : Host (Option Caller) → Caller → List Arg → Prop} {r : Caller} {s : Two}
    (hok : ∀ argv, pendingArgv (s.prog r) = some argv → ok s.host r argv) : TwoSteps ok s (s.serve r) := by
  unfold Two.serve
  split
  · rename_i a k hask
    split
    · rename_i reply h' hk
      refine .single (.answer hask (reacts_kindly hk) ?_)
      rintro c rfl _
      exact hok c.argv (by rw [hask]; rfl)
    · exact .refl
  · exact .refl

theorem ask_of_pending {α : Type} {x : Prog α} {argv : List Arg} (h : pendingArgv x = some argv) :
    ∃ c k, x = .ask (.run c) k ∧ c.argv = argv := by
  unfold pendingArgv at h
  split at h
  · cases h
    exact ⟨_, _, rfl, rfl⟩
  · cases h

attribute [local instance] PyStr.Unicode.ascii

/-- A host with its loopback and nothing else. -/
def bareHost : Host (Option Caller) := { fixed := [{ name := "lo", stack := none, isUp := true }] }

theorem bareHost_unowned : Unowned bareHost where
  titles r n htitle := by
    cases htitle
  ends _ := rfl

def callOf (testId : String) (source : Source) : RunCall := { cfg := {}, req := sampleRequest, testId, source }

/-- The second caller leaves the controller to the run. -/
def oneOmitted : Caller → RunCall
  | .first => callOf "a1b2c3d4e5f6" (.given { useNsenter := false })
  | .second => callOf "0f9e8d7c6b5a" .omitted

/-- The first run has made its namespace, and the second has listed it. -/
def listed : Two := (((((Two.start bareHost oneOmitted).serve .first).serve .first).serve .second).serve .second)

theorem listed_pending :
    pendingArgv (listed.prog .second) = some (NetnsController.ip ["netns", "del", "nse_a1b2c3d4e5f6"]) := by
  decide +kernel

/-- The startup sweep of one run deletes the namespace of another that is live. -/
theorem a_live_run_swept : ¬ ∀ (calls : Caller → RunCall) (h : Host (Option Caller)) (s : Two),
    (calls .first).testId ≠ (calls .second).testId → Unowned h →
      TwoSteps (fun _ _ _ => True) (Two.start h calls) s → NoDisturbance s := by
  intro h
  have hsteps : TwoSteps (fun _ _ _ => True) (Two.start bareHost oneOmitted) listed :=
    (((serve_steps fun _ _ => trivial).trans (serve_steps fun _ _ => trivial)).trans
      (serve_steps fun _ _ => trivial)).trans
      (serve_steps fun _ _ => trivial)
  have hnone := h oneOmitted bareHost listed (by decide) bareHost_unowned hsteps
  obtain ⟨c, k, hask, hargv⟩ := ask_of_pending listed_pending
  have hlive : listed.isLive .first := live_of_hasNext (by decide +kernel)
  have hundisturbed := hnone .second c k hask hlive
  rw [hargv] at hundisturbed
  have hdeleted : ((listed.host.perform (some .second) none (.netnsDel "nse_a1b2c3d4e5f6")).map
      fun h' => (h'.belongings (some .first)).1) = some [] := by decide +kernel
  obtain ⟨h', hperform, hgone⟩ := Option.map_eq_some_iff.mp hdeleted
  have hkept := congrArg Prod.fst (hundisturbed.kept h' hperform)
  rw [show (h'.belongings (some (Caller.second.other))).1 = [] from hgone] at hkept
  revert hkept
  decide +kernel

/-- Both callers have a controller. -/
def bothGiven : Caller → RunCall
  | .first => callOf "a1b2c3d4e5f6" (.given { useNsenter := false })
  | .second => callOf "0f9e8d7c6b5a" (.given { useNsenter := true })

/-- The first run has made its namespace, the second is about to. -/
def halfway : Two := ((((Two.start bareHost bothGiven).serve .first).serve .first).serve .first).serve .second

/-- A command of which no courtesy is asked. -/
def harmless : Act → Bool
  | .netnsDel _ => false
  | .linkDel _ => false
  | .linkAdd _ _ => false
  | .routeAdd _ _ _ _ => false
  | _ => true

theorem courteous_harmless (calls : Caller → RunCall) (h : Host (Option Caller)) (r : Caller) {argv : List Arg}
    (hargv : harmless (commandOf argv).2 = true) : Courteous calls h r argv where
  sweptNetns n heq := by
    rw [heq] at hargv
    cases hargv
  sweptLink n heq := by
    rw [heq] at hargv
    cases hargv
  peer near heq := by
    rw [heq] at hargv
    cases hargv
  routes v6 dest via dev d heq := by
    rw [heq] at hargv
    cases hargv

/-- What `r` is about to run is harmless. -/
def harmlessNext (s : Two) (r : Caller) : Bool := (pendingArgv (s.prog r)).all fun argv => harmless (commandOf argv).2

theorem courteous_next {calls : Caller → RunCall} {s : Two} {r : Caller} (h : harmlessNext s r = true) (argv : List Arg)
    (hargv : pendingArgv (s.prog r) = some argv) : Courteous calls s.host r argv := by
  rw [harmlessNext, hargv] at h
  exact courteous_harmless calls s.host r h

theorem undisturbed_sample : NoDisturbance halfway := by
  have hnames : ToldApart bothGiven := (by decide +kernel : PyStr.take 8 "a1b2c3d4e5f6" ≠ PyStr.take 8 "0f9e8d7c6b5a")
  have hfirst : TwoSteps (Courteous bothGiven) (Two.start bareHost bothGiven)
      (((Two.start bareHost bothGiven).serve .first).serve .first) :=
    (serve_steps (courteous_next (by decide +kernel))).trans (serve_steps (courteous_next (by decide +kernel)))
  have hsteps : TwoSteps (Courteous bothGiven) (Two.start bareHost bothGiven) halfway :=
    (hfirst.trans (serve_steps (courteous_next (by decide +kernel)))).trans
      (serve_steps (courteous_next (by decide +kernel)))
  apply undisturbed hnames bareHost_unowned hsteps
  intro r c k hask _
  apply courteous_next _ c.argv (by rw [hask]; rfl)
  cases r <;> decide +kernel

end Nse
