/-
  Nse.Core.Prepared — the topology a run measures in.

  `setup_topology` runs one command after another while others go on using the host; each
  command that is accepted does to the run's part of the host what it would do to a host of
  its own (`grown_run`). Proved, for a run that is given its controller and that leaves no worker
  thread behind (`measured_in_topology`): whenever the run starts a listener or the monitor,
  loads its rules or sends a frame, its part is the topology of the request, whole and with
  nothing beside it. A gateway's comes out connected. A thread left behind may send its frame
  while the run is being cleaned up.
-/

import Nse.Core.Restored

namespace Nse

open Coroutine
open NetHost (Act End Host Side)
open NetnsController (FreeNames Connected Elsewhere newSpace allRoutes routed spaced wired)

/-! ## The topology of a request -/

section Topology

variable (x : RunCall) (r : Caller)

/-- One namespace and the link into it. -/
def simpleHost (loUp : Bool) : Host (Option Caller) :=
  (({} : Host (Option Caller)).withSpace (newSpace (some r) (deriveNames x.testId).netns loUp)).withPair
    (Host.builtPair (some r) none (deriveNames x.testId).netns x.vethHost "veth-nse" "10.0.0.1/24" "fd00::1/64"
      "10.0.0.2/24" "fd00::2/64")

/-- Router and server, both links, and the four routes. -/
def gatewayHost : Host (Option Caller) :=
  routed (some r) {} (gatewayOf x.testId) {} (allRoutes ({} : Host (Option Caller)) (gatewayOf x.testId) defaultLayout)

def topologyHost : Host (Option Caller) :=
  match x.req.topology with
  | .simple => simpleHost x r true
  | .gateway => gatewayHost x r

end Topology

section Built

variable {x : RunCall} {r : Caller}

theorem gatewayOf_free : FreeNames ({} : Host (Option Caller)) (gatewayOf x.testId) := by
  have hchars : ∀ a b : String, a = b ↔ a.toList = b.toList := fun _ _ => String.toList_inj.symm
  refine ⟨?_, rfl, rfl, rfl, rfl, ?_⟩ <;>
    simp [gatewayOf, NetnsController.GatewayNames.list, deriveNames, hchars, String.toList_append]

theorem nothing_elsewhere (nets : List IpAddress.Subnet) : Elsewhere ({} : Host (Option Caller)) nets :=
  ⟨by simp [Host.ends], by simp⟩

theorem nothing_wellFormed : ({} : Host (Option Caller)).WellFormed where
  ends e he := absurd he (by simp [Host.ends])
  live rt hrt := absurd hrt (by simp)

theorem defaults_fit : NetnsController.Fits defaultLayout := by
  constructor <;> intro v6 <;> cases v6 <;> decide +kernel

theorem gatewayHost_connected : Connected (gatewayHost x r) (gatewayOf x.testId) {} defaultLayout (some r) :=
  NetnsController.connected_routed nothing_wellFormed gatewayOf_free (nothing_elsewhere _) defaults_fit

/-- The commands of `create_veth_pair`, in a namespace just made. -/
theorem performAll_simple :
    (({} : Host (Option Caller)).withSpace (newSpace (some r) (deriveNames x.testId).netns false)).performAll (some r)
    (Host.vethActs none (deriveNames x.testId).netns x.vethHost "veth-nse" "10.0.0.1/24" "fd00::1/64"
      "10.0.0.2/24" "fd00::2/64" ++
      [(some (deriveNames x.testId).netns, .linkUp "lo")]) = some (simpleHost x r true) := by
  have hne : x.vethHost ≠ "veth-nse" := by
    intro heq
    have hchars := congrArg String.toList heq
    simp [RunCall.vethHost, deriveNames, String.toList_append] at hchars
  have hempty : ∀ st d, ({} : Host (Option Caller)).has st d = false := fun _ _ => rfl
  have hveth : (({} : Host (Option Caller)).withSpace (newSpace (some r) (deriveNames x.testId).netns false)).performAll
      (some r)
      (Host.vethActs none (deriveNames x.testId).netns x.vethHost "veth-nse" "10.0.0.1/24" "fd00::1/64"
        "10.0.0.2/24" "fd00::2/64") =
        some (simpleHost x r false) :=
    Host.performAll_veth (some r) rfl (by simp [newSpace]) hne (by simp [newSpace, End.at, hempty])
      (by simp [newSpace, End.at, hempty])
      (by simp [newSpace, End.at, hempty]) (by simp) (nothing_wellFormed.live.withSpace _) _ _ _ _
  have hlo : (simpleHost x r false).perform (some r) (some (deriveNames x.testId).netns) (.linkUp "lo") =
      some (simpleHost x r true) := by
    rw [Host.perform_linkUp (by simp [Host.hasStack, simpleHost, newSpace]) (by simp [simpleHost, newSpace, End.at])]
    simp [simpleHost, Host.mapEnds, Host.withPair, Host.withSpace, Host.builtPair, NetHost.Pair.map,
      newSpace, NetHost.onEnd, End.at]
  rw [Host.performAll_append, hveth, Option.bind_some, Host.performAll, hlo, Option.bind_some, Host.performAll]

variable (c : NetnsController)

/-- The commands of `create_gateway_topology`, between two namespaces just made. -/
theorem performAll_forward :
    (spaced ({} : Host (Option Caller)) (gatewayOf x.testId) (some r) false false).performAll (some r)
    ((c.forwardArgvs (gatewayOf x.testId)).map commandOf) =
      some (spaced {} (gatewayOf x.testId) (some r) false false) := by
  have hother : (spaced ({} : Host (Option Caller)) (gatewayOf x.testId) (some r) false false).perform (some r)
      (some (gatewayOf x.testId).routerNs) .other = some (spaced {} (gatewayOf x.testId) (some r) false false) :=
    if_pos (by simp [Host.hasStack, spaced, newSpace])
  rw [NetnsController.commands_forward, Host.performAll, hother, Option.bind_some, Host.performAll, hother,
    Option.bind_some, Host.performAll]

theorem performAll_near :
    (spaced ({} : Host (Option Caller)) (gatewayOf x.testId) (some r) false false).performAll (some r)
    ((c.hostLinkArgvs (gatewayOf x.testId) {}).map commandOf) =
      some ((spaced {} (gatewayOf x.testId) (some r) false false).withPair
        (NetnsController.hostPair (gatewayOf x.testId) (some r) {})) := by
  rw [NetnsController.commands_hostLink]
  exact NetnsController.performAll_hostLink (some r) {} nothing_wellFormed gatewayOf_free false false

theorem performAll_far : ((spaced ({} : Host (Option Caller)) (gatewayOf x.testId) (some r) false false).withPair
      (NetnsController.hostPair (gatewayOf x.testId) (some r) {})).performAll (some r)
    ((c.serverLinkArgvs (gatewayOf x.testId) {}).map commandOf) =
      some (wired {} (gatewayOf x.testId) (some r) {} true true) := by
  rw [NetnsController.commands_serverLink, Host.performAll_append,
    NetnsController.performAll_serverLink (some r) {} nothing_wellFormed gatewayOf_free, Option.bind_some]
  exact NetnsController.performAll_loopbacks (some r) {} nothing_wellFormed gatewayOf_free

end Built

/-! ## What the setup does to the run's part -/

/-- The command is none of those that load rules or run a script. -/
def OfSetup (argv : List Arg) : Prop := .bin "nft" ∉ argv ∧ .python ∉ argv

/-- The request is one of the measurement: it starts a listener or the monitor, loads the rules,
    sends a frame or waits for one to be traced. -/
def Req.measures : Req → Bool
  | .run c => c.argv.contains (.bin "nft") || c.argv.contains .python
  | .popen _ | .spawnMonitor _ | .tempFile _ | .launch _ | .waitReady _ | .armEventSignal |
    .extendDeadline _ | .waitForEvent _
  | .sendp _ _ | .mark _ => true
  | _ => false

/-- A request that is not of the measurement. -/
def Req.still (a : Req) : Prop := a.measures = false

theorem measures_ofSetup {argv : List Arg} (h : OfSetup argv) {check : Bool} {timeout : Option Nat} :
    (Req.run { argv, check, timeout }).measures = false := by
  simpa [Req.measures, OfSetup] using h

section Setup

variable [U : PyStr.Unicode] {env : Env} {x : RunCall} {r : Caller} {h₀ g g' : Host (Option Caller)}
    {linked : Bool} {s : Stage}

/-- The run's part of the host is `g`. -/
structure Grown (x : RunCall) (r : Caller) (h₀ : Host (Option Caller)) (linked : Bool) (g : Host (Option Caller))
    (s : Stage) : Prop where
  keeping : Keeping x r h₀ linked s
  own : s.host.part (ours r) = g

/-- What is measured is measured in the topology. -/
def InTopology (x : RunCall) (r : Caller) (s : Stage) (a : Req) : Prop :=
  a.measures = true → s.host.part (ours r) = topologyHost x r

abbrev Measures {α : Type} (env : Env) (x : RunCall) (r : Caller) (V : α → Stage → Prop)
    (X : PyExc → Stage → Prop) (c : Prog α)
    (s : Stage) : Prop :=
  wp (hosted env x r) (InTopology x r) (Post V X) c s

omit U in
theorem own_deed {d : Deed} {h' : Host (Option Caller)} (hd : Apart x r s.host d)
    (hperform : s.host.perform d.who d.stack d.act = some h') : h'.part (ours r) = s.host.part (ours r) := by
  have houtside := Host.part_outside (owners_theirs.mpr hd.who) hd.within hperform
  rwa [Side.other_other] at houtside

theorem grown_stable : Stable (hosted env x r) (Grown x r h₀ linked g) := by
  intro s e s' hs he
  refine ⟨keeping_stable s e s' hs.keeping he, ?_⟩
  cases he with
  | ev hev => exact hs.own
  | deed hd hperform => exact (own_deed hd hperform).trans hs.own

/-- A request that runs no command, or one that changes nothing. -/
theorem grown_inside {a : Req} {reply : Except PyExc (Reply a)} {s' : Stage} {m : Bool} {ns links : String → Prop}
    (ha : a.inside m ns links)
    (hs : Grown x r h₀ false g s) (hr : (hosted env x r).answer s a reply s') : Grown x r h₀ false g s' := by
  refine ⟨(keeping_answer ⟨(anytime_inside ha).allowed false, ha.tidy⟩ hs.keeping hr).unlinked, ?_⟩
  obtain ⟨-, hreacts⟩ := hr
  rcases hreacts.host with rfl | ⟨c, rfl, hperform⟩
  · exact hs.own
  · rw [show (commandOf c.argv).2 = .other from ha.2] at hperform
    cases (Host.perform_iff.mp hperform).2
    exact hs.own

/-- A command that succeeds does to the run's part what it does to a host of its own. -/
theorem grown_run {argv : List Arg} (hquiet : OfSetup argv)
    (hmay : MayRun x linked (commandOf argv).1 (commandOf argv).2) (hkeeps : keepsAll (commandOf argv).2 = true)
    (hperform : g.perform (some r) (commandOf argv).1 (commandOf argv).2 = some g') (hs : Grown x r h₀ linked g s) :
    Measures env x r (fun _ => Grown x r h₀ (isRootAdd (commandOf argv)) g') (fun _ _ => True)
      (NetnsController.run argv) s := by
  have hask : Measures env x r (fun _ => Grown x r h₀ (isRootAdd (commandOf argv)) g') (fun _ _ => True)
      (perform (.run { argv, check := true, timeout := some 10000 })) s := by
    refine wp_request grown_stable hs
      (fun _ _ hmeasures => absurd hmeasures (Bool.eq_false_iff.mp (measures_ofSetup hquiet)))
      fun t reply t' ht hr => ?_
    cases reply with
    | error e => exact trivial
    | ok done =>
      have hallowed : Allowed x linked (.run { argv, check := true, timeout := some 10000 }) := hmay
      have htidy : (Req.run { argv, check := true, timeout := some 10000 }).tidy x := tidy_keepsAll hkeeps
      have hkept := keeping_answer ⟨hallowed, htidy⟩ ht.keeping hr
      refine ⟨hkept, ?_⟩
      obtain ⟨hal, hreacts⟩ := hr
      cases hreacts with
      | failed stdout stderr hcheck hcode => cases hcheck
      | answered reply hrun => exact absurd rfl (hrun _)
      | done stdout stderr hdone =>
        by_cases hother : (commandOf argv).2 = .other
        · rw [hother] at hdone hperform
          cases (Host.perform_iff.mp hdone).2
          cases (Host.perform_iff.mp hperform).2
          exact ht.own
        · have hw := within_mayRun ht.keeping.rest (fun hl => (ht.keeping.linked hl).notOthers) hmay
              (tidy_keepsAll hkeeps) hother hdone
          have hinside := Host.part_inside ht.keeping.sound.formed (owners_ours.mpr rfl) hw hdone
          rw [ht.own, hperform] at hinside
          exact (Option.some.inj hinside).symm
  exact wp_seq hask (fun _ _ h => h) fun _ _ h => h

theorem grown_runAll : ∀ {argvs : List (List Arg)} {linked : Bool} {g : Host (Option Caller)} {s : Stage},
    (∀ argv ∈ argvs, OfSetup argv) → Lawful x linked (argvs.map commandOf) →
    ((argvs.map commandOf).map (·.2)).all keepsAll = true → g.performAll (some r) (argvs.map commandOf) = some g' →
    Grown x r h₀ linked g s →
      Measures env x r (fun _ t => Grown x r h₀ false g' t) (fun _ _ => True) (NetnsController.runAll argvs) s
  | [], linked, g, s, _, _, _, hperform, hs => by
    cases hperform
    exact ⟨hs.keeping.unlinked, hs.own⟩
  | argv :: argvs, linked, g, s, hquiet, hlawful, hkeeps, hperform, hs => by
    obtain ⟨g₁, hfirst, hrest⟩ := Option.bind_eq_some_iff.mp hperform
    rw [List.map_cons, List.map_cons, List.all_cons, Bool.and_eq_true] at hkeeps
    refine wp_seq (grown_run (hquiet argv List.mem_cons_self) hlawful.1 hkeeps.1 hfirst hs)
      (fun _ t ht => ?_) fun _ _ h => h
    exact grown_runAll (fun a ha => hquiet a (List.mem_cons_of_mem _ ha)) hlawful.2 hkeeps.2 hrest ht

/-! ### The steps of the setup -/

omit U in
theorem ofSetup_ip (words : List String) : OfSetup (NetnsController.ip words) := by
  simp [OfSetup, NetnsController.ip]

omit U in
theorem ofSetup_inNetns {argv : List Arg} (ha : OfSetup argv) (c : NetnsController) (n : String) :
    OfSetup (c.inNetns n argv) := by
  unfold NetnsController.inNetns NetnsController.execPrefix execPrefix
  cases c.useNsenter <;> simpa [OfSetup] using ha

/-- Requests that change nothing, made in the topology if they measure. -/
theorem grown_only {α : Type} {y : Prog α} {m : Bool} {N L : String → Prop}
    (hy : Only (fun a => a.inside m N L ∧ (a.measures = true → g = topologyHost x r)) y) (hs : Grown x r h₀ false g s) :
    Measures env x r (fun _ => Grown x r h₀ false g) (fun _ => Grown x r h₀ false g) y s := by
  have hpending : ∀ t a, a.inside m N L ∧ (a.measures = true → g = topologyHost x r) →
      Grown x r h₀ false g t → InTopology x r t a :=
    fun t a ha ht hm => ht.own.trans (ha.2 hm)
  refine wp_mono (fun reply t ht => ?_) y s
    (wp_of_only grown_stable hpending (fun _ _ _ _ ha ht hr => grown_inside ha.1 ht hr) y s hy hs)
  cases reply <;> exact ht

theorem grown_createNetns (c : NetnsController) {n : String} (hn : x.ofRun n) (hfree : g.hasSpace n = false)
    (hs : Grown x r h₀ false g s) :
    Measures env x r (fun _ => Grown x r h₀ false (g.withSpace (newSpace (some r) n false))) (fun _ _ => True)
      (c.createNetns n) s := by
  have hadd : Measures env x r (fun _ => Grown x r h₀ false (g.withSpace (newSpace (some r) n false))) (fun _ _ => True)
      (NetnsController.run (NetnsController.ip ["netns", "add", n])) s :=
    grown_run (ofSetup_ip _) (.netnsAdd hn) rfl (Host.perform_netnsAdd rfl hfree) hs
  have hsysctl : ∀ setting, OfSetup (c.inNetns n (NetnsController.sysctl setting)) := fun setting =>
    ofSetup_inNetns (by simp [OfSetup, NetnsController.sysctl]) c n
  refine wp_seq hadd (fun _ t ht => ?_) fun _ _ h => h
  -- whether or not the settings are taken
  refine post_mono (grown_only (m := c.useNsenter) (N := OfRun x.req x.testId) (L := RootLinks x.req x.testId)
    (only_bind (fun _ => c.asks_disableDad fun setting => ?_) (only_request ?_)) ht)
      (fun _ _ h => h) fun _ _ _ => trivial
  · exact ⟨inside_enters hn rfl _ _, fun hm => absurd hm (Bool.eq_false_iff.mp (measures_ofSetup (hsysctl setting)))⟩
  · exact ⟨trivial, by rintro ⟨⟩⟩

omit U in
theorem ofSetup_veth (c : NetnsController) (netns vethHost vethPeer : String) (hostIps peerIps : List String) :
    ∀ argv ∈ c.vethArgvs netns vethHost vethPeer hostIps peerIps, OfSetup argv := by
  have hinside : ∀ words, OfSetup (c.inNetns netns (NetnsController.ip words)) :=
    fun words => ofSetup_inNetns (ofSetup_ip words) c netns
  simp [NetnsController.vethArgvs, NetnsController.loArgv, ofSetup_ip, hinside]

omit U in
theorem ofSetup_gateway (c : NetnsController) (n : NetnsController.GatewayNames)
    (a : NetnsController.GatewayAddresses) :
    ∀ argv ∈ c.forwardArgvs n ++ c.hostLinkArgvs n a ++ c.serverLinkArgvs n a ++ c.routeArgvs n a, OfSetup argv := by
  have hinside : ∀ name words, OfSetup (c.inNetns name (NetnsController.ip words)) :=
    fun name words => ofSetup_inNetns (ofSetup_ip words) c name
  have hsysctl : ∀ setting, OfSetup (c.inNetns n.routerNs (NetnsController.sysctl setting)) := fun setting =>
    ofSetup_inNetns (by simp [OfSetup, NetnsController.sysctl]) c n.routerNs
  simp [NetnsController.forwardArgvs, NetnsController.hostLinkArgvs, NetnsController.serverLinkArgvs,
    NetnsController.routeArgvs, ofSetup_ip, hinside,
    hsysctl]

theorem grown_simple (c : NetnsController) (htop : x.req.topology = .simple) (hs : Grown x r h₀ false {} s) :
    Measures env x r (fun _ => Grown x r h₀ false (simpleHost x r true)) (fun _ _ => True)
      (Pipeline.setupTopology x.req x.testId c) s := by
  have hnot : x.req.topology ≠ .gateway := by simp [htop]
  have hn : x.ofRun (deriveNames x.testId).netns := ofRun_netns x.req x.testId hnot
  rw [Pipeline.setupTopology, htop]
  refine wp_seq (grown_createNetns c hn rfl hs) (fun _ t ht => ?_) fun _ _ h => h
  show Measures env x r _ _ (NetnsController.runAll
    (c.vethArgvs (deriveNames x.testId).netns x.vethHost "veth-nse" ["10.0.0.1/24"] ["10.0.0.2/24"])) t
  have hacts : (c.vethArgvs (deriveNames x.testId).netns x.vethHost "veth-nse" ["10.0.0.1/24"] ["10.0.0.2/24"]).map
      commandOf = _ :=
    NetnsController.commands_veth _ _ _ _ _
  refine grown_runAll (ofSetup_veth c _ _ _ _ _) ?_ ?_ ?_ ht <;> rw [hacts]
  · exact lawful_simple hnot false hn (by decide +kernel) (by decide +kernel)
  · rfl
  · exact performAll_simple

theorem grown_gateway (c : NetnsController) (htop : x.req.topology = .gateway) (hs : Grown x r h₀ false {} s) :
    Measures env x r (fun _ => Grown x r h₀ false (gatewayHost x r)) (fun _ _ => True)
      (Pipeline.setupTopology x.req x.testId c) s := by
  have hsetup : Pipeline.setupTopology x.req x.testId c = c.createGateway (gatewayOf x.testId) {} := by
    rw [Pipeline.setupTopology, htop]
    rfl
  have hrouter : x.ofRun (gatewayOf x.testId).routerNs := ofRun_router x.req x.testId htop
  have hserver : x.ofRun (gatewayOf x.testId).serverNs := ofRun_server x.req x.testId htop
  have hfree := gatewayOf_free (x := x)
  have hofSetup := ofSetup_gateway c (gatewayOf x.testId) {}
  simp only [List.forall_mem_append] at hofSetup
  obtain ⟨⟨⟨hforward, hhost⟩, hserverLink⟩, hroutes⟩ := hofSetup
  rw [hsetup, NetnsController.createGateway_eq]
  refine wp_seq (grown_createNetns c hrouter rfl hs) (fun _ t₁ h₁ => ?_) fun _ _ h => h
  refine wp_seq (grown_createNetns c hserver (by simp [newSpace, hfree.spaces_ne]; rfl) h₁)
    (fun _ t₂ h₂ => ?_) fun _ _ h => h
  refine wp_seq (grown_runAll hforward (lawful_forward false c) (by rw [NetnsController.commands_forward]; rfl)
    (performAll_forward c) h₂)
    (fun _ t₃ h₃ => ?_) fun _ _ h => h
  refine wp_seq (grown_runAll hhost (lawful_hostLink htop false c) (by rw [NetnsController.commands_hostLink]; rfl)
    (performAll_near c) h₃)
    (fun _ t₄ h₄ => ?_) fun _ _ h => h
  refine wp_seq (grown_runAll hserverLink (lawful_serverLink htop false c)
    (by rw [NetnsController.commands_serverLink]; rfl) (performAll_far c) h₄)
    (fun _ t₅ h₅ => ?_) fun _ _ h => h
  exact grown_runAll hroutes (lawful_routes htop false c) (by rw [NetnsController.commands_routes]; rfl)
    (NetnsController.performAll_routes c nothing_wellFormed hfree (nothing_elsewhere _) defaults_fit) h₅

theorem grown_setupTopology (c : NetnsController) (hs : Grown x r h₀ false {} s) :
    Measures env x r (fun _ => Grown x r h₀ false (topologyHost x r)) (fun _ _ => True)
      (Pipeline.setupTopology x.req x.testId c) s := by
  unfold topologyHost
  cases htop : x.req.topology with
  | simple => exact grown_simple c htop hs
  | gateway => exact grown_gateway c htop hs

end Setup

/-! ## Whole runs -/

section Run

variable [U : PyStr.Unicode] {env : Env} {x : RunCall} {r : Caller} {h₀ : Host (Option Caller)} {s : Stage}

theorem elsewhere_only {α : Type} {y : Prog α} (hy : Only Req.still y) :
    Measures env x r (fun _ _ => True) (fun _ _ => True) y s := by
  refine wp_mono (fun reply t ht => ?_) y s (wp_of_only (P := fun _ => True) (fun _ _ _ _ _ => trivial)
    (fun t a ha _ hm => absurd hm (Bool.eq_false_iff.mp ha)) (fun _ _ _ _ _ _ _ => trivial) y s hy trivial)
  cases reply <;> exact trivial

omit U in
theorem still_emitEvent (item : Option TraceEvent) : Only Req.still (Pipeline.emitEvent item) := by
  have hput : Only Req.still (perform (.put item)) := only_request rfl
  cases item with
  | none => exact hput
  | some e => exact only_bind (fun _ => hput) (only_request rfl)

theorem still_handle (e : PyExc) : Only Req.still (Pipeline.handle x.testId e) := by
  have hclose : Only Req.still (TraceHarvester.aclose 2000) :=
    only_mono (fun a ha => by cases a <;> first | rfl | exact ha.elim) (only_aclose 2000)
  have hreport : ∀ text, Only Req.still (Pipeline.reportException x.testId text) := by
    intro text
    refine only_bind (fun _ => only_bind (fun _ => only_bind (fun _ => ?_) (still_emitEvent none)) (still_emitEvent _))
      (only_request rfl)
    exact only_bind (fun _ => only_ret) hclose
  unfold Pipeline.handle
  split
  · exact hreport _
  · split
    · exact hreport _
    · exact trivial

omit U in
theorem still_teardown : Only Req.still (Pipeline.teardown x.req x.testId) := by
  have hstop : ∀ proc, Only Req.still (Pipeline.stopListener proc) := fun proc =>
    only_mono (fun a ha => by cases a <;> first | rfl | exact ha.elim) (stops_stopListener proc)
  have hdestroy : ∀ n, Only Req.still (NetnsController.destroyNetns n) := fun n =>
    NetnsController.asks_destroyNetns (measures_ofSetup (ofSetup_ip _)) (fun _ => rfl) rfl
  have hlinkDel : Only Req.still (Pipeline.deleteHostVeth (deriveNames x.testId).vethHost) :=
    only_bind (fun _ => only_ret) (only_request (measures_ofSetup (ofSetup_ip _)))
  refine only_bind (fun procs => only_bind (fun _ => only_bind (fun _ => hlinkDel) ?_) ?_) (only_request rfl)
  · exact only_forEach fun n _ => hdestroy n
  · exact only_forEach fun proc _ => hstop proc

omit U in
theorem still_result : Only Req.still Pipeline.result := by
  have hids : Only Req.still (perform .canaryIds) := only_request rfl
  exact only_bind (fun _ => only_bind (fun _ => only_ret) hids) (only_request rfl)

theorem measured_runWith (c : NetnsController) (hs : Grown x r h₀ false {} s) :
    Measures env x r (fun _ _ => True) (fun _ _ => True) (Pipeline.runWith x.cfg x.req x.testId c) s := by
  have hstatus :
      Measures env x r (fun _ => Grown x r h₀ false {}) (fun _ _ => True) (perform (.setStatus .running)) s := by
    refine post_mono (grown_only (m := true) (N := fun _ => True) (L := fun _ => True)
      (only_request ⟨trivial, by rintro ⟨⟩⟩) hs)
      (fun _ _ h => h) fun _ _ _ => trivial
  have hbody : ∀ {t : Stage}, Grown x r h₀ false {} t →
      Measures env x r (fun _ _ => True) (fun _ _ => True) (Pipeline.body x.cfg x.req x.testId c) t := by
    intro t ht
    refine wp_seq (grown_setupTopology c ht) (fun _ u hu => ?_) fun _ _ h => h
    exact post_mono (grown_only (only_mono (fun _ h => ⟨h, fun _ => rfl⟩) (inside_setUp c x.cfg x.req x.testId)) hu)
      (fun _ _ _ => trivial)
      fun _ _ _ => trivial
  refine wp_seq hstatus (fun _ t ht => ?_) fun _ _ _ => trivial
  refine wp_seq (V := fun _ _ => True) (X := fun _ _ => True) ?_ (fun early u _ => ?_) fun _ _ _ => trivial
  · have hguarded : Measures env x r (fun _ _ => True) (fun _ _ => True)
        ((Pipeline.body x.cfg x.req x.testId c).tryCatch (Pipeline.handle x.testId)) t :=
      wp_try (hbody ht) (fun _ _ _ => trivial) fun e _ _ => elsewhere_only (still_handle e)
    exact wp_finally hguarded (fun _ _ _ => elsewhere_only still_teardown) fun _ _ _ => elsewhere_only still_teardown
  · cases early with
    | some ref => exact trivial
    | none => exact elsewhere_only still_result

/-- Whatever is measured is measured in the topology of the request. -/
theorem measured_in_topology {c : NetnsController} (hgiven : x.source = .given c) (hstart : Clear x r h₀) {a : Req}
    {k : Except PyExc (Reply a) → Prog Pipeline.ListRef}
      (hrun : Steps (attended env x r) (x.prog, { host := h₀ }) (.ask a k, s))
    (ha : a.measures = true) : s.host.part (ours r) = topologyHost x r ∧
      (x.req.topology = .gateway → Connected (s.host.part (ours r)) (gatewayOf x.testId)
        {} defaultLayout (some r)) := by
  rw [prog_given hgiven] at hrun
  have hbegin : Grown x r h₀ false {} { host := h₀ } := ⟨keeping_start hstart, own_start hstart⟩
  have hw := wp_steps (projects_unrestricted.steps hrun) (measured_runWith c hbegin)
  have hown : s.host.part (ours r) = topologyHost x r := (hw s .refl).1 ha
  refine ⟨hown, fun htop => ?_⟩
  rw [hown, topologyHost, htop]
  exact gatewayHost_connected

end Run

/-! ## A gateway beside a lab -/

attribute [local instance] PyStr.Unicode.ascii

def gatewayCall : RunCall := { labCall with req := { sampleRequest with topology := .gateway } }

theorem bareHost_clear_gateway : Clear gatewayCall .first bareHost := { bareHost_clear with netns _ _ := rfl }

/-- The first canary is about to be sent. -/
theorem measured_in_topology_sample : ∃ f iface k s,
    Steps (attended {} gatewayCall .first) (gatewayCall.prog, { host := bareHost }) (.ask (.sendp f iface) k, s) ∧
      (s.host.pairs.length = 3 ∧ s.deeds.length = 4) ∧
        Connected (s.host.part (ours .first)) (gatewayOf gatewayCall.testId) {} defaultLayout (some .first) := by
  have hplay : Script.waiting (fun a s => (match a with | .sendp _ _ => true | _ => false) &&
      s.host.pairs.length == 3 && s.deeds.length == 4)
      ((besideLab gatewayCall).play 47 gatewayCall.prog { host := bareHost }) = true := by
    decide +kernel
  obtain ⟨a, k, s, hrun, hp⟩ := Script.waiting_steps besideLab_fits hplay
  simp only [Bool.and_eq_true, beq_iff_eq] at hp
  obtain ⟨⟨ha, hpairs⟩, hdeeds⟩ := hp
  cases a with
  | sendp f iface =>
    exact ⟨f, iface, k, s, hrun, ⟨hpairs, hdeeds⟩, (measured_in_topology rfl bareHost_clear_gateway hrun rfl).2 rfl⟩
  | _ => cases ha

end Nse
