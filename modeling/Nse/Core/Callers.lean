/-
  Nse.Core.Callers — two callers of `run_test_pipeline` on one host.

  Each caller has a controller, or makes one, or leaves that to the run. The requests of the
  two interleave in any order. A command is answered as the host lets it, or fails, or is cut
  short before or after it took effect; every other request may be answered by anything.
  A caller is live until its run has ended.

  `MayRun` says which commands a run may run, on every path: it moves the other end of its
  host link right after it made that link, and at no other time (`ordered_prog`).
-/

import Nse.Core.Commands
import Nse.Core.Gateway
import Nse.Lib.NetOwners

namespace Nse

open Coroutine
open NetHost (Act End Host)

/-! ## Callers -/

inductive Caller where
  | first
  | second
  deriving DecidableEq, Repr

def Caller.other : Caller → Caller
  | .first => .second
  | .second => .first

@[simp] theorem Caller.other_other (r : Caller) : r.other.other = r := by cases r <;> rfl

theorem Caller.ne_other (r : Caller) : r ≠ r.other := by cases r <;> decide

theorem Caller.eq_or_other (q r : Caller) : q = r ∨ q = r.other := by cases q <;> cases r <;> decide

/-- Where the controller of a call comes from. -/
inductive Source where
  /-- It is there already, shared with the other caller or not. -/
  | given (c : NetnsController)
  /-- The caller makes it for this call. -/
  | made (useNsenter : Option Bool)
  /-- The run makes it. -/
  | omitted

structure RunCall where
  cfg : Pipeline.Config
  req : TestRequest
  testId : String
  source : Source

namespace RunCall

variable [U : PyStr.Unicode] (x : RunCall)

def prog : Prog Pipeline.ListRef :=
  match x.source with
  | .given c => Pipeline.runTestPipeline x.cfg x.req (some c) x.testId
  | .made useNsenter =>
    (NetnsController.new useNsenter).bind fun c => Pipeline.runTestPipeline x.cfg x.req (some c) x.testId
  | .omitted => Pipeline.runTestPipeline x.cfg x.req none x.testId

omit U in
def vethHost : String := (deriveNames x.testId).vethHost

omit U in
/-- The other end of the host's link. -/
def vethPeer : String := if x.req.topology = .gateway then (deriveNames x.testId).vethRouterHost else "veth-nse"

omit U in
abbrev ofRun (n : String) : Prop := OfRun x.req x.testId n

omit U in
abbrev rootLink (a : String) : Prop := RootLinks x.req x.testId a

end RunCall

/-! ## Interleaving -/

structure Two where
  host : Host (Option Caller)
  prog : Caller → Prog Pipeline.ListRef

def Two.isLive (s : Two) (r : Caller) : Prop := ∃ a k, s.prog r = .ask a k

/-- How a request of `who` may be answered on a host, and the host afterwards. -/
inductive Reacts (who : Option Caller) (h : Host (Option Caller)) : (a : Req) → Except PyExc (Reply a) →
    Host (Option Caller) → Prop
  | done {c : Cmd} {h' : Host (Option Caller)} (stdout stderr : String) :
      h.perform who (commandOf c.argv).1 (commandOf c.argv).2 = some h' →
        Reacts who h (.run c) (.ok { returncode := 0, stdout, stderr }) h'
  /-- A failure that does not raise. -/
  | failed {c : Cmd} {code : Int} (stdout stderr : String) : c.check = false → code ≠ 0 →
      Reacts who h (.run c) (.ok { returncode := code, stdout, stderr }) h
  | raised {c : Cmd} (e : PyExc) : Reacts who h (.run c) (.error e) h
  /-- It raises after it took effect. -/
  | cutShort {c : Cmd} {h' : Host (Option Caller)} (e : PyExc) :
      h.perform who (commandOf c.argv).1 (commandOf c.argv).2 = some h' → Reacts who h (.run c) (.error e) h'
  | answered {a : Req} (r : Except PyExc (Reply a)) : (∀ c, a ≠ .run c) → Reacts who h a r h

/-- The host stays as it is, or the command takes effect. -/
theorem Reacts.host {who : Option Caller} {h h' : Host (Option Caller)} {a : Req} {reply : Except PyExc (Reply a)}
    (hreacts : Reacts who h a reply h') :
    h' = h ∨ ∃ c, a = .run c ∧ h.perform who (commandOf c.argv).1 (commandOf c.argv).2 = some h' := by
  cases hreacts with
  | done stdout stderr hperform => exact .inr ⟨_, rfl, hperform⟩
  | failed stdout stderr hcheck hcode => exact .inl rfl
  | raised e => exact .inl rfl
  | cutShort e hperform => exact .inr ⟨_, rfl, hperform⟩
  | answered reply hrun => exact .inl rfl

/-- One request of either caller is answered; a command is run beside a live run only where
    `ok` allows it. -/
inductive TwoStep (ok : Host (Option Caller) → Caller → List Arg → Prop) : Two → Two → Prop
  | answer {s : Two} {r : Caller} {a : Req} {k : Except PyExc (Reply a) → Prog Pipeline.ListRef}
    {reply : Except PyExc (Reply a)}
      {h' : Host (Option Caller)} : s.prog r = .ask a k → Reacts (some r) s.host a reply h' →
        (∀ c, a = .run c → s.isLive r.other → ok s.host r c.argv) →
          TwoStep ok s { host := h', prog := fun q => if q = r then k reply else s.prog q }

abbrev TwoSteps (ok : Host (Option Caller) → Caller → List Arg → Prop) : Two → Two → Prop :=
  Relation.ReflTransGen (TwoStep ok)

/-- Nothing on the host belongs to either caller. -/
structure Unowned (h : Host (Option Caller)) : Prop where
  titles : ∀ r n, (n, some r) ∉ h.titles
  ends : ∀ r, h.endsOf (some r) = []

def Two.start [PyStr.Unicode] (h : Host (Option Caller)) (calls : Caller → RunCall) : Two where
  host := h
  prog r := (calls r).prog

/-! ## What a run may run -/

/-- What the host's end of a link is given. -/
def rootAddresses : List String := ["10.0.0.1/24", "fd00::1/64", "10.0.1.1/24", "fd00:1::1/64"]

/-- A command of a call, where `linked` says whether the call has just made its host link. -/
inductive MayRun (x : RunCall) (linked : Bool) : Option String → Act → Prop
  | netnsAdd {n : String} : x.ofRun n → MayRun x linked none (.netnsAdd n)
  | netnsDel {n : String} : MayRun x linked none (.netnsDel n)
  | linkDel {n : String} : MayRun x linked none (.linkDel n)
  | linkAdd : MayRun x linked none (.linkAdd x.vethHost x.vethPeer)
  | linkMove {n : String} : linked = true → x.ofRun n → MayRun x linked none (.linkMove x.vethPeer n)
  | linkUp : MayRun x linked none (.linkUp x.vethHost)
  | addrAdd {addr : String} : addr ∈ rootAddresses → MayRun x linked none (.addrAdd addr x.vethHost)
  | routeAdd (v6 : Bool) : MayRun x linked none
      (.routeAdd v6 (NetnsController.transitText v6)
        (NetnsController.hostPart (({} : NetnsController.GatewayAddresses).routerHost v6)) x.vethHost)
  | other {stack : Option String} : MayRun x linked stack .other
  | linkAddInside {n near far : String} : x.ofRun n → MayRun x linked (some n) (.linkAdd near far)
  | linkMoveInside {n m dev : String} : x.ofRun n → x.ofRun m → MayRun x linked (some n) (.linkMove dev m)
  | linkUpInside {n dev : String} : x.ofRun n → MayRun x linked (some n) (.linkUp dev)
  | addrAddInside {n addr dev : String} : x.ofRun n → MayRun x linked (some n) (.addrAdd addr dev)
  | routeAddInside {n dest via dev : String} {v6 : Bool} : x.ofRun n →
    MayRun x linked (some n) (.routeAdd v6 dest via dev)

def isRootAdd : Option String × Act → Bool
  | (none, .linkAdd _ _) => true
  | _ => false

def Allowed (x : RunCall) (linked : Bool) : Req → Prop
  | .run c => MayRun x linked (commandOf c.argv).1 (commandOf c.argv).2
  | _ => True

/-- Whether the host link has just been made. -/
def linkedAfter (linked : Bool) : (a : Req) → Except PyExc (Reply a) → Bool
  | .run c, .ok _ => c.check && isRootAdd (commandOf c.argv)
  | .run _, .error _ => false
  | _, _ => linked

abbrev Ordered {α : Type} (x : RunCall) (linked : Bool) (y : Prog α) : Prop := Obeys (Allowed x) linkedAfter linked y

/-- The request may be made at any time. -/
def Anytime (x : RunCall) : Req → Prop
  | .run c => ∀ linked, MayRun x linked (commandOf c.argv).1 (commandOf c.argv).2
  | _ => True

section Ordered

variable {x : RunCall} {α : Type}

theorem Anytime.allowed {a : Req} (linked : Bool) (ha : Anytime x a) : Allowed x linked a := by
  cases a with
  | run c => exact ha linked
  | _ => trivial

theorem ordered_of_only {y : Prog α} (linked : Bool) (hy : Only (Anytime x) y) : Ordered x linked y :=
  obeys_of_only (fun t _ ha => ha.allowed t) linked hy

theorem anytime_other {argv : List Arg} {check : Bool} {timeout : Option Nat} (h : (commandOf argv).2 = .other) :
    Anytime x (.run { argv, check, timeout }) := by
  intro linked
  show MayRun x linked (commandOf argv).1 (commandOf argv).2
  rw [h]
  exact .other

theorem anytime_inside {a : Req} {m : Bool} {ns links : String → Prop} (ha : a.inside m ns links) : Anytime x a := by
  cases a with
  | run c => exact anytime_other ha.2
  | _ => trivial

/-- One command after another, where each is allowed after the one before. -/
def Lawful (x : RunCall) : Bool → List (Option String × Act) → Prop
  | _, [] => True
  | linked, (stack, a) :: rest => MayRun x linked stack a ∧ Lawful x (isRootAdd (stack, a)) rest

theorem ordered_runAll : ∀ {argvs : List (List Arg)} {linked : Bool}, Lawful x linked (argvs.map commandOf) →
    Ordered x linked (NetnsController.runAll argvs)
  | [], _, _ => trivial
  | argv :: argvs, linked, h => by
    refine ⟨h.1, ?_⟩
    intro r
    cases r with
    | ok v => exact ordered_runAll h.2
    | error e => exact trivial

/-! ### The steps of a run -/

theorem anytime_createNetns (c : NetnsController) {n : String} (hn : x.ofRun n) :
    Only (Anytime x) (c.createNetns n) := by
  apply c.asks_createNetns
  · exact fun _ => .netnsAdd hn
  · trivial
  · intro setting
    apply anytime_other
    exact congrArg Prod.snd (commandOf_execPrefix c.useNsenter n (NetnsController.sysctl setting))

theorem anytime_destroyNetns {n : String} : Only (Anytime x) (NetnsController.destroyNetns n) :=
  NetnsController.asks_destroyNetns (fun _ => .netnsDel) (fun _ => trivial) trivial

theorem anytime_sweepListing {words : List String} {each : String → Prog Unit}
    (hwords : (commandOf (NetnsController.ip words)).2 = .other) (heach : ∀ line, Only (Anytime x) (each line)) :
    Only (Anytime x) (NetnsController.sweepListing words each) := by
  apply only_suppress
  apply only_bind
  · intro res
    split
    · exact only_forEach fun line _ => heach line
    · exact trivial
  · exact only_request (anytime_other hwords)

theorem anytime_teardown : Only (Anytime x) (Pipeline.teardown x.req x.testId) := by
  have hlinkDel : Only (Anytime x) (Pipeline.deleteHostVeth (deriveNames x.testId).vethHost) :=
    only_bind (fun _ => only_ret) (only_request fun _ => .linkDel)
  apply only_bind
  · intro procs
    apply only_bind
    · intro _
      exact only_bind (fun _ => hlinkDel) (only_forEach fun n _ => anytime_destroyNetns)
    · exact only_forEach fun proc _ =>
        only_mono (fun _ h => anytime_inside (m := true) h) (inside_stopListener x.req x.testId proc)
  · exact only_request trivial

/-! ### The topology -/

theorem lawful_simple (h : x.req.topology ≠ .gateway) (linked : Bool) {n near4 near6 far4 far6 : String}
    (hn : x.ofRun n)
    (h4 : near4 ∈ rootAddresses) (h6 : near6 ∈ rootAddresses) : Lawful x linked
      (Host.vethActs none n x.vethHost "veth-nse" near4 near6 far4 far6 ++ [(some n, .linkUp "lo")]) := by
  have hpeer : x.vethPeer = "veth-nse" := if_neg h
  rw [← hpeer]
  exact ⟨.linkAdd, .linkMove rfl hn, .addrAdd h4, .addrAdd h6, .linkUp, .addrAddInside hn,
    .addrAddInside hn, .linkUpInside hn,
    .linkUpInside hn, trivial⟩

def gatewayOf (testId : String) : NetnsController.GatewayNames :=
  let names := deriveNames testId
  { routerNs := names.routerNs, serverNs := names.serverNs, vethHost := names.vethHost
    vethRouterHost := names.vethRouterHost, vethRouterServer := names.vethRouterServer, vethServer := names.vethServer }

section Gateway

variable (h : x.req.topology = .gateway) (linked : Bool) (c : NetnsController)

theorem lawful_forward : Lawful x linked ((c.forwardArgvs (gatewayOf x.testId)).map commandOf) := by
  rw [NetnsController.commands_forward]
  exact ⟨.other, .other, trivial⟩

include h

theorem lawful_hostLink : Lawful x linked ((c.hostLinkArgvs (gatewayOf x.testId) {}).map commandOf) := by
  have hpeer : x.vethPeer = (gatewayOf x.testId).vethRouterHost := if_pos h
  have hrouter : x.ofRun (gatewayOf x.testId).routerNs := ofRun_router x.req x.testId h
  rw [NetnsController.commands_hostLink, ← hpeer]
  exact ⟨.linkAdd, .linkMove rfl hrouter, .addrAdd (by simp [rootAddresses]),
    .addrAdd (by simp [rootAddresses]), .linkUp,
    .addrAddInside hrouter, .addrAddInside hrouter, .linkUpInside hrouter, trivial⟩

theorem lawful_serverLink : Lawful x linked ((c.serverLinkArgvs (gatewayOf x.testId) {}).map commandOf) := by
  have hrouter : x.ofRun (gatewayOf x.testId).routerNs := ofRun_router x.req x.testId h
  have hserver : x.ofRun (gatewayOf x.testId).serverNs := ofRun_server x.req x.testId h
  rw [NetnsController.commands_serverLink]
  exact ⟨.linkAddInside hrouter, .linkMoveInside hrouter hserver, .addrAddInside hrouter, .addrAddInside hrouter,
    .linkUpInside hrouter, .addrAddInside hserver, .addrAddInside hserver, .linkUpInside hserver, .linkUpInside hrouter,
    .linkUpInside hserver, trivial⟩

theorem lawful_routes : Lawful x linked ((c.routeArgvs (gatewayOf x.testId) {}).map commandOf) := by
  have hserver : x.ofRun (gatewayOf x.testId).serverNs := ofRun_server x.req x.testId h
  rw [NetnsController.commands_routes]
  exact ⟨.routeAdd false, .routeAdd true, .routeAddInside hserver, .routeAddInside hserver, trivial⟩

end Gateway

theorem ordered_setupTopology (c : NetnsController) (linked : Bool) :
    Ordered x linked (Pipeline.setupTopology x.req x.testId c) := by
  by_cases htop : x.req.topology = .gateway
  · have hsetup : Pipeline.setupTopology x.req x.testId c = c.createGateway (gatewayOf x.testId) {} := by
      rw [Pipeline.setupTopology, htop]
      rfl
    have hrouter := anytime_createNetns c (ofRun_router x.req x.testId htop)
    have hserver := anytime_createNetns c (ofRun_server x.req x.testId htop)
    rw [hsetup, NetnsController.createGateway_eq]
    apply obeys_bind _ (ordered_of_only linked hrouter)
    intro linked _
    apply obeys_bind _ (ordered_of_only linked hserver)
    intro linked _
    apply obeys_bind _ (ordered_runAll (lawful_forward linked c))
    intro linked _
    apply obeys_bind _ (ordered_runAll (lawful_hostLink htop linked c))
    intro linked _
    apply obeys_bind _ (ordered_runAll (lawful_serverLink htop linked c))
    intro linked _
    exact ordered_runAll (lawful_routes htop linked c)
  · have htop' : x.req.topology = .simple := by
      cases ht : x.req.topology with
      | simple => rfl
      | gateway => exact absurd ht htop
    have hn : x.ofRun (deriveNames x.testId).netns := ofRun_netns x.req x.testId htop
    rw [Pipeline.setupTopology, htop']
    apply obeys_bind _ (ordered_of_only linked (anytime_createNetns c hn))
    intro linked _
    show Ordered x linked (NetnsController.runAll
      (c.vethArgvs (deriveNames x.testId).netns x.vethHost "veth-nse" ["10.0.0.1/24"] ["10.0.0.2/24"]))
    apply ordered_runAll
    rw [NetnsController.commands_veth]
    exact lawful_simple htop linked hn (by decide +kernel) (by decide +kernel)

/-! ### The whole run -/

variable [U : PyStr.Unicode]

theorem anytime_new (useNsenter : Option Bool) : Only (Anytime x) (NetnsController.new useNsenter) := by
  have hnetns : ∀ line, Only (Anytime x) (NetnsController.sweepNetns line) := by
    intro line
    unfold NetnsController.sweepNetns
    split
    · exact only_bind (fun _ => only_ret) (only_request fun _ => .netnsDel)
    · exact trivial
  have hlink : ∀ line, Only (Anytime x) (NetnsController.sweepLink line) := by
    intro line
    unfold NetnsController.sweepLink
    split
    · split
      · exact only_bind (fun _ => only_ret) (only_request fun _ => .linkDel)
      · exact trivial
    · exact trivial
  have hsweep : Only (Anytime x) NetnsController.startupSweep :=
    only_bind (fun _ => anytime_sweepListing rfl hlink) (anytime_sweepListing rfl hnetns)
  cases useNsenter with
  | none => exact only_bind (fun mode => only_bind (fun _ => only_ret) hsweep) (only_request trivial)
  | some mode => exact only_bind (fun _ => only_ret) hsweep

theorem ordered_runWith (c : NetnsController) (linked : Bool) :
    Ordered x linked (Pipeline.runWith x.cfg x.req x.testId c) := by
  have hbody : ∀ linked, Ordered x linked (Pipeline.body x.cfg x.req x.testId c) := by
    intro linked
    apply obeys_bind _ (ordered_setupTopology c linked)
    intro linked _
    exact ordered_of_only linked (only_mono (fun _ h => anytime_inside h) (inside_setUp c x.cfg x.req x.testId))
  have hhandle : ∀ linked e, Ordered x linked (Pipeline.handle x.testId e) := by
    intro linked e
    exact ordered_of_only linked (only_mono (fun _ h => anytime_inside (m := true) h) (inside_handle x.req x.testId e))
  refine ⟨trivial, fun r => ?_⟩
  cases r with
  | error e => exact trivial
  | ok v =>
    show Ordered x _ ((Pipeline.guarded x.cfg x.req x.testId c).bind _)
    apply obeys_bind
    · intro linked early
      cases early with
      | some ref => exact trivial
      | none =>
        exact ordered_of_only linked (only_mono (fun _ h => anytime_inside (m := true) h)
          (inside_result x.req x.testId))
    · apply obeys_tryFinally
      · exact fun linked => ordered_of_only linked anytime_teardown
      · exact obeys_tryCatch hhandle (hbody _)

/-- A call runs no command but those it may, and moves the other end of its host link right
    after it made that link. -/
theorem ordered_prog (x : RunCall) (linked : Bool) : Ordered x linked x.prog := by
  unfold RunCall.prog
  cases x.source with
  | given c => exact ordered_runWith c linked
  | made useNsenter =>
    apply obeys_bind _ (ordered_of_only linked (anytime_new useNsenter))
    exact fun linked c => ordered_runWith c linked
  | omitted =>
    apply obeys_bind _ (ordered_of_only linked (anytime_new none))
    exact fun linked c => ordered_runWith c linked

end Ordered

end Nse
