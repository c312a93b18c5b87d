/-
  Nse.Core.Commands — the commands the engine runs, and the names in them.

  A command either enters a namespace, in the mode of the controller, or is an `ip` command
  of the root namespace. `RootWords` lists the latter with the namespaces and interfaces
  they name. One lemma for each step of a run says that it runs no other, with the names of
  that run (`commands_runWith`): between the setup of the topology and the teardown a run
  enters namespaces and shows links (`inside_setUp`).
-/

import Nse.Core.Footprints
import Nse.Core.Kernel

namespace Nse

open Coroutine

/-! ## Commands -/

/-- The words of an `ip` command of the root namespace, with the names it may use. -/
inductive RootWords (ns links : String → Prop) : List String → Prop
  | netnsAdd {n : String} : ns n → RootWords ns links ["netns", "add", n]
  | netnsDel {n : String} : ns n → RootWords ns links ["netns", "del", n]
  | linkAdd {a b : String} : links a → links b →
    RootWords ns links ["link", "add", a, "type", "veth", "peer", "name", b]
  | linkMove {a n : String} : links a → ns n → RootWords ns links ["link", "set", a, "netns", n]
  | linkUp {a : String} : links a → RootWords ns links ["link", "set", a, "up"]
  | linkDel {a : String} : links a → RootWords ns links ["link", "del", a]
  | linkShow {a : String} : links a → RootWords ns links ["-o", "link", "show", "dev", a]
  | addr {x a : String} : links a → RootWords ns links ["addr", "add", x, "dev", a]
  | route {net via a : String} : links a → RootWords ns links ["route", "add", net, "via", via, "dev", a]
  | route6 {net via a : String} : links a → RootWords ns links ["-6", "route", "add", net, "via", via, "dev", a]

theorem RootWords.mono {ns links links' : String → Prop} (h : ∀ a, links a → links' a) {words : List String}
    (hw : RootWords ns links words) : RootWords ns links' words := by
  cases hw with
  | netnsAdd hn => exact .netnsAdd hn
  | netnsDel hn => exact .netnsDel hn
  | linkAdd ha hb => exact .linkAdd (h _ ha) (h _ hb)
  | linkMove ha hn => exact .linkMove (h _ ha) hn
  | linkUp ha => exact .linkUp (h _ ha)
  | linkDel ha => exact .linkDel (h _ ha)
  | linkShow ha => exact .linkShow (h _ ha)
  | addr ha => exact .addr (h _ ha)
  | route ha => exact .route (h _ ha)
  | route6 ha => exact .route6 (h _ ha)

/-- The command enters one of these namespaces, in this mode. -/
def Enters (useNsenter : Bool) (ns : String → Prop) (argv : List Arg) : Prop :=
  ∃ n, ns n ∧ ∃ rest, argv = execPrefix useNsenter n ++ rest

def Runs (useNsenter : Bool) (ns links : String → Prop) (argv : List Arg) : Prop :=
  Enters useNsenter ns argv ∨ ∃ words, RootWords ns links words ∧ argv = NetnsController.ip words

/-- The request runs no other command. -/
def Req.commands (useNsenter : Bool) (ns links : String → Prop) : Req → Prop
  | .run c => Runs useNsenter ns links c.argv
  | .popen argv | .spawnMonitor argv => Enters useNsenter ns argv
  | _ => True

section Commands

variable {m : Bool} {ns links : String → Prop}

theorem enters {n : String} (hn : ns n) (rest : List Arg) : Enters m ns (execPrefix m n ++ rest) := ⟨n, hn, rest, rfl⟩

theorem runs_enters {n : String} (hn : ns n) (rest : List Arg) : Runs m ns links (execPrefix m n ++ rest) :=
  .inl (enters hn rest)

theorem runs_root {words : List String} (h : RootWords ns links words) : Runs m ns links (NetnsController.ip words) :=
  .inr ⟨words, h, rfl⟩

theorem commands_runAll {cmds : List (List Arg)} (h : ∀ argv ∈ cmds, Runs m ns links argv) :
    Only (Req.commands m ns links) (NetnsController.runAll cmds) :=
  NetnsController.asks_runAll h

variable (c : NetnsController)

theorem commands_createNetns {name : String} (hn : ns name) :
    Only (Req.commands c.useNsenter ns links) (c.createNetns name) :=
  c.asks_createNetns (runs_root (.netnsAdd hn)) (by trivial) fun _ => runs_enters hn _

theorem commands_createVethPair {netns vethHost vethPeer : String} (hn : ns netns) (hh : links vethHost)
    (hp : links vethPeer) (hostIps peerIps : List String) :
    Only (Req.commands c.useNsenter ns links) (c.createVethPair netns vethHost vethPeer hostIps peerIps) := by
  have hin : ∀ rest, Runs c.useNsenter ns links (c.inNetns netns rest) := runs_enters hn
  unfold NetnsController.createVethPair
  refine commands_runAll ?_
  intro argv hargv
  simp only [List.mem_cons, List.not_mem_nil, or_false] at hargv
  rcases hargv with rfl | rfl | rfl | rfl | rfl | rfl | rfl | rfl | rfl
  · exact runs_root (.linkAdd hh hp)
  · exact runs_root (.linkMove hp hn)
  · exact runs_root (.addr hh)
  · exact runs_root (.addr hh)
  · exact runs_root (.linkUp hh)
  all_goals exact hin _

theorem commands_createGatewayTopology {routerNs serverNs vethHost vethRouterHost : String} (hr : ns routerNs)
    (hs : ns serverNs) (hh : links vethHost) (hp : links vethRouterHost) (vethRouterServer vethServer : String)
    (a : NetnsController.GatewayAddresses) :
    Only (Req.commands c.useNsenter ns links)
      (c.createGatewayTopology routerNs serverNs vethHost vethRouterHost vethRouterServer vethServer a) := by
  have hrouter : ∀ rest, Runs c.useNsenter ns links (c.inNetns routerNs rest) := runs_enters hr
  have hserver : ∀ rest, Runs c.useNsenter ns links (c.inNetns serverNs rest) := runs_enters hs
  refine only_bind (fun _ => only_bind (fun _ => ?_) (commands_createNetns c hs)) (commands_createNetns c hr)
  refine only_bind (fun _ => only_bind (fun _ => only_bind (fun _ => ?_) ?_) ?_) ?_
  · -- transit routes
    refine commands_runAll ?_
    intro argv hargv
    simp only [List.mem_cons, List.not_mem_nil, or_false] at hargv
    rcases hargv with rfl | rfl | rfl | rfl
    · exact runs_root (.route hh)
    · exact runs_root (.route6 hh)
    · exact hserver _
    · exact hserver _
  · -- router and server
    refine commands_runAll ?_
    intro argv hargv
    simp only [List.mem_cons, List.not_mem_nil, or_false] at hargv
    rcases hargv with rfl | rfl | rfl | rfl | rfl | rfl | rfl | rfl | rfl | rfl <;>
      first | exact hrouter _ | exact hserver _
  · -- host and router
    refine commands_runAll ?_
    intro argv hargv
    simp only [List.mem_cons, List.not_mem_nil, or_false] at hargv
    rcases hargv with rfl | rfl | rfl | rfl | rfl | rfl | rfl | rfl
    · exact runs_root (.linkAdd hh hp)
    · exact runs_root (.linkMove hp hr)
    · exact runs_root (.addr hh)
    · exact runs_root (.addr hh)
    · exact runs_root (.linkUp hh)
    all_goals exact hrouter _
  · refine commands_runAll ?_
    intro argv hargv
    simp only [List.mem_cons, List.not_mem_nil, or_false] at hargv
    rcases hargv with rfl | rfl
    · exact hrouter _
    · exact hrouter _

theorem commands_destroyNetns {name : String} (hn : ns name) :
    Only (Req.commands m ns links) (NetnsController.destroyNetns name) :=
  NetnsController.asks_destroyNetns (runs_root (.netnsDel hn)) (fun _ => by trivial) (by trivial)

/-! ## Requests that stay inside -/

/-- The request enters one of these namespaces or shows one of these links, and runs nothing
    that changes the host. -/
def Req.inside (useNsenter : Bool) (ns links : String → Prop) : Req → Prop
  | .run c =>
    (Enters useNsenter ns c.argv ∨ ∃ a, links a ∧ c.argv = NetnsController.ip ["-o", "link", "show", "dev", a]) ∧
      (commandOf c.argv).2 = .other
  | .popen argv | .spawnMonitor argv => Enters useNsenter ns argv
  | _ => True

theorem Req.inside.commands {a : Req} (h : a.inside m ns links) : a.commands m ns links := by
  cases a with
  | run c =>
    rcases h.1 with h | ⟨a, ha, hargv⟩
    · exact .inl h
    · exact .inr ⟨_, .linkShow ha, hargv⟩
  | popen argv => exact h
  | spawnMonitor argv => exact h
  | _ => trivial

theorem inside_enters {n : String} (hn : ns n) {rest : List Arg} (hrest : actOf rest = .other) (check : Bool)
    (timeout : Option Nat) : (Req.run { argv := execPrefix m n ++ rest, check, timeout }).inside m ns links := by
  refine ⟨.inl (enters hn rest), ?_⟩
  rw [commandOf_execPrefix]
  exact hrest

/-- Closing the harvester runs no command. -/
theorem Req.closing.inside {a : Req} (h : a.closing) : a.inside m ns links := by
  cases a <;> trivial

variable [U : PyStr.Unicode]

theorem inside_getMacAddress {u : Bool} {iface : String} {netns : Option String}
    (hlink : netns.all (· = "") = true → links iface) (hn : ∀ n ∈ netns, n ≠ "" → ns n ∧ u = m) :
    Only (Req.inside m ns links) (ScapyInjector.getMacAddress iface netns u) := by
  have hshow : ∀ words, actOf (NetnsController.ip ["-o", "link", "show", "dev", words]) = .other := fun _ => actOf_ip _
  have hroot : links iface → (Req.run { argv := NetnsController.ip ["-o", "link", "show", "dev", iface], check := true
                                        timeout := some 10000 }).inside m ns links :=
    fun hl => ⟨.inr ⟨_, hl, rfl⟩, hshow iface⟩
  refine only_bind (fun result => ?_) (only_request ?_)
  · split <;> exact trivial
  · cases netns with
    | none => exact hroot (hlink rfl)
    | some n =>
      by_cases hempty : n = ""
      · subst hempty
        exact hroot (hlink (by simp))
      · obtain ⟨hns, rfl⟩ := hn n rfl hempty
        simp only [hempty, if_false]
        exact inside_enters hns (hshow iface) _ _

/-- The namespace of the interface at the other end is entered for its address, and to send
    a packet that leaves it. -/
theorem inside_inject {u : Bool} {spec : PacketSpec} {netns vethHost vethPeer : String}
    (hn : netns ≠ "" ∨ ScapyInjector.isIncoming spec = false → ns netns ∧ u = m)
      (hh : links vethHost) (hp : links vethPeer) :
    Only (Req.inside m ns links) (ScapyInjector.inject u spec netns vethHost vethPeer none) := by
  have hhost : Only (Req.inside m ns links) (ScapyInjector.getMacAddress vethHost none u) :=
    inside_getMacAddress (fun _ => hh) (by simp)
  have hpeer : Only (Req.inside m ns links) (ScapyInjector.getMacAddress vethPeer (some netns) u) := by
    refine inside_getMacAddress (fun _ => hp) ?_
    rintro n ⟨⟩ hne
    exact hn (.inl hne)
  refine only_bind (fun macs => ?_) (only_orRuntimeError ?_)
  · have hsend : ∀ f iface, Only (Req.inside m ns links) (perform (.sendp f iface)) :=
      fun _ _ => only_request (by trivial)
    split
    split
    · exact only_orRuntimeError (hsend _ _)
    · rename_i hout
      obtain ⟨hns, rfl⟩ := hn (.inr (by simpa using hout))
      refine only_bind (fun result => ?_) (only_request (inside_enters hns rfl _ _))
      split <;> exact trivial
  · exact only_bind (fun _ => only_bind (fun _ => only_ret) hpeer) hhost

theorem commands_inject {u : Bool} {spec : PacketSpec} {netns vethHost vethPeer : String}
    (hn : netns ≠ "" ∨ ScapyInjector.isIncoming spec = false → ns netns ∧ u = m)
      (hh : links vethHost) (hp : links vethPeer) :
    Only (Req.commands m ns links) (ScapyInjector.inject u spec netns vethHost vethPeer none) :=
  only_mono (fun _ h => h.commands) (inside_inject hn hh hp)

/-! ## The steps of a run -/

/-- The namespaces of a run. -/
def OfRun (req : TestRequest) (testId : String) (n : String) : Prop := n ∈ Pipeline.namespaces req testId

/-- The interfaces a run names in the root namespace. -/
def RootLinks (req : TestRequest) (testId : String) (a : String) : Prop :=
  a = (deriveNames testId).vethHost ∨
    a = if req.topology = .gateway then (deriveNames testId).vethRouterHost else "veth-nse"

section Steps

variable (cfg : Pipeline.Config) (req : TestRequest) (testId : String)

/-- The request runs no command but those of this run. -/
abbrev Req.commandsOf (req : TestRequest) (testId : String) (m : Bool) : Req → Prop :=
  Req.commands m (OfRun req testId) (RootLinks req testId)

abbrev Req.insideOf (req : TestRequest) (testId : String) (m : Bool) : Req → Prop :=
  Req.inside m (OfRun req testId) (RootLinks req testId)

omit U in
theorem ofRun_netns (h : req.topology ≠ .gateway) : OfRun req testId (deriveNames testId).netns := by
  simp [OfRun, Pipeline.namespaces, h]

omit U in
theorem ofRun_router (h : req.topology = .gateway) : OfRun req testId (deriveNames testId).routerNs := by
  simp [OfRun, Pipeline.namespaces, h]

omit U in
theorem ofRun_server (h : req.topology = .gateway) : OfRun req testId (deriveNames testId).serverNs := by
  simp [OfRun, Pipeline.namespaces, h]

omit U in
theorem ofRun_target : OfRun req testId (Pipeline.target req testId c).netns := by
  unfold Pipeline.target
  by_cases h : req.topology = .gateway
  · simpa [h] using ofRun_router req testId h
  · simpa [h] using ofRun_netns req testId h

omit U in
theorem target_links : RootLinks req testId (Pipeline.target req testId c).vethHost ∧
    RootLinks req testId (Pipeline.target req testId c).vethPeer := ⟨.inl rfl, .inr rfl⟩

omit U in
theorem commands_setupTopology :
    Only (Req.commandsOf req testId c.useNsenter) (Pipeline.setupTopology req testId c) := by
  have hpeer : RootLinks req testId (if req.topology = .gateway then (deriveNames testId).vethRouterHost
      else "veth-nse") := .inr rfl
  unfold Pipeline.setupTopology
  dsimp only
  split
  · rename_i htop
    rw [if_pos htop] at hpeer
    exact commands_createGatewayTopology c (ofRun_router req testId htop)
      (ofRun_server req testId htop) (.inl rfl) hpeer _ _ _
  · rename_i htop
    have hne : req.topology ≠ .gateway := by simp [htop]
    rw [if_neg hne] at hpeer
    have hn := ofRun_netns req testId hne
    exact only_bind (fun _ => commands_createVethPair c hn (.inl rfl) hpeer _ _) (commands_createNetns c hn)

omit U in
theorem inside_spawnListeners : Only (Req.insideOf req testId c.useNsenter) (Pipeline.spawnListeners req testId c) := by
  have hn : OfRun req testId (if req.topology = .gateway then (deriveNames testId).serverNs
      else (deriveNames testId).netns) := by
    by_cases h : req.topology = .gateway
    · simpa [h] using ofRun_server req testId h
    · simpa [h] using ofRun_netns req testId h
  have hadd : ∀ proc, Only (Req.insideOf req testId c.useNsenter) (perform (.addListener proc)) :=
    fun _ => only_request (by trivial)
  refine only_forEach fun pkt _ => ?_
  split
  · exact only_bind hadd (only_request (enters hn _))
  · exact trivial

theorem inside_startMonitor : Only (Req.insideOf req testId c.useNsenter) (Pipeline.startMonitor cfg req testId c) := by
  have hn := ofRun_target c req testId
  have hask : ∀ {a : Req}, a.insideOf req testId c.useNsenter →
      Only (Req.insideOf req testId c.useNsenter) (perform a) := only_request
  refine only_bind (fun _ => only_bind (fun _ => only_bind (fun _ => only_ret) (hask (by trivial))) ?_) ?_
  · have hmonitor : ∀ rest, Only (Req.insideOf req testId c.useNsenter)
        (perform (.spawnMonitor (execPrefix c.useNsenter (Pipeline.target req testId c).netns ++ rest))) := fun rest =>
      only_request (enters hn rest)
    exact only_bind (fun _ => only_bind (fun _ => hask (by trivial)) (hmonitor _)) (hask (by trivial))
  · unfold RuleEngine.load
    split
    · exact trivial
    · refine only_bind (fun path => only_tryFinally (hask (by trivial)) ?_) (hask (by trivial))
      exact only_bind only_checkResult (hask (inside_enters hn rfl _ _))

section Sending

variable {spec : PacketSpec} {m : Bool}

/-- A target in a namespace of the run, reached by its interfaces. -/
structure TargetOf (m : Bool) (t : Pipeline.Target) : Prop where
  mode : t.useNsenter = m
  netns : OfRun req testId t.netns
  host : RootLinks req testId t.vethHost
  peer : RootLinks req testId t.vethPeer
  hostNetns : t.hostNetns = none

omit U in
theorem targetOf : TargetOf req testId c.useNsenter (Pipeline.target req testId c) :=
  ⟨rfl, ofRun_target c req testId, (target_links c req testId).1, (target_links c req testId).2, rfl⟩

variable {req testId} {t : Pipeline.Target} (ht : TargetOf req testId m t)

include ht

theorem inside_injectPacket (p : Packet) : Only (Req.insideOf req testId m) (Pipeline.injectPacket t p spec) := by
  have hmark : ∀ mark, Only (Req.insideOf req testId m) (perform (.mark mark)) := fun _ => only_request (by trivial)
  refine only_bind (fun _ => only_bind (fun _ => hmark _) ?_) (hmark _)
  rw [ht.mode, ht.hostNetns]
  exact inside_inject (fun _ => ⟨ht.netns, rfl⟩) ht.host ht.peer

theorem inside_probeFrom (label : Label) :
    ∀ (left attempt : Nat), Only (Req.insideOf req testId m) (Pipeline.probeFrom cfg t label spec attempt left)
  | 0, _ => trivial
  | left + 1, attempt => by
    have hask : ∀ {a : Req}, a.insideOf req testId m → Only (Req.insideOf req testId m) (perform a) := only_request
    have hinject : Only (Req.insideOf req testId m) (Pipeline.injectCanary cfg t label spec attempt) := by
      refine only_tryCatch (fun e => ?_) (only_bind (fun _ => only_ret) (inside_injectPacket ht _))
      split
      · exact only_bind (fun _ => only_ret) (hask (by trivial))
      · exact trivial
    refine only_bind (fun seen => ?_) (only_bind (fun _ => only_bind (fun _ => only_bind (fun injected => ?_) hinject)
      (hask (by trivial))) (hask (by trivial)))
    · split
      · exact trivial
      · exact inside_probeFrom label left (attempt + 1)
    · split
      · exact hask (by trivial)
      · exact trivial

theorem inside_probeOracle (label : Label) : Only (Req.insideOf req testId m) (Pipeline.probeOracle cfg t label spec) :=
  only_bind (fun _ => only_bind (fun _ => only_ret) (only_request (by trivial))) (inside_probeFrom cfg ht label _ _)

theorem inside_injectFrom : ∀ (pkts : List PacketSpec) (i : Nat),
    Only (Req.insideOf req testId m) (Pipeline.injectFrom cfg t i pkts)
  | [], _ => trivial
  | pkt :: pkts, i => by
    have hask : ∀ {a : Req}, a.insideOf req testId m → Only (Req.insideOf req testId m) (perform a) := only_request
    refine only_bind (fun _ => only_bind (fun _ => only_bind (fun _ => ?_) (hask (by trivial))) ?_) (hask (by trivial))
    · exact inside_injectFrom pkts (i + 1)
    · exact inside_injectPacket ht _

end Sending

section Quiet

variable {m : Bool}

omit U in
theorem inside_emitEvent (item : Option TraceEvent) : Only (Req.insideOf req testId m) (Pipeline.emitEvent item) := by
  have hput : Only (Req.insideOf req testId m) (perform (.put item)) := only_request (by trivial)
  cases item with
  | none => exact hput
  | some e => exact only_bind (fun _ => hput) (only_request (by trivial))

omit U in
theorem inside_emitOracleError (message : String) :
    Only (Req.insideOf req testId m) (Pipeline.emitOracleError testId message) :=
  only_bind (fun _ => inside_emitEvent req testId _) (only_request (by trivial))

omit U in
theorem inside_result : Only (Req.insideOf req testId m) Pipeline.result := by
  have hids : Only (Req.insideOf req testId m) (perform .canaryIds) := only_request (by trivial)
  exact only_bind (fun _ => only_bind (fun _ => only_ret) hids) (only_request (by trivial))

omit U in
theorem inside_aclose (timeout : Nat) : Only (Req.insideOf req testId m) (TraceHarvester.aclose timeout) :=
  only_mono (fun _ h => h.inside) (only_aclose timeout)

omit U in
theorem inside_reportHealth : Only (Req.insideOf req testId m) (Pipeline.reportHealth testId) := by
  have hask : ∀ {a : Req}, a.insideOf req testId m → Only (Req.insideOf req testId m) (perform a) := only_request
  refine only_bind (fun _ => only_bind (fun problems => only_bind (fun _ => ?_) ?_) (hask (by trivial)))
    (inside_aclose req testId _)
  · exact only_bind (fun st => only_ifSo (hask (by trivial))) (hask (by trivial))
  · exact only_forEach fun message _ => inside_emitOracleError req testId message

omit U in
theorem inside_giveUp : Only (Req.insideOf req testId m) (Pipeline.giveUp testId) := by
  refine only_bind (fun _ => only_bind (fun _ => ?_) (inside_emitEvent req testId none))
    (inside_emitOracleError req testId _)
  exact only_bind (fun _ => only_ret) (inside_result req testId)

theorem inside_handle (e : PyExc) : Only (Req.insideOf req testId m) (Pipeline.handle testId e) := by
  have hreport : ∀ text, Only (Req.insideOf req testId m) (Pipeline.reportException testId text) := by
    intro text
    refine only_bind (fun _ => only_bind (fun _ => only_bind (fun _ => ?_) (inside_emitEvent req testId none))
      (inside_emitEvent req testId _)) (only_request (by trivial))
    exact only_bind (fun _ => only_ret) (inside_aclose req testId _)
  unfold Pipeline.handle
  split
  · exact hreport _
  · split
    · exact hreport _
    · exact trivial

omit U in
theorem inside_stopListener (proc : Nat) : Only (Req.insideOf req testId m) (Pipeline.stopListener proc) := by
  have hask : ∀ {a : Req}, a.insideOf req testId m → Only (Req.insideOf req testId m) (perform a) := only_request
  refine only_tryCatch (fun e => ?_) (only_bind (fun _ => hask (by trivial)) (hask (by trivial)))
  split
  · exact only_suppress (hask (by trivial))
  · exact trivial

omit U in
theorem commands_teardown : Only (Req.commandsOf req testId m) (Pipeline.teardown req testId) := by
  have hlinkDel : Only (Req.commandsOf req testId m) (Pipeline.deleteHostVeth (deriveNames testId).vethHost) :=
    only_bind (fun _ => only_ret) (only_request (runs_root (.linkDel (.inl rfl))))
  refine only_bind (fun procs => only_bind (fun _ => ?_) ?_) (only_request (by trivial))
  · exact only_bind (fun _ => hlinkDel) (only_forEach fun ns hns => commands_destroyNetns hns)
  · exact only_forEach fun proc _ => only_mono (fun _ h => h.commands) (inside_stopListener req testId proc)

end Quiet

theorem inside_checkLiveness :
    Only (Req.insideOf req testId c.useNsenter) (Pipeline.checkLiveness cfg req testId c) := by
  have hseen : Only (Req.insideOf req testId c.useNsenter) (perform .seenTraceIds) := only_request (by trivial)
  refine only_bind (fun before => only_bind (fun alive => only_bind (fun _ => ?_) ?_) ?_) hseen
  · refine only_bind (fun now => ?_) hseen
    exact only_request (by trivial)
  · exact only_ifSo (inside_emitOracleError req testId _)
  · exact inside_probeOracle cfg (targetOf c req testId) _

theorem inside_reportConntrack :
    Only (Req.insideOf req testId c.useNsenter) (Pipeline.reportConntrack req testId c) := by
  have hn := ofRun_target c req testId
  have hcat : ∀ file, Only (Req.insideOf req testId c.useNsenter)
      (Conntrack.catTable (execPrefix c.useNsenter (Pipeline.target req testId c).netns) file) := fun file =>
    only_bind (fun _ => only_ret) (only_request (inside_enters hn rfl _ _))
  have helse : ∀ {x y : Prog (List String)}, Only (Req.insideOf req testId c.useNsenter) x →
      Only (Req.insideOf req testId c.useNsenter) y →
        Only (Req.insideOf req testId c.useNsenter) (Conntrack.orElseOnFailure x y) := by
    intro x y hx hy
    refine only_tryCatch (fun e => ?_) hx
    split
    · exact hy
    · exact trivial
  refine only_bind (fun entries => only_bind (fun _ => ?_) (only_request (by trivial))) ?_
  · exact only_forEach fun ct _ => inside_emitEvent req testId _
  · refine only_bind (fun _ => only_bind (fun lines => ?_) ?_) (only_request (by trivial))
    · unfold Conntrack.liftExcept
      split <;> exact trivial
    · exact helse (hcat _) (helse (hcat _) trivial)

theorem inside_measure : Only (Req.insideOf req testId c.useNsenter) (Pipeline.measure cfg req testId c) := by
  have hask : ∀ {a : Req}, a.insideOf req testId c.useNsenter →
      Only (Req.insideOf req testId c.useNsenter) (perform a) := only_request
  refine only_bind (fun ids => only_bind (fun _ => only_bind (fun _ => only_bind (fun _ => ?_) (hask (by trivial)))
    (inside_injectFrom cfg (targetOf c req testId) _ _)) (hask (by trivial))) (hask (by trivial))
  refine only_bind (fun _ => only_bind (fun _ => only_bind (fun _ => only_ret) ?_) ?_)
    (inside_checkLiveness c cfg req testId)
  · exact inside_reportHealth req testId
  · exact inside_reportConntrack c req testId

/-- Once the topology is set up, the body of a run stays inside. -/
theorem inside_setUp : Only (Req.insideOf req testId c.useNsenter)
    ((Pipeline.spawnListeners req testId c).bind fun _ => (Pipeline.startMonitor cfg req testId c).bind fun _ =>
      (Pipeline.probeOracle cfg (Pipeline.target req testId c) .readiness (Pipeline.canarySpec req.firstPacket)).bind
        fun ready =>
        if ready then Pipeline.measure cfg req testId c else Pipeline.giveUp testId) := by
  refine only_bind (fun _ => only_bind (fun _ => only_bind (fun ready => ?_) ?_) ?_) ?_
  · split
    · exact inside_measure c cfg req testId
    · exact inside_giveUp req testId
  · exact inside_probeOracle cfg (targetOf c req testId) _
  · exact inside_startMonitor c cfg req testId
  · exact inside_spawnListeners c req testId

theorem commands_body : Only (Req.commandsOf req testId c.useNsenter) (Pipeline.body cfg req testId c) :=
  only_bind (fun _ => only_mono (fun _ h => h.commands) (inside_setUp c cfg req testId))
    (commands_setupTopology c req testId)

/-- A run of one controller runs no command but those of that run, in the controller's mode. -/
theorem commands_runWith : Only (Req.commandsOf req testId c.useNsenter) (Pipeline.runWith cfg req testId c) := by
  refine only_bind (fun _ => only_bind (fun early => ?_) (only_tryFinally ?_ ?_)) (only_request (by trivial))
  · cases early with
    | some ref => exact trivial
    | none => exact only_mono (fun _ h => h.commands) (inside_result req testId)
  · exact commands_teardown req testId
  · have hhandle : ∀ e, Only (Req.commandsOf req testId c.useNsenter) (Pipeline.handle testId e) :=
      fun e => only_mono (fun _ h => h.commands) (inside_handle req testId e)
    exact only_tryCatch hhandle (commands_body c cfg req testId)

end Steps

end Commands

end Nse
