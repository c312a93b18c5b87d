/-
  Nse.Core.NetnsController — namespaces, veth pairs and topologies
  (`nse/core/netns_controller.py`).
-/

import Nse.Core.Effects
import Nse.Core.Naming

namespace Nse

structure NetnsController where
  useNsenter : Bool
  deriving DecidableEq, Repr

namespace NetnsController

/-- `_run`. -/
def run (argv : List Arg) : Prog Unit := do
  let _ ← perform (.run { argv, check := true, timeout := some 10000 })
  pure ()

/-- One `_run` after another. -/
def runAll (cmds : List (List Arg)) : Prog Unit := Coroutine.Co.forEach cmds run

def ip (words : List String) : List Arg := .bin "ip" :: words.map .str

def sysctl (setting : String) : List Arg := [.bin "sysctl", .str "-w", .str setting]

/-! ## The startup sweep -/

def quietly (argv : List Arg) : Prog Completed := perform (.run { argv, check := false, timeout := some 5000 })

variable [U : PyStr.Unicode]

def hasPrefix (prefixes : List String) (name : String) : Bool := prefixes.any (PyStr.startsWith name ·)

/-- The name on one line of `ip netns list`. -/
def netnsName (line : String) : String := ((PyStr.split line).head?).getD ""

/-- The name on one line of `ip link show`. -/
def linkName (line : String) : Option String :=
  match PyStr.splitOn ':' line with
  | _ :: part :: _ => (PyStr.splitOn '@' (PyStr.strip part)).head?
  | _ => none

def sweepNetns (line : String) : Prog Unit :=
  if hasPrefix netnsSweepPrefixes (netnsName line) then do
    let _ ← quietly (ip ["netns", "del", netnsName line])
    pure ()
  else pure ()

def sweepLink (line : String) : Prog Unit :=
  match linkName line with
  | some iface =>
    if hasPrefix vethSweepPrefixes iface then do
      let _ ← quietly (ip ["link", "del", iface])
      pure ()
    else pure ()
  | none => pure ()

def sweepListing (words : List String) (each : String → Prog Unit) : Prog Unit :=
  suppress PyExc.isException do
    let res ← quietly (ip words)
    if res.returncode = 0 then Coroutine.Co.forEach (PyStr.splitlines res.stdout) each else pure ()

def startupSweep : Prog Unit := do
  sweepListing ["netns", "list"] sweepNetns
  sweepListing ["link", "show"] sweepLink

/-- `NetnsController(use_nsenter)`. -/
def new (useNsenter : Option Bool) : Prog NetnsController := do
  let useNsenter ← match useNsenter with
    | some b => pure b
    | none => perform .inContainer
  startupSweep
  pure { useNsenter }

/-! ## Namespaces -/

variable (c : NetnsController)

omit U in
def execPrefix (name : String) : List Arg := Nse.execPrefix c.useNsenter name

/-- `_run_in_netns`, as a command. -/
def inNetns (name : String) (argv : List Arg) : List Arg := c.execPrefix name ++ argv

def createNetns (name : String) : Prog Unit := do
  run (ip ["netns", "add", name])
  perform (.addActive name)
  suppress (·.cls == .calledProcessError) do
    run (c.inNetns name (sysctl "net.ipv6.conf.all.accept_dad=0"))
    run (c.inNetns name (sysctl "net.ipv6.conf.default.accept_dad=0"))

def alreadyGone (e : PyExc) : Bool :=
  PyStr.includes "No such file or directory" e.stderr || PyStr.includes "Invalid argument" e.stderr

/-- One turn of the retry loop of `destroy_netns` for each delay left. -/
def destroyAttempts (name : String) : List Nat → Prog Unit
  | [] => pure ()
  | delay :: delays => do
    let again ← (do run (ip ["netns", "del", name]); pure false : Prog Bool).tryCatch fun e =>
      if e.cls = .calledProcessError then
        if alreadyGone e then pure false
        else if delays = [] then pure true
        else do
          perform (.sleep delay)
          pure true
      else if e.cls = .timeoutExpired then pure false
      else raise e
    if again then destroyAttempts name delays else pure ()

def destroyNetns (name : String) : Prog Unit := do
  destroyAttempts name [100, 500, 1000]
  perform (.discardActive name)

def cleanupAll : Prog Unit := do
  let names ← perform .activeNs
  Coroutine.Co.forEach names destroyNetns

/-! ## Topologies -/

/-- The last of the addresses of one family, or the default when there is none. -/
def pickAddress (v6 : Bool) (default : String) (ips : List String) : String :=
  match (ips.filter fun a => PyStr.contains ':' a == v6).getLast? with
  | some a => if a = "" then default else a
  | none => default

def createVethPair (netns vethHost vethPeer : String) (hostIps peerIps : List String) : Prog Unit :=
  let v4Host := pickAddress false "10.0.0.1/24" hostIps
  let v4Peer := pickAddress false "10.0.0.2/24" peerIps
  let v6Host := pickAddress true "fd00::1/64" hostIps
  let v6Peer := pickAddress true "fd00::2/64" peerIps
  runAll
    [ip ["link", "add", vethHost, "type", "veth", "peer", "name", vethPeer],
      ip ["link", "set", vethPeer, "netns", netns],
      ip ["addr", "add", v4Host, "dev", vethHost],
      ip ["addr", "add", v6Host, "dev", vethHost],
      ip ["link", "set", vethHost, "up"],
      c.inNetns netns (ip ["addr", "add", v4Peer, "dev", vethPeer]),
      c.inNetns netns (ip ["addr", "add", v6Peer, "dev", vethPeer]),
      c.inNetns netns (ip ["link", "set", vethPeer, "up"]),
      c.inNetns netns (ip ["link", "set", "lo", "up"])]

/-- The addresses `create_gateway_topology` takes, with its defaults. -/
structure GatewayAddresses where
  hostV4 : String := "10.0.1.1/24"
  routerHostV4 : String := "10.0.1.2/24"
  routerServerV4 : String := "10.0.2.1/24"
  serverV4 : String := "10.0.2.2/24"
  hostV6 : String := "fd00:1::1/64"
  routerHostV6 : String := "fd00:1::2/64"
  routerServerV6 : String := "fd00:2::1/64"
  serverV6 : String := "fd00:2::2/64"

/-- `address.split("/")[0]`. -/
def hostPart (address : String) : String := ((PyStr.splitOn '/' address).head?).getD ""

def createGatewayTopology (routerNs serverNs vethHost vethRouterHost vethRouterServer vethServer : String)
    (a : GatewayAddresses) : Prog Unit := do
  c.createNetns routerNs
  c.createNetns serverNs
  runAll
    [c.inNetns routerNs (sysctl "net.ipv4.ip_forward=1"),
      c.inNetns routerNs (sysctl "net.ipv6.conf.all.forwarding=1")]
  -- Host <-> Router
  runAll
    [ip ["link", "add", vethHost, "type", "veth", "peer", "name", vethRouterHost],
      ip ["link", "set", vethRouterHost, "netns", routerNs],
      ip ["addr", "add", a.hostV4, "dev", vethHost],
      ip ["addr", "add", a.hostV6, "dev", vethHost],
      ip ["link", "set", vethHost, "up"],
      c.inNetns routerNs (ip ["addr", "add", a.routerHostV4, "dev", vethRouterHost]),
      c.inNetns routerNs (ip ["addr", "add", a.routerHostV6, "dev", vethRouterHost]),
      c.inNetns routerNs (ip ["link", "set", vethRouterHost, "up"])]
  -- Router <-> Server
  runAll
    [c.inNetns routerNs (ip ["link", "add", vethRouterServer, "type", "veth", "peer", "name", vethServer]),
      c.inNetns routerNs (ip ["link", "set", vethServer, "netns", serverNs]),
      c.inNetns routerNs (ip ["addr", "add", a.routerServerV4, "dev", vethRouterServer]),
      c.inNetns routerNs (ip ["addr", "add", a.routerServerV6, "dev", vethRouterServer]),
      c.inNetns routerNs (ip ["link", "set", vethRouterServer, "up"]),
      c.inNetns serverNs (ip ["addr", "add", a.serverV4, "dev", vethServer]),
      c.inNetns serverNs (ip ["addr", "add", a.serverV6, "dev", vethServer]),
      c.inNetns serverNs (ip ["link", "set", vethServer, "up"]),
      c.inNetns routerNs (ip ["link", "set", "lo", "up"]),
      c.inNetns serverNs (ip ["link", "set", "lo", "up"])]
  -- transit routes
  runAll
    [ip ["route", "add", "10.0.2.0/24", "via", hostPart a.routerHostV4, "dev", vethHost],
      ip ["-6", "route", "add", "fd00:2::/64", "via", hostPart a.routerHostV6, "dev", vethHost],
      c.inNetns serverNs (ip ["route", "add", "default", "via", hostPart a.routerServerV4, "dev", vethServer]),
      c.inNetns serverNs (ip ["-6", "route", "add", "default", "via", hostPart a.routerServerV6, "dev", vethServer])]

/-! ## What a controller asks -/

section Asks

open Coroutine

variable {p : Req → Prop} {name : String}

omit U in
theorem asks_run {argv : List Arg} (h : p (.run { argv, check := true, timeout := some 10000 })) : Only p (run argv) :=
  only_bind (fun _ => only_ret) (only_request h)

omit U in
theorem asks_runAll {cmds : List (List Arg)}
    (h : ∀ argv ∈ cmds, p (.run { argv, check := true, timeout := some 10000 })) :
    Only p (runAll cmds) :=
  only_forEach fun argv hargv => asks_run (h argv hargv)

omit U in
/-- What comes after the namespace was made. -/
theorem asks_disableDad (hin : ∀ setting,
    p (.run { argv := c.inNetns name (sysctl setting), check := true, timeout := some 10000 })) :
    Only p (suppress (·.cls == .calledProcessError) do
      run (c.inNetns name (sysctl "net.ipv6.conf.all.accept_dad=0"))
      run (c.inNetns name (sysctl "net.ipv6.conf.default.accept_dad=0"))) :=
  only_suppress (only_bind (fun _ => asks_run (hin _)) (asks_run (hin _)))

omit U in
theorem asks_createNetns (hadd : p (.run { argv := ip ["netns", "add", name], check := true, timeout := some 10000 }))
    (hactive : p (.addActive name))
    (hin : ∀ setting, p (.run { argv := c.inNetns name (sysctl setting), check := true, timeout := some 10000 })) :
      Only p (c.createNetns name) :=
  only_bind (fun _ => only_bind (fun _ => asks_disableDad c hin) (only_request hactive)) (asks_run hadd)

omit U in
theorem asks_destroyAttempts (hdel : p
    (.run { argv := ip ["netns", "del", name], check := true, timeout := some 10000 }))
    (hsleep : ∀ ms, p (.sleep ms)) : ∀ delays : List Nat, Only p (destroyAttempts name delays)
  | [] => trivial
  | delay :: delays => by
    refine only_bind (fun again => ?_) (only_tryCatch (fun e => ?_) (only_bind (fun _ => only_ret) (asks_run hdel)))
    · cases again
      · exact trivial
      · exact asks_destroyAttempts hdel hsleep delays
    · split
      · split
        · exact trivial
        · split
          · exact trivial
          · exact only_bind (fun _ => only_ret) (only_request (hsleep delay))
      · split <;> exact trivial

omit U in
theorem asks_destroyNetns (hdel : p (.run { argv := ip ["netns", "del", name], check := true, timeout := some 10000 }))
    (hsleep : ∀ ms, p (.sleep ms)) (hdiscard : p (.discardActive name)) : Only p (destroyNetns name) :=
  only_bind (fun _ => only_request hdiscard) (asks_destroyAttempts hdel hsleep _)

end Asks

end NetnsController

end Nse
