/-
  Nse.Core.Gateway — the three stacks `create_gateway_topology` connects.

  Every command succeeds as far as the host lets it (`NetHost.Host.perform`): it is refused
  where it names an interface that is not in its stack, or a gateway that the interface does
  not reach or that cannot be one. The addresses are any for which host and router share one
  network, router and server another, outside the ranges that the kernel treats apart.

  As built the host's routes are for `10.0.2.0/24` and `fd00:2::/64`, whatever the addresses.
  `connected_iff`: the topology comes out connected exactly when the server's addresses lie in
  these two and no gateway is refused: in IPv6 the two ends of a link have different addresses,
  in IPv4 the router's is not the broadcast address of the link, unless the other end has it
  too. With a server elsewhere (`a_server_elsewhere`) every command succeeds and the host has no
  route to it.
-/

import Nse.Core.Lifetime
import Nse.Lib.Subnet

namespace Nse.NetnsController

open Coroutine
open IpAddress (Subnet parseSubnet plainAddress)
open NetHost (Act End Host Pair Route)

/-! ## Addresses -/

namespace GatewayAddresses

variable (a : GatewayAddresses)

/-- The addresses of one family. -/
def host (v6 : Bool) : String := if v6 then a.hostV6 else a.hostV4

def routerHost (v6 : Bool) : String := if v6 then a.routerHostV6 else a.routerHostV4

def routerServer (v6 : Bool) : String := if v6 then a.routerServerV6 else a.routerServerV4

def server (v6 : Bool) : String := if v6 then a.serverV6 else a.serverV4

end GatewayAddresses

/-- What the kernel does not take for the address of one host: `0.0.0.0/8`, the loopback network
    and `224.0.0.0/3`; `::` and `::1`, link-local and multicast addresses. -/
def specialRanges : List Subnet :=
  [{ v6 := false, addr := 0, len := 8 }, { v6 := false, addr := 127 * 2 ^ 24, len := 8 },
    { v6 := false, addr := 224 * 2 ^ 24, len := 3 }, { v6 := true, addr := 0, len := 127 },
    { v6 := true, addr := 0xfe80 * 2 ^ 112, len := 10 }, { v6 := true, addr := 0xff00 * 2 ^ 112, len := 8 }]

/-- What the addresses denote, for each family: host and router share a network, router and
    server share another. -/
structure Layout (a : GatewayAddresses) where
  host : Bool → Subnet
  routerHost : Bool → Subnet
  routerServer : Bool → Subnet
  server : Bool → Subnet
  host_read : ∀ v6, parseSubnet (a.host v6) = some (host v6)
  routerHost_read : ∀ v6, parseSubnet (a.routerHost v6) = some (routerHost v6)
  routerServer_read : ∀ v6, parseSubnet (a.routerServer v6) = some (routerServer v6)
  server_read : ∀ v6, parseSubnet (a.server v6) = some (server v6)
  host_family : ∀ v6, (host v6).v6 = v6
  server_family : ∀ v6, (server v6).v6 = v6
  near : ∀ v6, (host v6).same (routerHost v6) = true
  far : ∀ v6, (server v6).same (routerServer v6) = true
  apart : ∀ v6, (host v6).Apart (server v6)
  ordinary : ∀ v6, ∀ t ∈ specialRanges, (host v6).Apart t ∧ (server v6).Apart t

/-- An end with this address does not take the other one for a gateway. -/
def refusedBy (s : Subnet) (n : Nat) : Bool := if s.v6 then s.addr == n else s.broadcasts n && !(s.addr == n)

/-- The networks of the host's routes. -/
def transitText (v6 : Bool) : String := if v6 then "fd00:2::/64" else "10.0.2.0/24"

def transit (v6 : Bool) : Subnet :=
  if v6 then { v6 := true, addr := 0xfd000002 * 2 ^ 96, len := 64 }
    else { v6 := false, addr := 10 * 2 ^ 24 + 2 * 2 ^ 8, len := 24 }

theorem transit_dest (v6 : Bool) : NetHost.parseDest v6 (transitText v6) = some (transit v6) := by
  cases v6 <;> decide +kernel

theorem transit_family (v6 : Bool) : (transit v6).v6 = v6 := by cases v6 <;> rfl

/-! ## The host before and after -/

structure GatewayNames where
  routerNs : String
  serverNs : String
  vethHost : String
  vethRouterHost : String
  vethRouterServer : String
  vethServer : String

def GatewayNames.list (n : GatewayNames) : List String :=
  [n.routerNs, n.serverNs, n.vethHost, n.vethRouterHost, n.vethRouterServer, n.vethServer]

section Before

variable {ω : Type} (h : Host ω) (n : GatewayNames)

/-- The names can be used on the host. -/
structure FreeNames : Prop where
  distinct : n.list.Nodup
  router : h.hasSpace n.routerNs = false
  server : h.hasSpace n.serverNs = false
  vethHost : h.has none n.vethHost = false
  vethRouterHost : h.has none n.vethRouterHost = false
  noLoopback : "lo" ∉ n.list

/-- What the root stack has so far is for other networks than these, default routes apart. -/
structure Elsewhere (nets : List Subnet) : Prop where
  addrs : ∀ e ∈ h.ends, e.stack = none → ∀ s ∈ e.addrs.filterMap parseSubnet, ∀ t ∈ nets, s.Apart t
  routes : ∀ r ∈ h.routes, r.stack = none → r.dest.len = 0 ∨ ∀ t ∈ nets, r.dest.Apart t

def Layout.nets {a : GatewayAddresses} (l : Layout a) : List Subnet :=
  [l.host false, l.host true, l.server false, l.server true, transit false, transit true]

variable (a : GatewayAddresses) (l : Layout a)

/-- The two links stand between the three stacks, every interface is up, and each side routes
    to the other through the router's address on its own side. -/
structure Connected (who : ω) : Prop where
  hostLink : Host.builtPair who none n.routerNs n.vethHost n.vethRouterHost a.hostV4 a.hostV6 a.routerHostV4
    a.routerHostV6 ∈ h.pairs
  serverLink : Host.builtPair who (some n.routerNs) n.serverNs n.vethRouterServer n.vethServer
    a.routerServerV4 a.routerServerV6
    a.serverV4 a.serverV6 ∈ h.pairs
  routerLo : newSpace who n.routerNs true ∈ h.spaces
  serverLo : newSpace who n.serverNs true ∈ h.spaces
  toServer : ∀ v6, h.RoutesVia none v6 (l.server v6).addr (l.routerHost v6).addr n.vethHost
  toHost : ∀ v6, h.RoutesVia (some n.serverNs) v6 (l.host v6).addr (l.routerServer v6).addr n.vethServer

end Before

/-! ## The commands -/

section Commands

variable (c : NetnsController) (n : GatewayNames) (a : GatewayAddresses)

def forwardArgvs : List (List Arg) :=
  [c.inNetns n.routerNs (sysctl "net.ipv4.ip_forward=1"),
    c.inNetns n.routerNs (sysctl "net.ipv6.conf.all.forwarding=1")]

def hostLinkArgvs : List (List Arg) :=
  [ip ["link", "add", n.vethHost, "type", "veth", "peer", "name", n.vethRouterHost],
    ip ["link", "set", n.vethRouterHost, "netns", n.routerNs],
    ip ["addr", "add", a.hostV4, "dev", n.vethHost],
    ip ["addr", "add", a.hostV6, "dev", n.vethHost],
    ip ["link", "set", n.vethHost, "up"],
    c.inNetns n.routerNs (ip ["addr", "add", a.routerHostV4, "dev", n.vethRouterHost]),
    c.inNetns n.routerNs (ip ["addr", "add", a.routerHostV6, "dev", n.vethRouterHost]),
    c.inNetns n.routerNs (ip ["link", "set", n.vethRouterHost, "up"])]

def serverLinkArgvs : List (List Arg) :=
  [c.inNetns n.routerNs (ip ["link", "add", n.vethRouterServer, "type", "veth", "peer", "name", n.vethServer]),
    c.inNetns n.routerNs (ip ["link", "set", n.vethServer, "netns", n.serverNs]),
    c.inNetns n.routerNs (ip ["addr", "add", a.routerServerV4, "dev", n.vethRouterServer]),
    c.inNetns n.routerNs (ip ["addr", "add", a.routerServerV6, "dev", n.vethRouterServer]),
    c.inNetns n.routerNs (ip ["link", "set", n.vethRouterServer, "up"]),
    c.inNetns n.serverNs (ip ["addr", "add", a.serverV4, "dev", n.vethServer]),
    c.inNetns n.serverNs (ip ["addr", "add", a.serverV6, "dev", n.vethServer]),
    c.inNetns n.serverNs (ip ["link", "set", n.vethServer, "up"]),
    c.inNetns n.routerNs (ip ["link", "set", "lo", "up"]),
    c.inNetns n.serverNs (ip ["link", "set", "lo", "up"])]

def routeArgvs : List (List Arg) :=
  [ip ["route", "add", "10.0.2.0/24", "via", hostPart a.routerHostV4, "dev", n.vethHost],
    ip ["-6", "route", "add", "fd00:2::/64", "via", hostPart a.routerHostV6, "dev", n.vethHost],
    c.inNetns n.serverNs (ip ["route", "add", "default", "via", hostPart a.routerServerV4, "dev", n.vethServer]),
    c.inNetns n.serverNs (ip ["-6", "route", "add", "default", "via", hostPart a.routerServerV6, "dev", n.vethServer])]

/-- `create_gateway_topology`, with the names as one record. -/
def createGateway : Prog Unit :=
  c.createGatewayTopology n.routerNs n.serverNs n.vethHost n.vethRouterHost n.vethRouterServer n.vethServer a

theorem createGateway_eq : c.createGateway n a = (c.createNetns n.routerNs).bind fun _ =>
    (c.createNetns n.serverNs).bind fun _ =>
    (runAll (c.forwardArgvs n)).bind fun _ => (runAll (c.hostLinkArgvs n a)).bind fun _ =>
      (runAll (c.serverLinkArgvs n a)).bind fun _ => runAll (c.routeArgvs n a) := rfl

variable {c n a}

theorem commands_forward :
    (c.forwardArgvs n).map commandOf = [(some n.routerNs, .other), (some n.routerNs, .other)] := by
  have hsysctl : ∀ setting, commandOf (c.inNetns n.routerNs (sysctl setting)) = (some n.routerNs, .other) :=
    fun _ => commandOf_execPrefix _ _ _
  rw [forwardArgvs, List.map_cons, List.map_cons, hsysctl, hsysctl, List.map_nil]

theorem commands_hostLink : (c.hostLinkArgvs n a).map commandOf =
    Host.vethActs none n.routerNs n.vethHost n.vethRouterHost a.hostV4 a.hostV6 a.routerHostV4 a.routerHostV6 := by
  simp only [hostLinkArgvs, List.map_cons, List.map_nil, commandOf_inNetns]
  rfl

theorem commands_serverLink : (c.serverLinkArgvs n a).map commandOf =
    Host.vethActs (some n.routerNs) n.serverNs n.vethRouterServer n.vethServer a.routerServerV4 a.routerServerV6
      a.serverV4 a.serverV6 ++
      [(some n.routerNs, .linkUp "lo"), (some n.serverNs, .linkUp "lo")] := by
  simp only [serverLinkArgvs, List.map_cons, List.map_nil, commandOf_inNetns]
  rfl

theorem commands_routes : (c.routeArgvs n a).map commandOf =
    [(none, .routeAdd false (transitText false) (hostPart (a.routerHost false)) n.vethHost),
      (none, .routeAdd true (transitText true) (hostPart (a.routerHost true)) n.vethHost),
      (some n.serverNs, .routeAdd false "default" (hostPart (a.routerServer false)) n.vethServer),
      (some n.serverNs, .routeAdd true "default" (hostPart (a.routerServer true)) n.vethServer)] := by
  simp only [routeArgvs, List.map_cons, List.map_nil, commandOf_inNetns]
  rfl

end Commands

/-! ## The links -/

section Links

variable {ω : Type} {h : Host ω} {n : GatewayNames}

theorem FreeNames.ne_lo (hf : FreeNames h n) {name : String} (hname : name ∈ n.list) : name ≠ "lo" := by
  rintro rfl
  exact hf.noLoopback hname

theorem FreeNames.spaces_ne (hf : FreeNames h n) : n.routerNs ≠ n.serverNs := by
  have hdistinct := hf.distinct
  simp only [GatewayNames.list, List.nodup_cons, List.mem_cons, not_or] at hdistinct
  exact hdistinct.1.1

theorem FreeNames.ends_ne (hf : FreeNames h n) : n.vethHost ≠ n.vethRouterHost ∧ n.vethRouterHost ≠ n.vethRouterServer ∧
    n.vethRouterHost ≠ n.vethServer ∧ n.vethRouterServer ≠ n.vethServer := by
  have hdistinct := hf.distinct
  simp only [GatewayNames.list, List.nodup_cons, List.mem_cons, List.not_mem_nil, or_false, not_or] at hdistinct
  obtain ⟨-, -, hhost, hrouterHost, hrouterServer, -⟩ := hdistinct
  exact ⟨hhost.1, hrouterHost.1, hrouterHost.2, hrouterServer⟩

variable (who : ω) (h n) (a : GatewayAddresses)

/-- Two namespaces have been made, their loopbacks up or down. -/
def spaced (routerUp serverUp : Bool) : Host ω :=
  (h.withSpace (newSpace who n.routerNs routerUp)).withSpace (newSpace who n.serverNs serverUp)

def hostPair : Pair ω :=
  Host.builtPair who none n.routerNs n.vethHost n.vethRouterHost a.hostV4 a.hostV6 a.routerHostV4 a.routerHostV6

def serverPair : Pair ω :=
  Host.builtPair who (some n.routerNs) n.serverNs n.vethRouterServer n.vethServer a.routerServerV4
    a.routerServerV6 a.serverV4 a.serverV6

/-- Both links have been built. -/
def wired (routerUp serverUp : Bool) : Host ω :=
  ((spaced h n who routerUp serverUp).withPair (hostPair n who a)).withPair (serverPair n who a)

variable {h n}

theorem performAll_hostLink (hw : h.WellFormed) (hf : FreeNames h n) (routerUp serverUp : Bool) :
    (spaced h n who routerUp serverUp).performAll who
      (Host.vethActs none n.routerNs n.vethHost n.vethRouterHost a.hostV4 a.hostV6 a.routerHostV4 a.routerHostV6) =
        some ((spaced h n who routerUp serverUp).withPair (hostPair n who a)) := by
  have hlo := hf.ne_lo (show n.vethRouterHost ∈ n.list by simp [GatewayNames.list])
  have hvacant := hw.vacant hf.router
  apply Host.performAll_veth
  · rfl
  · simp [spaced, newSpace]
  · exact hf.ends_ne.1
  · simp [spaced, newSpace, End.at, hf.vethHost]
  · simp [spaced, newSpace, End.at, hf.vethRouterHost]
  · simp [spaced, newSpace, End.at, hvacant, Ne.symm hlo]
  · simp
  · exact (hw.live.withSpace _).withSpace _

theorem performAll_serverLink (hw : h.WellFormed) (hf : FreeNames h n) (routerUp serverUp : Bool) :
    ((spaced h n who routerUp serverUp).withPair (hostPair n who a)).performAll who
      (Host.vethActs (some n.routerNs) n.serverNs n.vethRouterServer n.vethServer a.routerServerV4
        a.routerServerV6 a.serverV4
        a.serverV6) = some (wired h n who a routerUp serverUp) := by
  have hlo : ∀ name ∈ n.list, "lo" ≠ name := fun name hname => Ne.symm (hf.ne_lo hname)
  simp only [GatewayNames.list, List.forall_mem_cons] at hlo
  have hrouter := hw.vacant hf.router
  have hserver := hw.vacant hf.server
  apply Host.performAll_veth
  · simp [Host.hasStack, spaced, newSpace]
  · simp [spaced, newSpace]
  · exact hf.ends_ne.2.2.2
  · simp [spaced, newSpace, hostPair, Host.builtPair, Pair.any, End.at, hrouter, hlo, hf.ends_ne]
  · simp [spaced, newSpace, hostPair, Host.builtPair, Pair.any, End.at, hrouter, hlo, hf.ends_ne]
  · simp [spaced, newSpace, hostPair, Host.builtPair, Pair.any, End.at, hserver, hlo, hf.spaces_ne]
  · simp [hf.spaces_ne]
  · exact ((hw.live.withSpace _).withSpace _).withPair _

theorem performAll_loopbacks (hw : h.WellFormed) (hf : FreeNames h n) :
    (wired h n who a false false).performAll who [(some n.routerNs, .linkUp "lo"), (some n.serverNs, .linkUp "lo")] =
      some (wired h n who a true true) := by
  have hlo : ∀ name ∈ n.list, name ≠ "lo" := fun name hname => hf.ne_lo hname
  simp only [GatewayNames.list, List.forall_mem_cons] at hlo
  have hpairs : ∀ name, (hostPair n who a).any (·.at (some name) "lo") = false ∧
      (serverPair n who a).any (·.at (some name) "lo") = false := by
    intro name
    simp [hostPair, serverPair, Host.builtPair, Pair.any, End.at, hlo]
  have hrouter : (wired h n who a false false).perform who (some n.routerNs) (.linkUp "lo") =
      some (wired h n who a true false) := by
    rw [Host.perform_linkUp (by simp [Host.hasStack, wired, spaced, newSpace])
      (by simp [wired, spaced, newSpace, End.at])]
    rw [wired, Host.mapEnds_withPair, Host.mapEnds_withPair, NetHost.Host.map_onEnd_absent (hpairs _).1,
      NetHost.Host.map_onEnd_absent (hpairs _).2, spaced, Host.mapEnds_withSpace, Host.mapEnds_withSpace,
      Host.mapEnds_absent (hw.vacant hf.router "lo")]
    simp [wired, spaced, newSpace, NetHost.onEnd, End.at, Ne.symm hf.spaces_ne]
  have hserver : (wired h n who a true false).perform who (some n.serverNs) (.linkUp "lo") =
      some (wired h n who a true true) := by
    rw [Host.perform_linkUp (by simp [Host.hasStack, wired, spaced, newSpace])
      (by simp [wired, spaced, newSpace, End.at])]
    rw [wired, Host.mapEnds_withPair, Host.mapEnds_withPair, NetHost.Host.map_onEnd_absent (hpairs _).1,
      NetHost.Host.map_onEnd_absent (hpairs _).2, spaced, Host.mapEnds_withSpace, Host.mapEnds_withSpace,
      Host.mapEnds_absent (hw.vacant hf.server "lo")]
    simp [wired, spaced, newSpace, NetHost.onEnd, End.at, hf.spaces_ne]
  rw [Host.performAll, hrouter, Option.bind_some, Host.performAll, hserver, Option.bind_some, Host.performAll]

end Links

/-! ## Routing -/

section Routing

variable {ω : Type} {who : ω} {h : Host ω} {n : GatewayNames} {a : GatewayAddresses} {l : Layout a}

theorem plainAddress_hostPart {text : String} {s : Subnet} (hs : parseSubnet text = some s) :
    plainAddress (hostPart text) = some (s.v6, s.addr) := by
  unfold parseSubnet at hs
  unfold hostPart
  split at hs
  · rename_i x hsplit
    obtain ⟨⟨v6, k⟩, hx, rfl⟩ := Option.map_eq_some_iff.mp hs
    rw [hsplit]
    exact hx
  · rename_i x y hsplit
    obtain ⟨⟨v6, k⟩, hx, hs⟩ := Option.bind_eq_some_iff.mp hs
    rw [hsplit]
    split at hs
    · cases hs
    · obtain ⟨len, -, rfl⟩ := Option.map_eq_some_iff.mp hs
      exact hx
  · cases hs

/-- An address of one family is asked for among the addresses of both. -/
theorem any_family {s : Bool → Subnet} (hs : ∀ v6, (s v6).v6 = v6) (q : Subnet → Bool) (v6 : Bool)
    (hq : ∀ t, q t = true → t.v6 = v6) : [s false, s true].any q = q (s v6) := by
  have hother : q (s !v6) = false := by
    rw [Bool.eq_false_iff]
    intro hqs
    have heq := hq _ hqs
    rw [hs] at heq
    cases v6 <;> cases heq
  cases v6 with
  | false =>
    have hrest : q (s true) = false := hother
    simp [hrest]
  | true =>
    have hrest : q (s false) = false := hother
    simp [hrest]

theorem Layout.routerHost_family (l : Layout a) (v6 : Bool) : (l.routerHost v6).v6 = v6 :=
  (Subnet.same_iff.mp (l.near v6)).1.symm.trans (l.host_family v6)

theorem Layout.routerServer_family (l : Layout a) (v6 : Bool) : (l.routerServer v6).v6 = v6 :=
  (Subnet.same_iff.mp (l.far v6)).1.symm.trans (l.server_family v6)

theorem Layout.host_addrs (l : Layout a) : [a.hostV4, a.hostV6].filterMap parseSubnet =
    [l.host false, l.host true] := by
  have h4 : parseSubnet a.hostV4 = _ := l.host_read false
  have h6 : parseSubnet a.hostV6 = _ := l.host_read true
  simp [h4, h6]

theorem Layout.server_addrs (l : Layout a) : [a.serverV4, a.serverV6].filterMap parseSubnet =
    [l.server false, l.server true] := by
  have h4 : parseSubnet a.serverV4 = _ := l.server_read false
  have h6 : parseSubnet a.serverV6 = _ := l.server_read true
  simp [h4, h6]

theorem any_wired (q : End → Bool) (routerUp serverUp : Bool) : (wired h n who a routerUp serverUp).ends.any q =
    ((q (serverPair n who a).near || q (serverPair n who a).far) ||
      ((q (hostPair n who a).near || q (hostPair n who a).far) ||
      (q (newSpace who n.serverNs serverUp).lo || (q (newSpace who n.routerNs routerUp).lo || h.ends.any q)))) := by
  rw [wired, Host.any_withPair, Host.any_withPair, spaced, Host.any_withSpace, Host.any_withSpace]
  rfl

/-- The root stack has no other interface with an address in one of these networks. -/
theorem Elsewhere.any_root {nets : List Subnet} (he : Elsewhere h nets) {t : Subnet} (ht : t ∈ nets) {q : End → Bool}
    (hq : ∀ e, q e = true → e.stack = none ∧ ∃ s ∈ e.addrs.filterMap parseSubnet, ¬s.Apart t) :
      h.ends.any q = false := by
  rw [List.any_eq_false]
  intro e hmem hqe
  obtain ⟨hstack, s, hs, hmeets⟩ := hq e hqe
  exact hmeets (he.addrs e hmem hstack s hs t ht)

theorem Layout.mem_host (l : Layout a) (v6 : Bool) : l.host v6 ∈ l.nets := by cases v6 <;> simp [Layout.nets]

theorem Layout.mem_server (l : Layout a) (v6 : Bool) : l.server v6 ∈ l.nets := by cases v6 <;> simp [Layout.nets]

theorem Layout.mem_transit (l : Layout a) (v6 : Bool) : transit v6 ∈ l.nets := by cases v6 <;> simp [Layout.nets]

theorem Layout.covers_routerHost (l : Layout a) (v6 : Bool) : (l.host v6).covers v6 (l.routerHost v6).addr = true := by
  have hcovers := Subnet.covers_addr (l.near v6)
  rw [l.routerHost_family] at hcovers
  exact hcovers

theorem Layout.covers_routerServer (l : Layout a) (v6 : Bool) :
    (l.server v6).covers v6 (l.routerServer v6).addr = true := by
  have hcovers := Subnet.covers_addr (l.far v6)
  rw [l.routerServer_family] at hcovers
  exact hcovers

/-- The host's end of its link is the only interface of this name there. -/
theorem any_at_host (hf : FreeNames h n) (q : End → Bool) :
    ((wired h n who a true true).ends.any fun e => e.at none n.vethHost && q e) = q (hostPair n who a).near := by
  have hothers : (h.ends.any fun e => e.at none n.vethHost && q e) = false := by
    have hfree := hf.vethHost
    rw [Host.has, List.any_eq_false] at hfree
    rw [List.any_eq_false]
    exact fun e he hat => hfree e he (Bool.and_eq_true_iff.mp hat).1
  rw [any_wired, hothers]
  simp [hostPair, serverPair, Host.builtPair, newSpace, End.at]

/-- So is the server's end of the other link. -/
theorem any_at_server (hw : h.WellFormed) (hf : FreeNames h n) (q : End → Bool) :
    ((wired h n who a true true).ends.any fun e => e.at (some n.serverNs) n.vethServer && q e) =
      q (serverPair n who a).far := by
  have hothers : (h.ends.any fun e => e.at (some n.serverNs) n.vethServer && q e) = false := by
    simpa [End.at, Bool.and_assoc] using hw.any_vacant hf.server fun e => e.name == n.vethServer && q e
  have hlo : ("lo" == n.vethServer) = false := by
    simpa using Ne.symm (hf.ne_lo (show n.vethServer ∈ n.list by simp [GatewayNames.list]))
  have hne : (n.routerNs == n.serverNs) = false := by simpa using hf.spaces_ne
  rw [any_wired, hothers]
  simp [hostPair, serverPair, Host.builtPair, newSpace, End.at, hne, hlo]

theorem onLink_host (hf : FreeNames h n) (v6 : Bool) :
    (wired h n who a true true).onLink none n.vethHost v6 (l.routerHost v6).addr = true := by
  have haddrs : ([a.hostV4, a.hostV6].filterMap parseSubnet).any (·.covers v6 (l.routerHost v6).addr) = true := by
    rw [l.host_addrs, List.any_eq_true]
    exact ⟨l.host v6, by cases v6 <;> simp, l.covers_routerHost v6⟩
  rw [Host.onLink, any_at_host hf]
  simpa [hostPair, Host.builtPair] using haddrs

theorem onLink_server (hw : h.WellFormed) (hf : FreeNames h n) (v6 : Bool) :
    (wired h n who a true true).onLink (some n.serverNs) n.vethServer v6 (l.routerServer v6).addr = true := by
  have haddrs : ([a.serverV4, a.serverV6].filterMap parseSubnet).any (·.covers v6 (l.routerServer v6).addr) = true := by
    rw [l.server_addrs, List.any_eq_true]
    exact ⟨l.server v6, by cases v6 <;> simp, l.covers_routerServer v6⟩
  rw [Host.onLink, any_at_server hw hf]
  simpa [serverPair, Host.builtPair] using haddrs

theorem isOwn_host (he : Elsewhere h l.nets) (v6 : Bool) :
    (wired h n who a true true).isOwn none v6 (l.routerHost v6).addr =
      ((l.host v6).addr == (l.routerHost v6).addr) := by
  have hothers : (h.ends.any fun e => e.stack == none &&
      (e.addrs.filterMap parseSubnet).any fun s => s.v6 == v6 && s.addr == (l.routerHost v6).addr) = false := by
    apply he.any_root (l.mem_host v6)
    intro e hown
    simp only [Bool.and_eq_true, List.any_eq_true, beq_iff_eq] at hown
    obtain ⟨hstack, s, hs, hfamily, haddr⟩ := hown
    refine ⟨hstack, s, hs, fun hapart => hapart v6 (l.routerHost v6).addr ⟨?_, l.covers_routerHost v6⟩⟩
    exact Subnet.covers_iff.mpr ⟨hfamily, by rw [haddr]⟩
  have hmine := any_family l.host_family (fun s => s.v6 == v6 && s.addr == (l.routerHost v6).addr) v6
    fun t ht => beq_iff_eq.mp (Bool.and_eq_true_iff.mp ht).1
  rw [Host.isOwn, any_wired, hothers]
  simp [hostPair, serverPair, Host.builtPair, newSpace, l.host_addrs, hmine, l.host_family]

theorem isOwn_server (hw : h.WellFormed) (hf : FreeNames h n) (v6 : Bool) :
    (wired h n who a true true).isOwn (some n.serverNs) v6 (l.routerServer v6).addr =
      ((l.server v6).addr == (l.routerServer v6).addr) := by
  have hothers := hw.any_vacant hf.server fun e =>
    (e.addrs.filterMap parseSubnet).any fun s => s.v6 == v6 && s.addr == (l.routerServer v6).addr
  have hmine := any_family l.server_family (fun s => s.v6 == v6 && s.addr == (l.routerServer v6).addr) v6
    fun t ht => beq_iff_eq.mp (Bool.and_eq_true_iff.mp ht).1
  have hne : (n.routerNs == n.serverNs) = false := by simpa using hf.spaces_ne
  rw [Host.isOwn, any_wired, hothers]
  simp [hostPair, serverPair, Host.builtPair, newSpace, l.server_addrs, hmine, l.server_family, hne]

/-- An IPv4 gateway, at an interface that has one address of each family. -/
theorem refuses_v4 {s : Bool → Subnet} (hs : ∀ v6, (s v6).v6 = v6) (n : Nat) :
    ([s false, s true].any (·.broadcasts n) && !([s false, s true].any fun t => t.v6 == false && t.addr == n)) =
      refusedBy (s false) n := by
  have hbroadcasts := any_family hs (·.broadcasts n) false fun _ => Subnet.broadcasts_v4
  have hown := any_family hs (fun t => t.v6 == false && t.addr == n) false
    fun t ht => beq_iff_eq.mp (Bool.and_eq_true_iff.mp ht).1
  rw [hbroadcasts, hown, refusedBy, hs false]
  rfl

theorem refusesVia_host (hf : FreeNames h n) (he : Elsewhere h l.nets) (v6 : Bool) :
    (wired h n who a true true).refusesVia none n.vethHost v6 (l.routerHost v6).addr =
      refusedBy (l.host v6) (l.routerHost v6).addr := by
  cases v6 with
  | true =>
    rw [Host.refusesVia, if_pos rfl, isOwn_host he, refusedBy, l.host_family]
    rfl
  | false =>
    have hmine : [a.hostV4, a.hostV6].filterMap parseSubnet = [l.host false, l.host true] := l.host_addrs
    rw [← refuses_v4 l.host_family, Host.refusesVia, Host.isBroadcast, Host.hasAddr, any_at_host hf, any_at_host hf]
    simp only [hostPair, Host.builtPair, hmine, Bool.true_and]
    rfl

theorem refusesVia_server (hw : h.WellFormed) (hf : FreeNames h n) (v6 : Bool) :
    (wired h n who a true true).refusesVia (some n.serverNs) n.vethServer v6 (l.routerServer v6).addr =
      refusedBy (l.server v6) (l.routerServer v6).addr := by
  cases v6 with
  | true =>
    rw [Host.refusesVia, if_pos rfl, isOwn_server hw hf, refusedBy, l.server_family]
    rfl
  | false =>
    have hmine : [a.serverV4, a.serverV6].filterMap parseSubnet = [l.server false, l.server true] := l.server_addrs
    rw [← refuses_v4 l.server_family, Host.refusesVia, Host.isBroadcast, Host.hasAddr,
      any_at_server hw hf, any_at_server hw hf]
    simp only [serverPair, Host.builtPair, hmine, Bool.true_and]
    rfl

/-! ### No route in the way -/

variable (who h n a) in
/-- The links, with these routes. -/
def routed (rs : List Route) : Host ω := { wired h n who a true true with routes := rs }

/-- What makes the topology come out connected. -/
structure Fits (l : Layout a) : Prop where
  transit : ∀ v6, (transit v6).covers v6 (l.server v6).addr = true
  hostLink : ∀ v6, refusedBy (l.host v6) (l.routerHost v6).addr = false
  serverLink : ∀ v6, refusedBy (l.server v6) (l.routerServer v6).addr = false

theorem meets_of_same {s t : Subnet} (hsame : s.same t = true) : ¬s.Apart t :=
  fun hapart => hapart t.v6 t.addr ⟨Subnet.covers_addr hsame, t.covers_self⟩

/-- The host has no other route to a transit network. -/
theorem hasRoute_host (he : Elsewhere h l.nets) (hfits : Fits l) (v6 : Bool) {rs : List Route}
    (hrs : ∀ r ∈ rs, r.dest.same (transit v6) = false) :
    (routed who h n a (rs ++ h.routes)).hasRoute none (transit v6) = false := by
  have hlen : (transit v6).len ≠ 0 := by cases v6 <;> decide
  rw [Host.hasRoute, Bool.or_eq_false_iff]
  constructor
  · rw [List.any_eq_false]
    intro r hr hmatch
    simp only [Bool.and_eq_true, beq_iff_eq] at hmatch
    rcases List.mem_append.mp hr with hnew | hold
    · rw [hrs r hnew] at hmatch
      cases hmatch.2
    · rcases he.routes r hold hmatch.1 with hdefault | hapart
      · exact hlen ((Subnet.same_iff.mp hmatch.2).2.1.symm.trans hdefault)
      · exact meets_of_same hmatch.2 (hapart _ (l.mem_transit v6))
  · have hothers : (h.ends.any fun e => e.stack == none && e.isUp &&
        (e.addrs.filterMap parseSubnet).any fun s => !s.v6 && s.same (transit v6)) = false := by
      apply he.any_root (l.mem_transit v6)
      intro e hmatch
      simp only [Bool.and_eq_true, List.any_eq_true, beq_iff_eq] at hmatch
      obtain ⟨⟨hstack, -⟩, s, hs, -, hsame⟩ := hmatch
      exact ⟨hstack, s, hs, meets_of_same hsame⟩
    have hmine : ([l.host false, l.host true].any fun s => !s.v6 && s.same (transit v6)) = false := by
      have hfirst : (l.host false).same (transit v6) = false := by
        rw [Bool.eq_false_iff]
        intro hsame
        have hfamily := (Subnet.same_iff.mp hsame).1
        rw [l.host_family, transit_family] at hfamily
        subst hfamily
        have hcovers := hfits.transit false
        rw [← Subnet.covers_of_same hsame] at hcovers
        have hself := (l.server false).covers_self
        rw [l.server_family] at hself
        exact l.apart false false _ ⟨hcovers, hself⟩
      simp [hfirst, l.host_family]
    show (wired h n who a true true).ends.any _ = false
    rw [any_wired, hothers]
    simp [hostPair, serverPair, Host.builtPair, newSpace, l.host_addrs, hmine]

/-- The server has no other default route. -/
theorem hasRoute_server (l : Layout a) (hw : h.WellFormed) (hf : FreeNames h n) (v6 : Bool) {rs : List Route}
    (hrs : ∀ r ∈ rs, r.stack = some n.serverNs → r.dest.same (Subnet.all v6) = false) :
    (routed who h n a (rs ++ h.routes)).hasRoute (some n.serverNs) (Subnet.all v6) = false := by
  have hne : (n.routerNs == n.serverNs) = false := by simpa using hf.spaces_ne
  rw [Host.hasRoute, Bool.or_eq_false_iff]
  constructor
  · rw [List.any_eq_false]
    intro r hr hmatch
    simp only [Bool.and_eq_true, beq_iff_eq] at hmatch
    rcases List.mem_append.mp hr with hnew | hold
    · rw [hrs r hnew hmatch.1] at hmatch
      cases hmatch.2
    · have hlive := hw.live r hold
      rw [hmatch.1, hw.vacant hf.server] at hlive
      cases hlive
  · have hothers := hw.any_vacant hf.server fun e =>
      e.isUp && (e.addrs.filterMap parseSubnet).any fun s => !s.v6 && s.same (Subnet.all v6)
    have hmine : ([l.server false, l.server true].any fun s => !s.v6 && s.same (Subnet.all v6)) = false := by
      have hfirst : (l.server false).same (Subnet.all v6) = false := by
        rw [Bool.eq_false_iff]
        intro hsame
        have hfamily : (l.server false).v6 = v6 := (Subnet.same_iff.mp hsame).1
        rw [l.server_family] at hfamily
        subst hfamily
        have hcovers := Subnet.covers_all false (l.host false).addr
        rw [← Subnet.covers_of_same hsame] at hcovers
        have hself := (l.host false).covers_self
        rw [l.host_family] at hself
        exact l.apart false false _ ⟨hself, hcovers⟩
      simp [hfirst, l.server_family]
    have hothers' : (h.ends.any fun e => e.stack == some n.serverNs && e.isUp &&
        (e.addrs.filterMap parseSubnet).any fun s => !s.v6 && s.same (Subnet.all v6)) = false := by
      rw [← hothers]
      simp only [Bool.and_assoc]
    show (wired h n who a true true).ends.any _ = false
    rw [any_wired, hothers']
    simp [hostPair, serverPair, Host.builtPair, newSpace, l.server_addrs, hmine, hne]

/-! ### The routes -/

def hostRoute (n : GatewayNames) (l : Layout a) (v6 : Bool) : Route :=
  { stack := none, dest := transit v6, via := (l.routerHost v6).addr, dev := n.vethHost }

def serverRoute (n : GatewayNames) (l : Layout a) (v6 : Bool) : Route :=
  { stack := some n.serverNs, dest := Subnet.all v6, via := (l.routerServer v6).addr, dev := n.vethServer }

theorem perform_hostRoute (l : Layout a) (hf : FreeNames h n) (he : Elsewhere h l.nets) (v6 : Bool)
    (rs : List Route) {h' : Host ω} :
    (routed who h n a rs).perform who none (.routeAdd v6 (transitText v6) (hostPart (a.routerHost v6)) n.vethHost) =
      some h' ↔
      (refusedBy (l.host v6) (l.routerHost v6).addr = false ∧
        (routed who h n a rs).hasRoute none (transit v6) = false) ∧
        h' = routed who h n a (hostRoute n l v6 :: rs) := by
  have hvia : plainAddress (hostPart (a.routerHost v6)) = some (v6, (l.routerHost v6).addr) := by
    rw [plainAddress_hostPart (l.routerHost_read v6), l.routerHost_family]
  have hon : (routed who h n a rs).onLink none n.vethHost v6 (l.routerHost v6).addr = true := onLink_host hf v6
  have hrefuses : (routed who h n a rs).refusesVia none n.vethHost v6 (l.routerHost v6).addr = _ :=
    refusesVia_host hf he v6
  rw [Host.perform_routeAdd rfl (transit_dest v6) hvia, Host.addRoute_eq_some, hon, hrefuses]
  simp only [transit_family, true_and]
  rfl

theorem perform_serverRoute (l : Layout a) (hw : h.WellFormed) (hf : FreeNames h n) (v6 : Bool)
    (rs : List Route) {h' : Host ω} :
    (routed who h n a rs).perform who (some n.serverNs)
      (.routeAdd v6 "default" (hostPart (a.routerServer v6)) n.vethServer) = some h' ↔
      (refusedBy (l.server v6) (l.routerServer v6).addr = false ∧
        (routed who h n a rs).hasRoute (some n.serverNs) (Subnet.all v6) = false) ∧
          h' = routed who h n a (serverRoute n l v6 :: rs) := by
  have hwired : (wired h n who a true true).hasStack (some n.serverNs) = true := by
    simp [Host.hasStack, wired, spaced, newSpace]
  have hstack : (routed who h n a rs).hasStack (some n.serverNs) = true := hwired
  have hdest : NetHost.parseDest v6 "default" = some (Subnet.all v6) := if_pos rfl
  have hvia : plainAddress (hostPart (a.routerServer v6)) = some (v6, (l.routerServer v6).addr) := by
    rw [plainAddress_hostPart (l.routerServer_read v6), l.routerServer_family]
  have hon : (routed who h n a rs).onLink (some n.serverNs) n.vethServer v6 (l.routerServer v6).addr = true :=
    onLink_server hw hf v6
  have hrefuses : (routed who h n a rs).refusesVia (some n.serverNs) n.vethServer v6 (l.routerServer v6).addr = _ :=
    refusesVia_server hw hf v6
  rw [Host.perform_routeAdd hstack hdest hvia, Host.addRoute_eq_some, hon, hrefuses]
  simp only [Subnet.all, true_and]
  rfl

/-- The routes once all of them have been added, the last one first. -/
def allRoutes (h : Host ω) (n : GatewayNames) (l : Layout a) : List Route :=
  [serverRoute n l true, serverRoute n l false, hostRoute n l true, hostRoute n l false] ++ h.routes

/-- Where the routes were accepted, no gateway was refused. -/
theorem of_performAll_routes (c : NetnsController) (l : Layout a) (hw : h.WellFormed) (hf : FreeNames h n)
    (he : Elsewhere h l.nets)
    {h' : Host ω} (hperform : (wired h n who a true true).performAll who ((c.routeArgvs n a).map commandOf) = some h') :
    h' = routed who h n a (allRoutes h n l) ∧ (∀ v6, refusedBy (l.host v6) (l.routerHost v6).addr = false) ∧
      ∀ v6, refusedBy (l.server v6) (l.routerServer v6).addr = false := by
  rw [commands_routes] at hperform
  obtain ⟨h₁, hfirst, hperform⟩ := Option.bind_eq_some_iff.mp hperform
  obtain ⟨h₂, hsecond, hperform⟩ := Option.bind_eq_some_iff.mp hperform
  obtain ⟨h₃, hthird, hperform⟩ := Option.bind_eq_some_iff.mp hperform
  obtain ⟨h₄, hfourth, hperform⟩ := Option.bind_eq_some_iff.mp hperform
  obtain ⟨⟨hhost4, -⟩, rfl⟩ := (perform_hostRoute l hf he false h.routes).mp hfirst
  obtain ⟨⟨hhost6, -⟩, rfl⟩ := (perform_hostRoute l hf he true _).mp hsecond
  obtain ⟨⟨hserver4, -⟩, rfl⟩ := (perform_serverRoute l hw hf false _).mp hthird
  obtain ⟨⟨hserver6, -⟩, rfl⟩ := (perform_serverRoute l hw hf true _).mp hfourth
  cases hperform
  refine ⟨rfl, ?_, ?_⟩
  · intro v6
    cases v6
    · exact hhost4
    · exact hhost6
  · intro v6
    cases v6
    · exact hserver4
    · exact hserver6

theorem performAll_routes (c : NetnsController) (hw : h.WellFormed) (hf : FreeNames h n)
    (he : Elsewhere h l.nets) (hfits : Fits l) :
    (wired h n who a true true).performAll who ((c.routeArgvs n a).map commandOf) =
      some (routed who h n a (allRoutes h n l)) := by
  have hhost : ∀ v6 rs, (∀ r ∈ rs, r.dest.same (transit v6) = false) →
      (routed who h n a (rs ++ h.routes)).perform who none
      (.routeAdd v6 (transitText v6) (hostPart (a.routerHost v6)) n.vethHost) =
        some (routed who h n a (hostRoute n l v6 :: (rs ++ h.routes))) := by
    intro v6 rs hrs
    exact (perform_hostRoute l hf he v6 _).mpr ⟨⟨hfits.hostLink v6, hasRoute_host he hfits v6 hrs⟩, rfl⟩
  have hserver : ∀ v6 rs, (∀ r ∈ rs, r.stack = some n.serverNs → r.dest.same (Subnet.all v6) = false) →
      (routed who h n a (rs ++ h.routes)).perform who (some n.serverNs)
        (.routeAdd v6 "default" (hostPart (a.routerServer v6)) n.vethServer) =
          some (routed who h n a (serverRoute n l v6 :: (rs ++ h.routes))) := by
    intro v6 rs hrs
    exact (perform_serverRoute l hw hf v6 _).mpr ⟨⟨hfits.serverLink v6, hasRoute_server l hw hf v6 hrs⟩, rfl⟩
  rw [commands_routes]
  apply Option.bind_eq_some_iff.mpr
  refine ⟨_, hhost false [] (by simp), ?_⟩
  apply Option.bind_eq_some_iff.mpr
  refine ⟨_, hhost true [hostRoute n l false] ?_, ?_⟩
  · intro r hr
    rw [List.mem_singleton.mp hr]
    rfl
  apply Option.bind_eq_some_iff.mpr
  refine ⟨_, hserver false [hostRoute n l true, hostRoute n l false] ?_, ?_⟩
  · intro r hr hstack
    simp only [List.mem_cons, List.not_mem_nil, or_false] at hr
    rcases hr with rfl | rfl <;> cases hstack
  apply Option.bind_eq_some_iff.mpr
  refine ⟨_, hserver true [serverRoute n l false, hostRoute n l true, hostRoute n l false] ?_, rfl⟩
  intro r hr hstack
  rcases List.mem_cons.mp hr with rfl | hr
  · rfl
  · simp only [List.mem_cons, List.not_mem_nil, or_false] at hr
    rcases hr with rfl | rfl <;> cases hstack

/-! ### Both ways -/

theorem mem_wired {e : End} : e ∈ (wired h n who a true true).ends ↔
    (e = (serverPair n who a).near ∨ e = (serverPair n who a).far) ∨
      (e = (hostPair n who a).near ∨ e = (hostPair n who a).far) ∨
      e = (newSpace who n.serverNs true).lo ∨ e = (newSpace who n.routerNs true).lo ∨ e ∈ h.ends := by
  rw [wired, Host.mem_withPair, Host.mem_withPair, spaced, Host.mem_withSpace, Host.mem_withSpace]

theorem routesVia_server (he : Elsewhere h l.nets) (hfits : Fits l) (v6 : Bool) :
    (routed who h n a (allRoutes h n l)).RoutesVia none v6 (l.server v6).addr (l.routerHost v6).addr n.vethHost := by
  have hself : (l.server v6).covers v6 (l.server v6).addr = true := by
    have hcovers := (l.server v6).covers_self
    rw [l.server_family] at hcovers
    exact hcovers
  refine ⟨hostRoute n l v6, ?_, rfl, hfits.transit v6, rfl, rfl, ?_, ?_⟩
  · cases v6 <;> simp [routed, allRoutes]
  · intro r hr hstack hcovers
    have hown : ∀ w, r = hostRoute n l w → r.dest.len ≤ (hostRoute n l v6).dest.len := by
      rintro w rfl
      have hfamily : (transit w).v6 = v6 := (Subnet.covers_iff.mp hcovers).1
      rw [transit_family] at hfamily
      subst hfamily
      exact Nat.le_refl _
    simp only [routed, allRoutes, List.cons_append, List.nil_append, List.mem_cons] at hr
    rcases hr with rfl | rfl | rfl | rfl | hold
    · cases hstack
    · cases hstack
    · exact hown true rfl
    · exact hown false rfl
    · rcases he.routes r hold hstack with hdefault | hapart
      · rw [hdefault]
        exact Nat.zero_le _
      · exact absurd ⟨hcovers, hself⟩ (hapart _ (l.mem_server v6) v6 _)
  · intro e hmem hstack _ s hs hcovers
    rcases mem_wired.mp hmem with (rfl | rfl) | (rfl | rfl) | rfl | rfl | hold
    · cases hstack
    · cases hstack
    · have hs' : s = l.host false ∨ s = l.host true := by
        have hmine : s ∈ [a.hostV4, a.hostV6].filterMap parseSubnet := hs
        rw [l.host_addrs] at hmine
        simpa using hmine
      have hfamily := (Subnet.covers_iff.mp hcovers).1
      have heq : s = l.host v6 := by
        rcases hs' with rfl | rfl <;> rw [l.host_family] at hfamily <;> rw [hfamily]
      rw [heq] at hcovers
      exact absurd ⟨hcovers, hself⟩ (l.apart v6 v6 _)
    · cases hstack
    · cases hstack
    · cases hstack
    · exact absurd ⟨hcovers, hself⟩ (he.addrs e hold hstack s hs _ (l.mem_server v6) v6 _)

theorem routesVia_host (hw : h.WellFormed) (hf : FreeNames h n) (v6 : Bool) :
    (routed who h n a (allRoutes h n l)).RoutesVia (some n.serverNs) v6 (l.host v6).addr
      (l.routerServer v6).addr n.vethServer := by
  have hself : (l.host v6).covers v6 (l.host v6).addr = true := by
    have hcovers := (l.host v6).covers_self
    rw [l.host_family] at hcovers
    exact hcovers
  refine ⟨serverRoute n l v6, ?_, rfl, Subnet.covers_all v6 _, rfl, rfl, ?_, ?_⟩
  · cases v6 <;> simp [routed, allRoutes]
  · intro r hr hstack hcovers
    simp only [routed, allRoutes, List.cons_append, List.nil_append, List.mem_cons] at hr
    rcases hr with rfl | rfl | rfl | rfl | hold
    · exact Nat.le_refl _
    · exact Nat.le_refl _
    · cases hstack
    · cases hstack
    · have hlive := hw.live r hold
      rw [hstack, hw.vacant hf.server] at hlive
      cases hlive
  · intro e hmem hstack _ s hs hcovers
    have hrouter : some n.routerNs ≠ some n.serverNs := fun heq => hf.spaces_ne (Option.some.inj heq)
    rcases mem_wired.mp hmem with (rfl | rfl) | (rfl | rfl) | rfl | rfl | hold
    · exact absurd hstack hrouter
    · have hs' : s = l.server false ∨ s = l.server true := by
        have hmine : s ∈ [a.serverV4, a.serverV6].filterMap parseSubnet := hs
        rw [l.server_addrs] at hmine
        simpa using hmine
      have hfamily := (Subnet.covers_iff.mp hcovers).1
      have heq : s = l.server v6 := by
        rcases hs' with rfl | rfl <;> rw [l.server_family] at hfamily <;> rw [hfamily]
      rw [heq] at hcovers
      exact absurd ⟨hself, hcovers⟩ (l.apart v6 v6 _)
    · cases hstack
    · exact absurd hstack hrouter
    · cases hs
    · exact absurd hstack hrouter
    · have hthere := hw.ends e hold
      rw [hstack] at hthere
      exact absurd (hf.server.symm.trans hthere) (by decide)

end Routing

/-! ## The whole of it -/

section Whole

variable {ω : Type} {who : ω} {out : Outside} {c : NetnsController} {s : Site ω}
    {n : GatewayNames} {a : GatewayAddresses}

/-- The outside lets every command through. -/
def LetsThrough (s : Site ω) : Prop := ∀ argv k, s.outcomes argv k = .done

theorem letsThrough_exec (hs : LetsThrough s) (argv : List Arg) : LetsThrough (s.exec who argv).2 := by
  intro other k
  by_cases hother : other = argv
  · have hspend : (s.spend argv).outcomes other k = .done := by
      rw [hother]
      exact (congrFun (spent_self argv s.outcomes) k).trans (hs argv (k + 1))
    rcases Site.exec_cases who s argv with
      ⟨host, -, -, h⟩ | ⟨stderr, -, h⟩ | ⟨host, -, -, h⟩ | ⟨performed, -, -, h⟩ <;> rw [h] <;> exact hspend
  · rw [Site.exec_outcomes hother]
    exact hs other k

theorem letsThrough_runs {α : Type} (who : ω) (out : Outside) (hs : LetsThrough s) (x : Prog α) :
    LetsThrough (s.runs who out x).2 := by
  have hkeeps : ∀ (t : Site ω) (q : Req), True → LetsThrough t → LetsThrough (t.answer who out q).2 := by
    intro t q _ ht
    cases q with
    | run cmd => exact letsThrough_exec ht cmd.argv
    | _ => exact ht
  exact Site.runs_keeps hkeeps (only_anything x) hs

theorem passes_done {o : List Arg → Nat → Outcome} (ho : ∀ argv k, o argv k = .done) : ∀ argvs, Passes o argvs
  | [] => trivial
  | argv :: argvs => by
    rw [Passes, ho argv 0]
    exact passes_done ho argvs

theorem runs_createNetns_through (who : ω) (out : Outside) (c : NetnsController) {name : String} (hs : LetsThrough s)
    (hspace : s.host.hasSpace name = false) : ∃ t, s.runs who out (c.createNetns name) = (.ok (), t) ∧
      t.host = s.host.withSpace (newSpace who name false) ∧ LetsThrough t := by
  have heffect : takesEffect (s.outcomes (addArgv name) 0) = true := by rw [hs]; rfl
  obtain ⟨r, t, hruns, hhost, -, hr⟩ := runs_createNetns who out c hspace heffect
  have hthrough := letsThrough_runs who out hs (c.createNetns name)
  rw [hruns] at hthrough
  rw [hr.mpr ⟨hs _ 0, passes_done hs _⟩] at hruns
  exact ⟨t, hruns, hhost, hthrough⟩

theorem runs_runAll_through (who : ω) (out : Outside) {argvs : List (List Arg)} {h' : Host ω} (hs : LetsThrough s)
    (hperform : s.host.performAll who (argvs.map commandOf) = some h') :
    ∃ t, s.runs who out (runAll argvs) = (.ok (), t) ∧ t.host = h' ∧ LetsThrough t := by
  have hruns : s.runs who out (runAll argvs) = (.ok (), { host := h', active := s.active, outcomes := _ }) :=
    Site.runs_runAll.mpr ⟨granted_done hs, hperform, rfl⟩
  have hthrough := letsThrough_runs who out hs (runAll argvs)
  rw [hruns] at hthrough
  exact ⟨_, hruns, rfl, hthrough⟩

/-- Before the routes nothing is refused. -/
theorem runs_wired (who : ω) (out : Outside) (c : NetnsController) (a : GatewayAddresses) (hs : LetsThrough s)
    (hw : s.host.WellFormed) (hf : FreeNames s.host n) : ∃ t, LetsThrough t ∧ t.host = wired s.host n who a true true ∧
      s.runs who out (c.createGateway n a) = t.runs who out (runAll (c.routeArgvs n a)) := by
  obtain ⟨t₁, hrouter, hhost₁, hs₁⟩ := runs_createNetns_through who out c hs hf.router
  have hspace : t₁.host.hasSpace n.serverNs = false := by
    rw [hhost₁, Host.hasSpace_withSpace, hf.server]
    simp [newSpace, hf.spaces_ne]
  obtain ⟨t₂, hserver, hhost₂, hs₂⟩ := runs_createNetns_through who out c hs₁ hspace
  have hspaced : t₂.host = spaced s.host n who false false := by rw [hhost₂, hhost₁]; rfl
  have hforward : t₂.host.performAll who ((c.forwardArgvs n).map commandOf) = some t₂.host := by
    have hother : t₂.host.perform who (some n.routerNs) .other = some t₂.host := by
      apply if_pos
      rw [hspaced]
      simp [Host.hasStack, spaced, newSpace]
    rw [commands_forward, Host.performAll, hother, Option.bind_some, Host.performAll, hother,
      Option.bind_some, Host.performAll]
  obtain ⟨t₃, hthird, hhost₃, hs₃⟩ := runs_runAll_through who out hs₂ hforward
  have hnear : t₃.host.performAll who ((c.hostLinkArgvs n a).map commandOf) =
      some ((spaced s.host n who false false).withPair (hostPair n who a)) := by
    rw [commands_hostLink, hhost₃, hspaced]
    exact performAll_hostLink who a hw hf false false
  obtain ⟨t₄, hfourth, hhost₄, hs₄⟩ := runs_runAll_through who out hs₃ hnear
  have hfar : t₄.host.performAll who ((c.serverLinkArgvs n a).map commandOf) =
      some (wired s.host n who a true true) := by
    rw [commands_serverLink, hhost₄, Host.performAll_append, performAll_serverLink who a hw hf, Option.bind_some]
    exact performAll_loopbacks who a hw hf
  obtain ⟨t₅, hfifth, hhost₅, hs₅⟩ := runs_runAll_through who out hs₄ hfar
  refine ⟨t₅, hs₅, hhost₅, ?_⟩
  rw [createGateway_eq, Site.runs_bind, hrouter, onValue_ok, Site.runs_bind, hserver,
    onValue_ok, Site.runs_bind, hthird,
    onValue_ok, Site.runs_bind, hfourth, onValue_ok, Site.runs_bind, hfifth, onValue_ok]

theorem connected_routed {h : Host ω} {l : Layout a} (hw : h.WellFormed) (hf : FreeNames h n) (he : Elsewhere h l.nets)
    (hfits : Fits l) : Connected (routed who h n a (allRoutes h n l)) n a l who where
  hostLink := by simp [routed, wired, Host.withPair, hostPair]
  serverLink := by simp [routed, wired, Host.withPair, serverPair]
  routerLo := by simp [routed, wired, spaced, Host.withPair, Host.withSpace]
  serverLo := by simp [routed, wired, spaced, Host.withPair, Host.withSpace]
  toServer := routesVia_server he hfits
  toHost := routesVia_host hw hf

/-- The host's route to the server is one of its own two. -/
theorem transit_of_connected {h : Host ω} {l : Layout a} (hw : h.WellFormed) (hf : FreeNames h n)
    (hconnected : Connected (routed who h n a (allRoutes h n l)) n a l who) (v6 : Bool) :
    (transit v6).covers v6 (l.server v6).addr = true := by
  obtain ⟨r, hr, hstack, hcovers, -, hdev, -, -⟩ := (hconnected.toServer v6).best
  have hown : ∀ w, r = hostRoute n l w → (transit v6).covers v6 (l.server v6).addr = true := by
    rintro w rfl
    have hfamily : (transit w).v6 = v6 := (Subnet.covers_iff.mp hcovers).1
    rw [transit_family] at hfamily
    rw [← hfamily] at hcovers ⊢
    exact hcovers
  simp only [routed, allRoutes, List.cons_append, List.nil_append, List.mem_cons] at hr
  rcases hr with rfl | rfl | heq | heq | hold
  · cases hstack
  · cases hstack
  · exact hown true heq
  · exact hown false heq
  · have hlive := hw.live r hold
    rw [hstack, hdev, hf.vethHost] at hlive
    cases hlive

/-- Where the topology comes out connected, the addresses fit. -/
theorem fits_of_connected (l : Layout a) (hs : LetsThrough s) (hw : s.host.WellFormed) (hf : FreeNames s.host n)
    (he : Elsewhere s.host l.nets) {t : Site ω} (hok : s.runs who out (c.createGateway n a) = (.ok (), t))
    (hconnected : Connected t.host n a l who) : Fits l := by
  obtain ⟨t₀, -, hhost₀, hruns⟩ := runs_wired who out c a hs hw hf
  rw [hruns] at hok
  obtain ⟨-, hperform, -⟩ := Site.runs_runAll.mp hok
  rw [hhost₀] at hperform
  obtain ⟨hhost, hnear, hfar⟩ := of_performAll_routes c l hw hf he hperform
  rw [hhost] at hconnected
  exact ⟨transit_of_connected hw hf hconnected, hnear, hfar⟩

/-- With every command let through, the topology comes out connected exactly when the
    addresses fit. -/
theorem connected_iff (l : Layout a) (hs : LetsThrough s) (hw : s.host.WellFormed) (hf : FreeNames s.host n)
    (he : Elsewhere s.host l.nets) :
    (∃ t, s.runs who out (c.createGateway n a) = (.ok (), t) ∧ Connected t.host n a l who) ↔ Fits l := by
  constructor
  · intro ⟨t, hok, hconnected⟩
    exact fits_of_connected l hs hw hf he hok hconnected
  · intro hfits
    obtain ⟨t₀, hs₀, hhost₀, hruns⟩ := runs_wired who out c a hs hw hf
    have hperform : (wired s.host n who a true true).performAll who _ = _ := performAll_routes c hw hf he hfits
    rw [← hhost₀] at hperform
    obtain ⟨t, hall, hhost, -⟩ := runs_runAll_through who out hs₀ hperform
    refine ⟨t, hruns.trans hall, ?_⟩
    rw [hhost]
    exact connected_routed hw hf he hfits

end Whole

end Nse.NetnsController

namespace Nse

open IpAddress (Subnet)
open NetnsController

/-- A /24 and a /64. -/
def subnets (v4 v6 : Nat) : Bool → Subnet
  | false => { v6 := false, addr := v4, len := 24 }
  | true => { v6 := true, addr := v6, len := 64 }

/-- `10.0.1.k/24` and `fd00:1::k/64`. -/
def nearSubnets (k : Nat) : Bool → Subnet := subnets (10 * 2 ^ 24 + 2 ^ 8 + k) (0xfd000001 * 2 ^ 96 + k)

/-- `10.0.2.k/24` and `fd00:2::k/64`. -/
def farSubnets (k : Nat) : Bool → Subnet := subnets (10 * 2 ^ 24 + 2 * 2 ^ 8 + k) (0xfd000002 * 2 ^ 96 + k)

/-- `10.9.0.k/24` and `fd00:2::k/64`. -/
def movedSubnets (k : Nat) : Bool → Subnet := subnets (10 * 2 ^ 24 + 9 * 2 ^ 16 + k) (0xfd000002 * 2 ^ 96 + k)

theorem defaults_ordinary : ∀ v6, ∀ t ∈ specialRanges, (nearSubnets 1 v6).Apart t ∧ (farSubnets 2 v6).Apart t := by
  have hall : ∀ v6, ∀ t ∈ specialRanges, (nearSubnets 1 v6).overlaps t = false ∧
      (farSubnets 2 v6).overlaps t = false := by
    decide +kernel
  exact fun v6 t ht => ⟨Subnet.apart_of_overlaps (hall v6 t ht).1, Subnet.apart_of_overlaps (hall v6 t ht).2⟩

theorem moved_ordinary : ∀ v6, ∀ t ∈ specialRanges, (nearSubnets 1 v6).Apart t ∧ (movedSubnets 2 v6).Apart t := by
  have hall : ∀ v6, ∀ t ∈ specialRanges, (nearSubnets 1 v6).overlaps t = false ∧
      (movedSubnets 2 v6).overlaps t = false := by
    decide +kernel
  exact fun v6 t ht => ⟨Subnet.apart_of_overlaps (hall v6 t ht).1, Subnet.apart_of_overlaps (hall v6 t ht).2⟩

def defaultLayout : Layout {} where
  host := nearSubnets 1
  routerHost := nearSubnets 2
  routerServer := farSubnets 1
  server := farSubnets 2
  host_read v6 := by cases v6 <;> decide +kernel
  routerHost_read v6 := by cases v6 <;> decide +kernel
  routerServer_read v6 := by cases v6 <;> decide +kernel
  server_read v6 := by cases v6 <;> decide +kernel
  host_family v6 := by cases v6 <;> rfl
  server_family v6 := by cases v6 <;> rfl
  near v6 := by cases v6 <;> decide +kernel
  far v6 := by cases v6 <;> decide +kernel
  apart v6 := Subnet.apart_of_covers (by cases v6 <;> exact Nat.le_refl _) (by cases v6 <;> decide +kernel)
  ordinary := defaults_ordinary

def movedAddresses : GatewayAddresses := { routerServerV4 := "10.9.0.1/24", serverV4 := "10.9.0.2/24" }

def movedLayout : Layout movedAddresses where
  host := nearSubnets 1
  routerHost := nearSubnets 2
  routerServer := movedSubnets 1
  server := movedSubnets 2
  host_read v6 := by cases v6 <;> decide +kernel
  routerHost_read v6 := by cases v6 <;> decide +kernel
  routerServer_read v6 := by cases v6 <;> decide +kernel
  server_read v6 := by cases v6 <;> decide +kernel
  host_family v6 := by cases v6 <;> rfl
  server_family v6 := by cases v6 <;> rfl
  near v6 := by cases v6 <;> decide +kernel
  far v6 := by cases v6 <;> decide +kernel
  apart v6 := Subnet.apart_of_covers (by cases v6 <;> exact Nat.le_refl _) (by cases v6 <;> decide +kernel)
  ordinary := moved_ordinary

def gatewayNames : GatewayNames where
  routerNs := "nse_r"
  serverNs := "nse_s"
  vethHost := "veth-h"
  vethRouterHost := "veth-rh"
  vethRouterServer := "veth-rs"
  vethServer := "veth-s"

theorem emptySite_free : FreeNames emptySite.host gatewayNames where
  distinct := by decide +kernel
  router := rfl
  server := rfl
  vethHost := by decide +kernel
  vethRouterHost := by decide +kernel
  noLoopback := by decide +kernel

theorem emptySite_elsewhere (nets : List Subnet) : Elsewhere emptySite.host nets where
  addrs e he := by
    have heq : e = { name := "lo", stack := none, isUp := true } := by
      simpa [emptySite, NetHost.Host.ends] using he
    rw [heq]
    simp
  routes r hr := absurd hr (by simp [emptySite])

/-- The two ends of each link differ, the server is in `10.9.0.0/24`. -/
theorem a_server_elsewhere :
    ¬ ∀ (c : NetnsController) (out : Outside) (s : Site Owner) (n : GatewayNames) (a : GatewayAddresses)
    (l : Layout a), LetsThrough s → s.host.WellFormed → FreeNames s.host n → Elsewhere s.host l.nets →
      (∀ v6, (l.host v6).addr ≠ (l.routerHost v6).addr) → (∀ v6, (l.server v6).addr ≠ (l.routerServer v6).addr) →
        ∃ t, s.runs .controller out (c.createGateway n a) = (.ok (), t) ∧ Connected t.host n a l .controller := by
  intro h
  obtain ⟨t, hok, hconnected⟩ :=
    h { useNsenter := false } listedOutside emptySite gatewayNames movedAddresses movedLayout
    (fun _ _ => rfl) emptySite_wellFormed emptySite_free (emptySite_elsewhere _)
    (fun v6 => by cases v6 <;> decide +kernel) (fun v6 => by cases v6 <;> decide +kernel)
  have hfits := fits_of_connected movedLayout (fun _ _ => rfl) emptySite_wellFormed emptySite_free
      (emptySite_elsewhere _) hok
    hconnected
  have htransit := hfits.transit false
  revert htransit
  decide +kernel

theorem connected_iff_sample : ∃ t, emptySite.runs .controller listedOutside
    (NetnsController.createGateway { useNsenter := true } gatewayNames {}) = (.ok (), t) ∧
      Connected t.host gatewayNames {} defaultLayout .controller := by
  apply (NetnsController.connected_iff defaultLayout (fun _ _ => rfl) emptySite_wellFormed emptySite_free
    (emptySite_elsewhere _)).mpr
  constructor
  · intro v6
    cases v6 <;> decide +kernel
  · intro v6
    cases v6 <;> decide +kernel
  · intro v6
    cases v6 <;> decide +kernel

end Nse
