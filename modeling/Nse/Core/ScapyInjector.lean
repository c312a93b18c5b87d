/-
  Nse.Core.ScapyInjector — forging a packet and sending it into or out of a namespace
  (`nse/core/scapy_injector.py`).
-/

import Nse.Core.Effects

namespace Nse.ScapyInjector

open Backtrack (Re)

variable [U : PyStr.Unicode]

/-- The pattern of `_get_mac_address`. -/
def macRe : Re :=
  Re.seqs [.lit "link/ether", .one U.isSpace, .many U.isSpace,
    .group "1" (Re.times (fun c => TraceParser.hexChar c || c == ':') 17)]

def runtimeError (text : String) : PyExc := { cls := .runtimeError, text }

/-- `_get_mac_address`. -/
def getMacAddress (interface : String) (netns : Option String) (useNsenter : Bool) : Prog String := do
  let entry := match netns with
    | some name => if name = "" then [] else execPrefix useNsenter name
    | none => []
  let result ← perform (.run
    { argv := entry ++ [.bin "ip", .str "-o", .str "link", .str "show", .str "dev", .str interface]
      check := true, timeout := some 10000 })
  match (macRe.search result.stdout).bind (·.get "1") with
  | some mac => pure mac
  | none =>
    raise (runtimeError ("Could not parse MAC address for interface " ++ interface ++ " from: " ++ result.stdout))

/-- The addresses a packet leaves the namespace from. -/
def sandboxAddresses : List String := ["10.0.0.2", "fd00::2", "10.0.2.2", "fd00:2::2"]

def isIncoming (spec : PacketSpec) : Bool := !sandboxAddresses.contains spec.srcIp

def isIpv6 (address : String) : Bool := PyStr.contains ':' address

/-- The frame the in-process branch sends. -/
def frame (spec : PacketSpec) (srcMac dstMac : String) : Frame :=
  let srcPort := spec.srcPort.getD 12345
  let dstPort := spec.dstPort.getD 80
  { etherSrc := srcMac
    etherDst := dstMac
    ipv6 := isIpv6 spec.srcIp
    src := spec.srcIp
    dst := spec.dstIp
    l4 := match spec.protocol with
      | .tcp => .tcp srcPort dstPort (PyStr.join "" spec.tcpFlags)
      | .udp => .udp srcPort dstPort
      | .icmp => if isIpv6 spec.srcIp then .icmpv6EchoRequest else .icmp }

/-- `_build_scapy_script`. -/
def buildScapyScript (spec : PacketSpec) (interface srcMac dstMac : String) : String :=
  let srcIp := if spec.srcIp = "" then "10.0.0.1" else spec.srcIp
  let dstIp := if spec.dstIp = "" then "10.0.0.2" else spec.dstIp
  let ports := "sport=" ++ toString (spec.srcPort.getD 12345) ++ ", dport=" ++ toString (spec.dstPort.getD 80)
  let l4 := match spec.protocol with
    | .tcp => "TCP(" ++ ports ++ ", flags=" ++ U.repr (PyStr.join "" spec.tcpFlags) ++ ")"
    | .udp => "UDP(" ++ ports ++ ")"
    | .icmp => if isIpv6 srcIp then "ICMPv6EchoRequest()" else "ICMP()"
  let l3 := if isIpv6 srcIp then "IPv6" else "IP"
  "\nfrom scapy.all import Ether, IP, IPv6, TCP, UDP, ICMP, ICMPv6EchoRequest, sendp, conf\nconf.verb = 0\n" ++
  "pkt = Ether(src=" ++ U.repr srcMac ++ ", dst=" ++ U.repr dstMac ++ ") / " ++ l3 ++ "(src=" ++ U.repr srcIp ++
  ", dst=" ++ U.repr dstIp ++ ") / " ++ l4 ++ "\nsendp(pkt, iface=" ++ U.repr interface ++
  ")\nprint(\"Packet sent:\", pkt.summary())\n"

/-- `except Exception as exc: raise RuntimeError(…) from exc`. -/
def orRuntimeError {α : Type} (message : String) (x : Prog α) : Prog α :=
  x.tryCatch fun e => if e.isException then raise (runtimeError (message ++ e.text)) else raise e

/-- `ScapyInjector.inject`. -/
def inject (useNsenter : Bool) (spec : PacketSpec) (netns vethHost vethPeer : String) (hostNetns : Option String) :
    Prog Unit := do
  let (hostMac, peerMac) ← orRuntimeError "Failed to retrieve MAC addresses: " do
    let hostMac ← getMacAddress vethHost hostNetns useNsenter
    let peerMac ← getMacAddress vethPeer (some netns) useNsenter
    pure (hostMac, peerMac)
  if isIncoming spec then
    orRuntimeError "Packet injection failed: " (perform (.sendp (frame spec hostMac peerMac) vethHost))
  else
    let script := buildScapyScript spec vethPeer peerMac hostMac
    let result ← perform (.run
      { argv := execPrefix useNsenter netns ++ [.python, .str "-c", .str script]
        check := false
        timeout := some 10000 })
    if result.returncode ≠ 0 then
      raise (runtimeError ("Packet injection failed: " ++ PyStr.strip result.stderr))
    else pure ()

end Nse.ScapyInjector
