/-
  Nse.Core.NamespaceSandbox — a namespace handed to a caller, with the commands it can run
  there (`NamespaceSandbox` and `create_namespace`, `nse/core/netns_controller.py`).
-/

import Nse.Core.NetnsController
import Nse.Core.ScapyInjector

namespace Nse

structure NamespaceSandbox where
  controller : NetnsController
  name : String

namespace NamespaceSandbox

variable (s : NamespaceSandbox)

/-- The two interfaces, from the name of the namespace. -/
def extIfaceOf (name : String) : String := "vhr-" ++ PyStr.take 8 name
def peerIfaceOf (name : String) : String := "vrh-" ++ PyStr.take 8 name

def extIface : String := extIfaceOf s.name
def peerIface : String := peerIfaceOf s.name

variable [U : PyStr.Unicode]

/-- `exec`. The child is awaited to its end. -/
def exec (command : String) : Prog Completed := do
  let result ← perform (.run
    { argv := s.controller.execPrefix s.name ++ (PyStr.split command).map .str, check := false, timeout := none })
  if result.returncode ≠ 0 then raise { cls := .calledProcessError, text := "", stderr := result.stderr }
    else pure result

/-- The values of the `Literal` type of `protocol`. -/
def protocolOf : String → Option Protocol
  | "tcp" => some .tcp
  | "udp" => some .udp
  | "icmp" => some .icmp
  | _ => none

/-- `src_ip or (…)`. -/
def sourceOr (dstIp : String) (srcIp : Option String) : String :=
  match srcIp.filter (· ≠ "") with
  | some ip => ip
  | none => if PyStr.contains '.' dstIp then "10.0.1.1" else "fd00:1::1"

/-- `PacketSpec(…)`; `none` where a field is rejected. -/
def packet (protocol : String) (dstPort : Int) (dstIp : String) (srcIp : Option String) : Option PacketSpec :=
  match protocolOf protocol with
  | some protocol =>
    if h : validateIp (sourceOr dstIp srcIp) = true ∧ validateIp dstIp = true ∧ validPort dstPort = true then
      some
        { protocol, srcIp := sourceOr dstIp srcIp, dstIp, dstPort := some dstPort
          srcIp_valid := h.1, dstIp_valid := h.2.1, dstPort_valid := by simpa using h.2.2
          srcPort_valid := noPort_valid, flags_valid := noFlags_valid }
    else none
  | none => none

/-- `inject_packet`. The injector is built with its default mode. -/
def injectPacket (protocol : String) (dstPort : Int) (dstIp : String) (srcIp : Option String) : Prog Unit :=
  match packet protocol dstPort dstIp srcIp with
  | some spec => ScapyInjector.inject false spec s.name s.extIface s.peerIface none
  | none => raise { cls := .valueError, text := "validation error for PacketSpec" }

end NamespaceSandbox

/-- `async with controller.create_namespace(name, host_ip, peer_ip) as sandbox: body`. The source
    takes one address or a list. -/
def NetnsController.createNamespace {α : Type} (c : NetnsController) (name : String) (hostIps peerIps : List String)
    (body : NamespaceSandbox → Prog α) : Prog α := do
  let sandbox : NamespaceSandbox := { controller := c, name }
  c.createNetns name
  run (c.inNetns name (ip ["link", "set", "lo", "up"]))
  c.createVethPair name sandbox.extIface sandbox.peerIface hostIps peerIps
  (body sandbox).tryFinally do
    suppress (fun e => e.cls == .calledProcessError || e.isOSError) (run (ip ["link", "del", sandbox.extIface]))
    destroyNetns name

end Nse
