/-
  Nse.Models.TestRequest — the packets of a test and the request that holds them
  (`nse/models/test_request.py`). What the field validators check is carried by the
  values, so an unchecked packet or an empty request cannot be built.
-/

import Nse.Lib.IpAddress

namespace Nse

inductive TopologyType where
  | simple
  | gateway
  deriving DecidableEq, Repr

inductive Protocol where
  | tcp
  | udp
  | icmp
  deriving DecidableEq, Repr

def Protocol.name : Protocol → String
  | .tcp => "tcp"
  | .udp => "udp"
  | .icmp => "icmp"

def validFlags : List String := ["F", "S", "R", "P", "A", "U", "E", "C"]

/-- `PacketSpec.validate_ip`. -/
def validateIp (v : String) : Bool := (IpAddress.ipAddress v).isSome

/-- `ge=1, le=65535`. -/
def validPort (p : Int) : Bool := 1 ≤ p && p ≤ 65535

structure PacketSpec where
  protocol : Protocol
  srcIp : String
  dstIp : String
  srcPort : Option Int := none
  dstPort : Option Int := none
  tcpFlags : List String := []
  srcIp_valid : validateIp srcIp = true
  dstIp_valid : validateIp dstIp = true
  srcPort_valid : srcPort.all validPort = true := by decide
  dstPort_valid : dstPort.all validPort = true := by decide
  flags_valid : tcpFlags.all validFlags.contains = true := by decide
  deriving DecidableEq

theorem noPort_valid : (none : Option Int).all validPort = true := rfl

theorem noFlags_valid : ([] : List String).all validFlags.contains = true := rfl

structure TestRequest where
  rules : String
  packets : List PacketSpec
  topology : TopologyType
  rules_ne : rules ≠ ""
  packets_ne : packets ≠ []
  deriving DecidableEq

/-- `req.packets[0]`. -/
def TestRequest.firstPacket (r : TestRequest) : PacketSpec := r.packets.head r.packets_ne

end Nse
