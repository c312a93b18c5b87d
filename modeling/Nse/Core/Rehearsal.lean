/-
  Nse.Core.Rehearsal — schedules of the world, to be played.

  `obliging` answers every request with success and lets the monitor write one line for
  each packet once it is injected; a schedule that goes wrong somewhere changes one of its
  parts.
-/

import Nse.Core.World

namespace Nse

open Coroutine

/-! ## A request -/

theorem first_address_valid : validateIp "10.0.0.1" = true := by decide +kernel

theorem second_address_valid : validateIp "10.0.0.2" = true := by decide +kernel

theorem port80_valid : (some 80 : Option Int).all validPort = true := by decide

def samplePacket : PacketSpec where
  protocol := .tcp
  srcIp := "10.0.0.1"
  dstIp := "10.0.0.2"
  dstPort := some 80
  srcIp_valid := first_address_valid
  dstIp_valid := second_address_valid
  srcPort_valid := noPort_valid
  dstPort_valid := port80_valid
  flags_valid := noFlags_valid

def sampleRequest : TestRequest where
  rules := "table ip filter"
  packets := [samplePacket]
  topology := .simple
  rules_ne := by decide
  packets_ne := by decide

/-! ## Schedules -/

variable [U : PyStr.Unicode]

/-- Success, with what the state says where it says something. -/
def obligingReply (s : St) : (a : Req) → Except PyExc (Reply a)
  | .run _ => .ok { returncode := 0, stdout := "link/ether 02:00:00:00:00:01", stderr := "" }
  | .popen _ => .ok s.spawned
  | .tempFile _ => .ok "/tmp/rules"
  | .inContainer => .ok false
  | .activeNs => .ok s.active
  | .waitReady _ => .ok true
  | .waitForEvent _ => .ok s.h.eventSignal
  | .seenTraceIds => .ok s.h.seenTraceIds
  | .taskPending => .ok (decide (s.loop ≠ .idle ∧ s.loop ≠ .done))
  | .harvestState => .ok s.h.state
  | .healthErrors => .ok s.h.healthErrors
  | .status => .ok s.status
  | .listeners => .ok s.listeners
  | .canaryIds => .ok s.canaryIds
  | .collected => .ok s.collected
  | .resolve _ | .spawnMonitor _ | .unlink _ | .sendp _ _ | .terminate _ | .wait _ _ | .kill _ | .sleep _ | .addActive _
  | .discardActive _ | .reset | .launch _ | .armEventSignal | .extendDeadline _ | .stop | .awaitTask _ | .cancelTask
  | .joinTask | .setStopped | .collect _ | .put _ | .setStatus _ | .addListener _ | .addCanaryIds _ | .mark _ => .ok ()

def verdictLine (id : String) : String := "trace id " ++ id ++ " ip filter input verdict accept"

/-- The line of each packet. -/
def lineOf : Packet → String
  | .canary .readiness _ => verdictLine "a1"
  | .canary .liveness _ => verdictLine "c1"
  | .test i => verdictLine ("b" ++ toString i)
  | .foreign n => verdictLine ("f" ++ toString n)

/-- The line of the packet just injected, written and read. -/
def traceLast (s : St) : List Ev :=
  match s.marks.getLast? with
  | some (.injected p) => [.write p (lineOf p), .line]
  | _ => []

/-- The monitor writes these lines and no others. -/
def writesOnly (xs : List (Packet × String)) (_ : St) (p : Packet) (line : String) : Bool := xs.contains (p, line)

def obligingEvents (s : St) : Req → List Ev
  | .waitReady _ => [.begin]
  | .waitForEvent _ | .sleep _ => traceLast s
  | .awaitTask _ => [.exit, .eof]
  | _ => []

/-- A schedule of the world. -/
def schedule (env : Env) (reply : St → (a : Req) → Except PyExc (Reply a)) (before : St → Req → List Ev) :
    Script Req Reply PyExc St Ev where
  answer s a r := if allows env s a r then some (effect env s a r) else none
  event := event env
  parked := parked env
  reply := reply
  before := before

theorem schedule_fits (env : Env) (reply : St → (a : Req) → Except PyExc (Reply a)) (before : St → Req → List Ev) :
    (schedule env reply before).Fits (world env) where
  answer s a r s' h := by
    simp only [schedule] at h
    split at h
    · exact ⟨‹_›, Option.some.inj h⟩
    · cases h
  event _ _ _ h := h
  parked _ _ h := h

/-- Every request is answered with success. -/
def obliging (env : Env) : Script Req Reply PyExc St Ev := schedule env obligingReply obligingEvents

end Nse
