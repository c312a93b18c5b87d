/-
  Nse.Core.Effects — what the engine asks of the outside: commands, and the requests a
  coroutine of the engine can make.

  A command names the binaries that `resolve` must find (`Arg.bin`); a binary that is
  missing or unsafe makes the command raise before it runs. `subprocess.run` with
  `check=True` raises on a non-zero exit. The requests after the commands are the methods
  of the one `TraceHarvester` of a run, what `run_test_pipeline` keeps in local variables,
  and `mark`, which has no counterpart in the source: it records a milestone of the run
  and changes nothing the code reads.
-/

import Nse.Lib.Coroutine
import Nse.Core.Harvester
import Nse.Models.TestRequest

namespace Nse

/-! ## Commands -/

inductive Arg where
  | bin (name : String)
  | str (s : String)
  /-- `sys.executable`. -/
  | python
  deriving DecidableEq, Repr

structure Cmd where
  argv : List Arg
  check : Bool
  timeout : Option Nat
  deriving DecidableEq, Repr

structure Completed where
  returncode : Int
  stdout : String
  stderr : String
  deriving DecidableEq, Repr

/-- The words that enter a namespace before a command, in either mode. -/
def execPrefix (useNsenter : Bool) (netns : String) : List Arg :=
  if useNsenter then [.bin "nsenter", .str ("--net=/var/run/netns/" ++ netns), .str "--"]
  else [.bin "ip", .str "netns", .str "exec", .str netns]

inductive L4 where
  | tcp (sport dport : Int) (flags : String)
  | udp (sport dport : Int)
  | icmp
  | icmpv6EchoRequest
  deriving DecidableEq, Repr

/-- `Ether(src, dst) / l3(src, dst) / l4`. -/
structure Frame where
  etherSrc : String
  etherDst : String
  ipv6 : Bool
  src : String
  dst : String
  l4 : L4
  deriving DecidableEq, Repr

/-! ## Requests -/

inductive Label where
  | readiness
  | liveness
  deriving DecidableEq, Repr

/-- What a trace line is about: a frame of one call of `inject`, or foreign traffic. -/
inductive Packet where
  | canary (label : Label) (attempt : Nat)
  | test (index : Nat)
  | foreign (n : Nat)
  deriving DecidableEq, Repr

def Packet.isCanary : Packet → Bool
  | .canary _ _ => true
  | _ => false

inductive Mark where
  /-- `injector.inject` was called, then returned without raising. -/
  | injecting (p : Packet) (spec : PacketSpec)
  | injected (p : Packet)
  | probed (label : Label) (seen : Bool)
  /-- `seen_trace_ids` was read and had this length. -/
  | snapshot (n : Nat)
  | conntrack (entries : Nat)
  /-- `health_errors()` was called on this harvester. -/
  | health (h : Harvester)
  deriving DecidableEq

inductive Status where
  | pending
  | running
  | done
  | error
  deriving DecidableEq, Repr

inductive Req where
  | resolve (binary : String)
  /-- `subprocess.run`, in a worker thread. -/
  | run (c : Cmd)
  /-- `subprocess.Popen`, on the event loop. -/
  | popen (argv : List Arg)
  | spawnMonitor (argv : List Arg)
  | tempFile (content : String)
  | unlink (path : String)
  | inContainer
  | sendp (f : Frame) (iface : String)
  | terminate (proc : Nat)
  | wait (proc : Nat) (ms : Nat)
  | kill (proc : Nat)
  | sleep (ms : Nat)
  /-- `_active_ns` of the controller. -/
  | addActive (netns : String)
  | discardActive (netns : String)
  | activeNs
  | reset
  | launch (timeout : Nat)
  | waitReady (ms : Nat)
  | armEventSignal
  | extendDeadline (ms : Nat)
  | waitForEvent (ms : Nat)
  | seenTraceIds
  | stop
  | taskPending
  /-- `wait_for(shield(self._task), ms)`. -/
  | awaitTask (ms : Nat)
  | cancelTask
  | joinTask
  | setStopped
  | harvestState
  | healthErrors
  | collect (e : TraceEvent)
  | put (item : Option TraceEvent)
  | setStatus (st : Status)
  | status
  | addListener (proc : Nat)
  | listeners
  | addCanaryIds (ids : List String)
  | canaryIds
  | collected
  | mark (m : Mark)
  deriving DecidableEq

abbrev Reply : Req → Type
  | .run _ => Completed
  | .popen _ => Nat
  | .tempFile _ => String
  | .inContainer => Bool
  | .activeNs => List String
  | .waitReady _ => Bool
  | .waitForEvent _ => Bool
  | .seenTraceIds => List String
  | .taskPending => Bool
  | .harvestState => HarvestState
  | .healthErrors => List String
  | .status => Status
  | .listeners => List Nat
  | .canaryIds => List String
  | .collected => List TraceEvent
  | _ => Unit

abbrev Prog (α : Type) : Type := Coroutine.Co Req Reply PyExc α

def perform (a : Req) : Prog (Reply a) := Coroutine.Co.request a

def raise {α : Type} (e : PyExc) : Prog α := .throw e

def ifSo (c : Prop) [Decidable c] (x : Prog Unit) : Prog Unit := if c then x else pure ()

/-- `with contextlib.suppress(…): x`. -/
def suppress (caught : PyExc → Bool) (x : Prog Unit) : Prog Unit :=
  x.tryCatch fun e => if caught e then pure () else raise e

theorem only_suppress {p : Req → Prop} {caught : PyExc → Bool} {x : Prog Unit} (hx : Coroutine.Only p x) :
    Coroutine.Only p (suppress caught x) :=
  Coroutine.only_tryCatch (fun e => by split <;> trivial) hx

end Nse
