/-
  Nse.Core.Pipeline — one test run (`run_test_pipeline` and its helpers,
  `nse/core/pipeline.py`).

  The statements of the source stand in its order; what it keeps in local variables across
  the `try` (the collected events, the canary ids, the listeners, the status of the run)
  is asked of the world, because it survives an exception. Each call of `inject` is marked
  with the packet it sends. `run_test_pipeline` returns a list by reference: the list the
  read loop appends to, or a new one.
-/

import Nse.Core.Conntrack
import Nse.Core.MockListener
import Nse.Core.NetnsController
import Nse.Core.RuleEngine
import Nse.Core.ScapyInjector
import Nse.Core.TraceHarvester

namespace Nse.Pipeline

/-- The timing knobs, in milliseconds. -/
structure Config where
  idleTimeout : Nat := 5000
  injectSettle : Nat := 150
  drainDelay : Nat := 300
  canaryAttempts : Nat := 25
  canaryInterval : Nat := 200

/-- Where packets are injected. -/
structure Target where
  useNsenter : Bool
  netns : String
  vethHost : String
  vethPeer : String
  hostNetns : Option String

inductive ListRef where
  /-- `collected_events` itself. -/
  | collected
  | fresh (events : List TraceEvent)

variable [U : PyStr.Unicode]

/-! ## Canaries -/

/-- `_canary_spec`. -/
def canarySpec (p : PacketSpec) : PacketSpec :=
  { protocol := .udp
    srcIp := p.srcIp
    dstIp := p.dstIp
    srcPort := some 64998
    dstPort := some 64999
    srcIp_valid := p.srcIp_valid
    dstIp_valid := p.dstIp_valid
    flags_valid := noFlags_valid }

def injectPacket (t : Target) (p : Packet) (spec : PacketSpec) : Prog Unit := do
  perform (.mark (.injecting p spec))
  ScapyInjector.inject t.useNsenter spec t.netns t.vethHost t.vethPeer t.hostNetns
  perform (.mark (.injected p))

/-- One canary; an injection that fails is waited out. -/
def injectCanary (cfg : Config) (t : Target) (label : Label) (spec : PacketSpec) (attempt : Nat) : Prog Bool :=
  (do injectPacket t (.canary label attempt) spec; pure true : Prog Bool).tryCatch fun e =>
    if e.isException then do
      perform (.sleep cfg.canaryInterval)
      pure false
    else raise e

def probeAttempt (cfg : Config) (t : Target) (label : Label) (spec : PacketSpec) (attempt : Nat) : Prog Bool := do
  perform .armEventSignal
  perform (.extendDeadline cfg.idleTimeout)
  let injected ← injectCanary cfg t label spec attempt
  if injected then perform (.waitForEvent cfg.canaryInterval) else pure false

def probeFrom (cfg : Config) (t : Target) (label : Label) (spec : PacketSpec) : Nat → Nat → Prog Bool
  | _, 0 => pure false
  | attempt, left + 1 => do
    let seen ← probeAttempt cfg t label spec attempt
    if seen then pure true else probeFrom cfg t label spec (attempt + 1) left

/-- `_probe_oracle`. -/
def probeOracle (cfg : Config) (t : Target) (label : Label) (spec : PacketSpec) : Prog Bool := do
  let seen ← probeFrom cfg t label spec 1 cfg.canaryAttempts
  perform (.mark (.probed label seen))
  pure seen

/-- `_without_canaries`. -/
def withoutCanaries (events : List TraceEvent) (canaryIds : List String) : ListRef :=
  if canaryIds = [] then .collected
  else .fresh (events.filter fun e => !canaryIds.any e.hasId)

def result : Prog ListRef := do
  let events ← perform .collected
  let ids ← perform .canaryIds
  pure (withoutCanaries events ids)

/-! ## Events -/

def emitEvent (item : Option TraceEvent) : Prog Unit := do
  match item with
  | some e => perform (.collect e)
  | none => pure ()
  perform (.put item)

def errorEvent (testId message : String) : TraceEvent :=
  { type := .error, traceId := some testId, verdict := some "ERROR", rawMessage := some message }

def emitOracleError (testId message : String) : Prog Unit := do
  perform (.setStatus .error)
  emitEvent (some (errorEvent testId ("oracle: " ++ message)))

def conntrackEvent (testId : String) (ct : Conntrack.Entry) : TraceEvent :=
  { type := .conntrack, traceId := some testId, ruleText := some ct.ruleText }

def readinessLost : String :=
  "readiness canary was never observed - `nft monitor trace` is not reporting kernel events, so no verdict from " ++
    "this run would be evidence of anything"

def livenessLost : String :=
  "liveness canary was never observed - the trace monitor stopped reporting before the run finished, so the verdict " ++
    "stream is truncated by an unknown amount"

/-! ## The steps of a run -/

section Steps

variable (cfg : Config) (req : TestRequest) (testId : String) (c : NetnsController)

omit U in
def target : Target :=
  let names := deriveNames testId
  { useNsenter := c.useNsenter
    netns := if req.topology = .gateway then names.routerNs else names.netns
    vethHost := names.vethHost
    vethPeer := if req.topology = .gateway then names.vethRouterHost else "veth-nse"
    hostNetns := none }

omit U in
/-- 1. -/
def setupTopology : Prog Unit :=
  let names := deriveNames testId
  match req.topology with
  | .gateway =>
    c.createGatewayTopology names.routerNs names.serverNs names.vethHost names.vethRouterHost names.vethRouterServer
      names.vethServer {}
  | .simple => do
    c.createNetns names.netns
    c.createVethPair names.netns names.vethHost "veth-nse" ["10.0.0.1/24"] ["10.0.0.2/24"]

omit U in
/-- 2. -/
def spawnListeners : Prog Unit :=
  let names := deriveNames testId
  let netns := if req.topology = .gateway then names.serverNs else names.netns
  Coroutine.Co.forEach req.packets fun pkt =>
    match pkt.dstPort with
    | some port => do
      let proc ← MockListener.startMockListener netns pkt.protocol port c.useNsenter
      perform (.addListener proc)
    | none => pure ()

/-- 3 and 4. -/
def startMonitor : Prog Unit := do
  let t := target req testId c
  RuleEngine.load c.useNsenter req.rules t.netns
  let initial := max cfg.idleTimeout
    (2000 + cfg.injectSettle * req.packets.length + cfg.canaryAttempts * cfg.canaryInterval)
  TraceHarvester.start t.netns initial c.useNsenter
  let _ ← perform (.waitReady 2000)

/-- 6. -/
def injectFrom (t : Target) : Nat → List PacketSpec → Prog Unit
  | _, [] => pure ()
  | i, pkt :: pkts => do
    perform (.extendDeadline cfg.idleTimeout)
    injectPacket t (.test i) pkt
    perform (.sleep cfg.injectSettle)
    injectFrom t (i + 1) pkts

/-- 7. -/
def checkLiveness : Prog Unit := do
  let before ← perform .seenTraceIds
  let alive ← probeOracle cfg (target req testId c) .liveness (canarySpec req.firstPacket)
  ifSo (alive = false) (emitOracleError testId livenessLost)
  let now ← perform .seenTraceIds
  perform (.addCanaryIds (now.filter fun id => !before.contains id))

/-- 8. -/
def reportConntrack : Prog Unit := do
  let entries ← Conntrack.readConntrackTable (target req testId c).netns c.useNsenter
  perform (.mark (.conntrack entries.length))
  Coroutine.Co.forEach entries fun ct => emitEvent (some (conntrackEvent testId ct))

omit U in
/-- 9. -/
def reportHealth : Prog Unit := do
  let _ ← TraceHarvester.aclose 2000
  let problems ← perform .healthErrors
  Coroutine.Co.forEach problems (emitOracleError testId)
  let st ← perform .status
  ifSo (st ≠ .error) (perform (.setStatus .done))

/-- The early return of a run whose readiness canary was never seen. -/
def giveUp : Prog (Option ListRef) := do
  emitOracleError testId readinessLost
  emitEvent none
  let ref ← result
  pure (some ref)

/-- 6 to 9. -/
def measure : Prog (Option ListRef) := do
  let ids ← perform .seenTraceIds
  perform (.addCanaryIds ids)
  injectFrom cfg (target req testId c) 0 req.packets
  perform (.sleep cfg.drainDelay)
  checkLiveness cfg req testId c
  reportConntrack req testId c
  reportHealth testId
  pure none

/-- The `try` block: `some` list where it returns early. -/
def body : Prog (Option ListRef) := do
  setupTopology req testId c
  spawnListeners req testId c
  startMonitor cfg req testId c
  let ready ← probeOracle cfg (target req testId c) .readiness (canarySpec req.firstPacket)
  if ready then measure cfg req testId c else giveUp testId

def reportException (message : String) : Prog (Option ListRef) := do
  perform (.setStatus .error)
  emitEvent (some (errorEvent testId message))
  emitEvent none
  let _ ← TraceHarvester.aclose 2000
  pure none

/-- The two `except` clauses. -/
def handle (e : PyExc) : Prog (Option ListRef) :=
  if e.cls = .ruleValidationError then reportException testId (RuleEngine.reprErrors e.errors)
  else if e.isException then reportException testId e.text
  else raise e

omit U in
def isProcessError (e : PyExc) : Bool := e.isOSError || e.isSubprocessError

omit U in
def stopListener (proc : Nat) : Prog Unit :=
  (do perform (.terminate proc); perform (.wait proc 500) : Prog Unit).tryCatch fun e =>
    if isProcessError e then suppress isProcessError (perform (.kill proc)) else raise e

/-- The namespaces of the topology. -/
def namespaces (req : TestRequest) (testId : String) : List String :=
  let names := deriveNames testId
  if req.topology = .gateway then [names.routerNs, names.serverNs] else [names.netns]

omit U in
def deleteHostVeth (vethHost : String) : Prog Unit := do
  let _ ← perform (.run { argv := NetnsController.ip ["link", "del", vethHost], check := false, timeout := none })
  pure ()

/-- The `finally` block. -/
def teardown : Prog Unit := do
  let procs ← perform .listeners
  Coroutine.Co.forEach procs stopListener
  Coroutine.Co.forEach (namespaces req testId) NetnsController.destroyNetns
  deleteHostVeth (deriveNames testId).vethHost

/-- From the `try` on. -/
def guarded : Prog (Option ListRef) :=
  ((body cfg req testId c).tryCatch (handle testId)).tryFinally (teardown req testId)

/-- The run of one controller. -/
def runWith : Prog ListRef := do
  perform (.setStatus .running)
  let early ← guarded cfg req testId c
  match early with
  | some ref => pure ref
  | none => result

end Steps

def runTestPipeline (cfg : Config) (req : TestRequest) (controller : Option NetnsController) (testId : String) :
    Prog ListRef := do
  let c ← match controller with
    | some c => pure c
    | none => NetnsController.new none
  runWith cfg req testId c

end Nse.Pipeline
