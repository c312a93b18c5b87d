/-
  Nse.Cli.Runner — from a suite entry to a verdict about it, and from a suite to an exit
  code (`nse/cli/runner.py`).

  Pydantic is a parameter: how it coerces the value of one field, and what it prints. The
  checks the models themselves declare (addresses, port range, flags, non-empty rules and
  packets) are `PacketSpec` and `TestRequest`. The pipeline is a parameter of `runSuite`.
-/

import Nse.Core.RuleEngine
import Nse.Lib.PyValue

namespace Nse.Runner

variable [U : PyStr.Unicode]

def scaffoldTable : String := "nse_trace"

/-- The allowed keys, in the order `sorted` gives them. -/
def packetKeys : List String :=
  ["dst_ip", "dst_port", "expected_verdict", "protocol", "src_ip", "src_port", "tcp_flags"]

def caseKeys : List String := ["name", "packets", "rules", "topology"]

def validVerdicts : List String := ["ACCEPT", "DROP", "REJECT"]

/-! ## Events to verdicts -/

/-- `collect_oracle_errors`. -/
def collectOracleErrors (events : List TraceEvent) : List String :=
  (events.filter (·.type == .error)).map fun e =>
    match e.rawMessage with
    | some m => if m = "" then "unspecified pipeline error" else m
    | none => "unspecified pipeline error"

/-- The locals of `reduce_verdicts`: the ids in first-seen order, each with its verdicts,
    and the ids that reached the user's ruleset. -/
structure Reduction where
  verdicts : List (String × List String) := []
  reached : List String := []

/-- `verdicts[id].append(v)`. -/
def Reduction.append (id v : String) (r : Reduction) : Reduction :=
  { r with verdicts := r.verdicts.map fun p => if p.1 = id then (p.1, p.2 ++ [v]) else p }

def Reduction.open (id : String) (r : Reduction) : Reduction :=
  if id ∈ r.verdicts.map (·.1) then r else { r with verdicts := r.verdicts ++ [(id, [])] }

/-- `if evt.table and evt.table != _SCAFFOLD_TABLE`. -/
def reaches (e : TraceEvent) : Bool := e.table.any fun t => t != "" && t != scaffoldTable

def reduceEvent (r : Reduction) (e : TraceEvent) : Reduction :=
  match e.traceId with
  | none => r
  | some id =>
    if e.type = .error ∨ id = "" then r
    else
      let r := r.open id
      if reaches e then
        let r := { r with reached := id :: r.reached }
        match e.verdict with
        | some v => if v = "" then r else r.append id (PyStr.upper v)
        | none => r
      else r

/-- DROP and REJECT win over ACCEPT. -/
def decideVerdict (seen : List String) : Option String :=
  if seen.any fun v => v == "DROP" || v == "REJECT" then some "DROP"
  else if seen.any (· == "ACCEPT") then some "ACCEPT"
  else none

def Reduction.verdict (r : Reduction) (p : String × List String) : Option String :=
  if p.1 ∈ r.reached then decideVerdict p.2 else none

/-- `reduce_verdicts`. -/
def reduceVerdicts (events : List TraceEvent) : List String :=
  let r := events.foldl reduceEvent {}
  r.verdicts.filterMap r.verdict

structure CaseOutcome where
  name : String
  passed : Bool
  oracleError : Bool := false
  lines : List String := []
  deriving DecidableEq, Repr

def compareLine (idx : Nat) (exp act : String) : String :=
  (if exp = act then "  [OK] Packet " else "  [FAIL] Packet ") ++ toString idx ++
    ": expected " ++ exp ++ ", got " ++ act

def compareFrom : Nat → List String → List String → List String
  | idx, e :: es, a :: as => compareLine idx e a :: compareFrom (idx + 1) es as
  | _, _, _ => []

/-- `evaluate_case`. -/
def evaluateCase (name : String) (expected : List String) (events : List TraceEvent) : CaseOutcome :=
  let errors := collectOracleErrors events
  if errors ≠ [] then
    { name, passed := false, oracleError := true, lines := errors.map ("  [ORACLE ERROR] " ++ ·) }
  else
    let observed := reduceVerdicts events
    if observed.length ≠ expected.length then
      { name, passed := false, oracleError := true
        lines := ["  [ORACLE ERROR] expected " ++ toString expected.length ++ " verdict(s), observed " ++
          toString observed.length ++ ": " ++ RuleEngine.reprList observed ++
          ". A verdict that was not observed is missing evidence, not a pass."] }
    else
      { name, passed := (expected.zip observed).all fun p => p.1 == p.2, lines := compareFrom 1 expected observed }

/-! ## Suite entries -/

/-- How Pydantic coerces one field (`none`: the value is rejected), and its messages. -/
structure Pydantic where
  protocol : PyValue → Option Protocol
  str : PyValue → Option String
  optInt : PyValue → Option (Option Int)
  strList : PyValue → Option (List String)
  packetMessage : List PyValue → String
  requestMessage : PyValue → String

inductive BuildError where
  /-- `SuiteConfigError`. -/
  | config (message : String)
  /-- A `TypeError` that `build_case` lets through. -/
  | typeError
  /-- A `ValueError`: a number has more digits than `str` writes. -/
  | valueError
  deriving DecidableEq, Repr

/-- The arguments `build_case` passes to `PacketSpec`. -/
structure PacketArgs where
  protocol : PyValue
  srcIp : PyValue
  dstIp : PyValue
  srcPort : PyValue
  dstPort : PyValue
  tcpFlags : PyValue

/-- `validate_tcp_flags`. -/
def validateTcpFlags (flags : List String) : Option (List String) :=
  let upper := flags.map PyStr.upper
  if upper.all validFlags.contains then some upper else none

/-- `PacketSpec(…)`. -/
def packetSpec (P : Pydantic) (a : PacketArgs) : Option PacketSpec := do
  let protocol ← P.protocol a.protocol
  let srcIp ← P.str a.srcIp
  let dstIp ← P.str a.dstIp
  let srcPort ← P.optInt a.srcPort
  let dstPort ← P.optInt a.dstPort
  let tcpFlags ← (P.strList a.tcpFlags).bind validateTcpFlags
  if h : validateIp srcIp = true ∧ validateIp dstIp = true ∧ srcPort.all validPort = true ∧
      dstPort.all validPort = true ∧ tcpFlags.all validFlags.contains = true then
    some ⟨protocol, srcIp, dstIp, srcPort, dstPort, tcpFlags, h.1, h.2.1, h.2.2.1, h.2.2.2.1, h.2.2.2.2⟩
  else none

/-- `TestRequest(…)`. -/
def testRequest (P : Pydantic) (rules : PyValue) (packets : List PacketSpec) (topology : TopologyType) :
    Option TestRequest := do
  let rules ← P.str rules
  if h : rules ≠ "" ∧ packets ≠ [] then some ⟨rules, packets, topology, h.1, h.2⟩ else none

/-- `str(value)`. -/
def strOf (v : PyValue) : Except BuildError String := if v.printable then .ok v.toStr else .error .valueError

/-- The check for keys that are not allowed. -/
def checkKeys (items : List (PyValue × PyValue)) (allowed : List String) (message : String → String) :
    Except BuildError Unit :=
  let unknown := PyValue.unknownKeys allowed items
  if unknown = [] then .ok ()
  else
    match PyValue.sorted unknown with
    | some keys =>
      if (PyValue.list keys).printable then
        .error (.config (message ((PyValue.list keys).repr ++ "; expected " ++ RuleEngine.reprList allowed)))
      else .error .valueError
    | none => .error .typeError

/-- The expected verdict of one packet entry. -/
def expectedVerdict (name : String) (idx : Nat) (items : List (PyValue × PyValue)) : Except BuildError String := do
  let text ← strOf (PyValue.get items "expected_verdict" (.str "ACCEPT"))
  let verdict := PyStr.upper text
  if verdict ∉ validVerdicts then
    .error (.config (name ++ ": packet " ++ toString idx ++ " expects unknown verdict " ++ U.repr verdict ++
      "; expected one of " ++ RuleEngine.reprList validVerdicts))
  else .ok (if verdict = "REJECT" then "DROP" else verdict)

def defaultSrc : TopologyType → String
  | .gateway => "10.0.1.1"
  | .simple => "10.0.0.1"

def defaultDst : TopologyType → String
  | .gateway => "10.0.2.2"
  | .simple => "10.0.0.2"

omit U in
def packetArgs (topology : TopologyType) (items : List (PyValue × PyValue)) : PacketArgs :=
  { protocol := PyValue.get items "protocol" (.str "tcp")
    srcIp := PyValue.get items "src_ip" (.str (defaultSrc topology))
    dstIp := PyValue.get items "dst_ip" (.str (defaultDst topology))
    srcPort := PyValue.get items "src_port" .none
    dstPort := PyValue.get items "dst_port" .none
    tcpFlags := PyValue.get items "tcp_flags" (.list []) }

omit U in
def PacketArgs.values (a : PacketArgs) : List PyValue :=
  [a.protocol, a.srcIp, a.dstIp, a.srcPort, a.dstPort, a.tcpFlags]

/-- One turn of the loop over the packet entries. -/
def buildPacket (P : Pydantic) (name : String) (topology : TopologyType) (idx : Nat) :
    PyValue → Except BuildError (PacketSpec × String)
  | .dict items => do
    checkKeys items packetKeys fun rest => name ++ ": packet " ++ toString idx ++ " has unknown key(s) " ++ rest
    let expected ← expectedVerdict name idx items
    match packetSpec P (packetArgs topology items) with
    | some spec => .ok (spec, expected)
    | none =>
      .error (.config (name ++ ": packet " ++ toString idx ++ " is invalid:\n" ++
        P.packetMessage (packetArgs topology items).values))
  | _ => .error (.config (name ++ ": packet " ++ toString idx ++ " is not a mapping"))

def buildPackets (P : Pydantic) (name : String) (topology : TopologyType) :
    Nat → List PyValue → Except BuildError (List (PacketSpec × String))
  | _, [] => .ok []
  | idx, entry :: entries => do
    let p ← buildPacket P name topology idx entry
    let ps ← buildPackets P name topology (idx + 1) entries
    .ok (p :: ps)

/-- What `enumerate` goes through; `none` where the value is not iterable. -/
def iterate : PyValue → Option (List PyValue)
  | .list xs => some xs
  | .dict items => some (items.map (·.1))
  | .str s => some (s.toList.map fun c => .str (String.singleton c))
  | _ => none

def topologyOf (name : String) (items : List (PyValue × PyValue)) : Except BuildError TopologyType := do
  let text ← strOf (PyValue.get items "topology" (.str "simple"))
  let topology := U.lower text
  if topology = "gateway" then .ok .gateway
  else if topology = "simple" then .ok .simple
  else .error (.config (name ++ ": unknown topology " ++ U.repr topology ++ " (simple|gateway)"))

def caseName (items : List (PyValue × PyValue)) (index : Nat) : Except BuildError String :=
  strOf (PyValue.get items "name" (.str ("Test case " ++ toString (index + 1))))

/-- `build_case`. -/
def buildCase (P : Pydantic) (raw : PyValue) (index : Nat) :
    Except BuildError (String × TestRequest × List String) :=
  match raw with
  | .dict items => do
    let name ← caseName items index
    checkKeys items caseKeys fun rest => name ++ ": unknown key(s) " ++ rest
    let topology ← topologyOf name items
    let packetsData := PyValue.get items "packets" .none
    if packetsData.truthy then
      match iterate packetsData with
      | none => .error .typeError
      | some entries =>
        let built ← buildPackets P name topology 1 entries
        let rules := PyValue.get items "rules" (.str "")
        match testRequest P rules (built.map (·.1)) topology with
        | some request => .ok (name, request, built.map (·.2))
        | none => .error (.config (name ++ ": invalid test request:\n" ++ P.requestMessage rules))
    else .error (.config (name ++ ": no packets defined"))
  | _ => .error (.config ("test case " ++ toString (index + 1) ++ " is not a mapping"))

/-! ## A suite -/

structure SuiteOutcome where
  passed : Nat := 0
  failed : Nat := 0
  oracleErrors : Nat := 0
  deriving DecidableEq, Repr

namespace SuiteOutcome

omit U

def exitCode (o : SuiteOutcome) : Nat := if o.failed ≠ 0 ∨ o.oracleErrors ≠ 0 then 1 else 0

def record (o : SuiteOutcome) (c : CaseOutcome) : SuiteOutcome :=
  if c.passed then { o with passed := o.passed + 1 }
  else { o with failed := o.failed + 1, oracleErrors := if c.oracleError then o.oracleErrors + 1 else o.oracleErrors }

end SuiteOutcome

/-- What leaves `run_suite` instead of an outcome. -/
inductive Escape where
  | typeError
  | valueError
  | pipeline (e : PyExc)
  deriving DecidableEq, Repr

/-- The call of the pipeline for one case: the entry's index and its request. -/
abbrev Run := Nat → TestRequest → Except PyExc (List TraceEvent)

omit U in
/-- `except (RuntimeError, OSError, ValueError)`. -/
def crashes (e : PyExc) : Bool := e.cls == .runtimeError || e.isOSError || e.cls == .valueError

def runCase (P : Pydantic) (run : Run) (index : Nat) (raw : PyValue) : Except Escape CaseOutcome :=
  match buildCase P raw index with
  | .error (.config message) =>
    .ok { name := "case " ++ toString (index + 1), passed := false
          lines := ["  [FAIL] Invalid suite entry: " ++ message] }
  | .error .typeError => .error .typeError
  | .error .valueError => .error .valueError
  | .ok (name, request, expected) =>
    match run index request with
    | .ok events => .ok (evaluateCase name expected events)
    | .error e =>
      if crashes e then
        .ok { name, passed := false, oracleError := true, lines := ["  [ORACLE ERROR] Pipeline crashed: " ++ e.text] }
      else .error (.pipeline e)

def runFrom (P : Pydantic) (run : Run) : Nat → SuiteOutcome → List PyValue → Except Escape SuiteOutcome
  | _, outcome, [] => .ok outcome
  | index, outcome, raw :: cases => do
    let result ← runCase P run index raw
    runFrom P run (index + 1) (outcome.record result) cases

/-- `run_suite`. -/
def runSuite (P : Pydantic) (run : Run) (cases : List PyValue) : Except Escape SuiteOutcome := runFrom P run 0 {} cases

end Nse.Runner
