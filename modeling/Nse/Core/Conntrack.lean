/-
  Nse.Core.Conntrack — the connection tracking table of a namespace (`parse_conntrack_line`
  and `read_conntrack_table`, `nse/core/pipeline.py`).
-/

import Nse.Core.Effects

namespace Nse.Conntrack

variable [U : PyStr.Unicode]

structure Entry where
  proto : String
  state : String
  src : String
  dst : String
  sport : Option Int
  dport : Option Int
  deriving DecidableEq, Repr

def tcpStates : List String :=
  ["ESTABLISHED", "SYN_SENT", "SYN_RECV", "FIN_WAIT", "TIME_WAIT", "CLOSE", "CLOSE_WAIT", "LAST_ACK"]

/-- What the loop over the words of a line has found so far. -/
structure Found where
  src : Option String := none
  dst : Option String := none
  sport : Option Int := none
  dport : Option Int := none

def falsy {α : Type} [DecidableEq α] (zero : α) (v : Option α) : Bool := v == none || v == some zero

/-- `p.split("=")[1]`. -/
def valueOf (p : String) : String := ((PyStr.splitOn '=' p)[1]?).getD ""

def scanWord (f : Found) (p : String) : Except PyExc Found :=
  if PyStr.startsWith p "src=" && falsy "" f.src then .ok { f with src := some (valueOf p) }
  else if PyStr.startsWith p "dst=" && falsy "" f.dst then .ok { f with dst := some (valueOf p) }
  else if PyStr.startsWith p "sport=" && falsy 0 f.sport then
    (intOf (valueOf p)).map fun n => { f with sport := some n }
  else if PyStr.startsWith p "dport=" && falsy 0 f.dport then
    (intOf (valueOf p)).map fun n => { f with dport := some n }
  else .ok f

def scanWords : Found → List String → Except PyExc Found
  | f, [] => .ok f
  | f, p :: ps => (scanWord f p).bind fun f => scanWords f ps

/-- `parse_conntrack_line`. -/
def parseConntrackLine (line : String) : Except PyExc (Option Entry) :=
  let parts := PyStr.split (PyStr.strip line)
  if parts.length < 6 then .ok none
  else
    let proto := (parts[2]?).getD ""
    let state := if proto = "tcp" then (((parts.drop 4).take 3).find? tcpStates.contains).getD "UNKNOWN"
        else "ESTABLISHED"
    (scanWords {} parts).map fun f =>
      match f.src, f.dst with
      | some src, some dst =>
        if src ≠ "" ∧ dst ≠ "" then
          some { proto := PyStr.upper proto, state, src, dst, sport := f.sport, dport := f.dport }
        else none
      | _, _ => none

def parseLines : List String → Except PyExc (List Entry)
  | [] => .ok []
  | line :: lines =>
    if PyStr.strip line = "" then parseLines lines
    else
      (parseConntrackLine line).bind fun entry => (parseLines lines).map fun entries => entry.toList ++ entries

def catTable (entry : List Arg) (file : String) : Prog (List String) := do
  let res ← perform (.run { argv := entry ++ [.bin "cat", .str file], check := true, timeout := none })
  pure (PyStr.splitOn '\n' (PyStr.strip res.stdout))

/-- `except (subprocess.CalledProcessError, OSError): other`. -/
def orElseOnFailure {α : Type} (x : Prog α) (other : Prog α) : Prog α :=
  x.tryCatch fun e => if e.cls = .calledProcessError ∨ e.isOSError then other else raise e

def liftExcept {α : Type} : Except PyExc α → Prog α
  | .ok v => pure v
  | .error e => raise e

/-- `read_conntrack_table`. The words that enter the namespace are resolved before the
    `try`, so a missing `ip` or `nsenter` is raised. -/
def readConntrackTable (netns : String) (useNsenter : Bool) : Prog (List Entry) := do
  perform (.resolve (if useNsenter then "nsenter" else "ip"))
  let lines ← orElseOnFailure (catTable (execPrefix useNsenter netns) "/proc/net/nf_conntrack")
    (orElseOnFailure (catTable (execPrefix useNsenter netns) "/proc/net/ip_conntrack") (pure []))
  liftExcept (parseLines lines)

def optInt : Option Int → String
  | some n => toString n
  | none => "None"

/-- The text of a conntrack event. -/
def Entry.ruleText (ct : Entry) : String :=
  "state=" ++ ct.state ++ " proto=" ++ ct.proto ++ " " ++ ct.src ++ ":" ++ optInt ct.sport ++ " -> " ++ ct.dst ++ ":" ++
    optInt ct.dport

end Nse.Conntrack
