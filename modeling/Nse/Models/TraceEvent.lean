/-
  Nse.Models.TraceEvent — one event of `nft monitor trace`, or of the pipeline itself
  (`nse/models/trace_event.py`), with the fields the engine and the runner read.
-/

namespace Nse

inductive EventType where
  | hook
  | ruleMatch
  | verdict
  | error
  | conntrack
  deriving DecidableEq, Repr

structure TraceEvent where
  type : EventType
  traceId : Option String := none
  family : Option String := none
  table : Option String := none
  chain : Option String := none
  hook : Option String := none
  ruleHandle : Option Int := none
  ruleText : Option String := none
  verdict : Option String := none
  rawMessage : Option String := none
  deriving DecidableEq, Repr

/-- Printed by the kernel monitor, as opposed to emitted by the pipeline. -/
def TraceEvent.traced (e : TraceEvent) : Bool :=
  e.type == .hook || e.type == .ruleMatch || e.type == .verdict

/-- `if evt.trace_id`: present and not empty. -/
def TraceEvent.hasId (e : TraceEvent) (id : String) : Bool := id != "" && e.traceId == some id

end Nse
