/-
  Nse.Core.TraceParser — one line of `nft monitor trace` (`_parse_line` and its patterns,
  `nse/core/trace_harvester.py`).
-/

import Nse.Core.PyExc
import Nse.Lib.Regex
import Nse.Models.TraceEvent

namespace Nse.TraceParser

open Backtrack (Re Groups)

variable [U : PyStr.Unicode]

def hexChar (c : Char) : Bool := c.isDigit || ('a' ≤ c && c ≤ 'f') || ('A' ≤ c && c ≤ 'F')

def bareChar (c : Char) : Bool := c.isAlphanum || c == '_' || c == '.' || c == '/' || c == '-'

def notQuote (c : Char) : Bool := c != '"'

/-- `.`: anything but a newline. -/
def dot (c : Char) : Bool := c != '\n'

/-- `[\da-f]`. -/
def ruleIdChar (c : Char) : Bool := PyStr.isDigit c || ('a' ≤ c && c ≤ 'f')

/-- `[^\s\"]`. -/
def iifChar (c : Char) : Bool := !U.isSpace c && c != '"'

def quoted : Re := .seq (.lit "\"") (.seq (Re.plus notQuote) (.lit "\""))

/-- `_IDENT`: a quoted name, which may contain spaces, or a bare one. -/
def ident (name : String) : Re := .group name (.alt quoted (Re.plus bareChar))

/-- `_PREFIX`, before `r`. -/
def prefixed (r : Re) : Re :=
  Re.seqs [.lit "trace id ", .group "trace_id" (Re.plus hexChar), .lit " ", ident "family", .lit " ", ident "table",
    .lit " ", ident "chain", .lit " ", r]

/-- `_PACKET_RE`. -/
def packetRe : Re :=
  prefixed <| .seq (.lit "packet:") <| .opt <|
    Re.seqs [.manyLazy dot, .boundary U.isWord, .lit "iif ", .opt (.lit "\""), .group "iif" (Re.plus iifChar),
      .opt (.lit "\"")]

/-- `_RULE_RE`. -/
def ruleRe : Re :=
  prefixed <| Re.seqs
    [.lit "rule ",
      .opt (Re.seqs [.group "rule_id" (.seq (.lit "0x") (Re.plus ruleIdChar)), .lit " (handle ",
        .group "handle" (Re.plus PyStr.isDigit), .lit ") "]),
      .group "rule_text" (Re.plusLazy dot),
      .opt (Re.seqs [.lit " (verdict ", .group "verdict" (Re.plus U.isWord), .lit ")"]),
      .atEnd]

/-- `_VERDICT_RE`. -/
def verdictRe : Re :=
  prefixed <| Re.seqs [.alt (.lit "verdict") (.lit "policy"), .lit " ", .group "verdict" (Re.plus U.isWord)]

/-- `_TRACE_LINE_RE`. -/
def traceLineRe : Re := Re.seqs [.lit "trace id ", Re.plus fun c => !U.isSpace c, .lit " "]

/-- `_unquote`. -/
def unquote (value : String) : String :=
  match value.toList with
  | '"' :: cs => if cs.getLast? = some '"' then String.ofList cs.dropLast else value
  | _ => value

/-- The fields all three kinds of event share. -/
def baseEvent (type : EventType) (m : Groups) : TraceEvent :=
  { type
    traceId := m.get "trace_id"
    family := (m.get "family").map unquote
    table := (m.get "table").map unquote
    chain := (m.get "chain").map unquote }

def hookEvent (m : Groups) : TraceEvent := { baseEvent .hook m with hook := some ((m.get "iif").getD "") }

def ruleEvent (m : Groups) (handle : Option Int) : TraceEvent :=
  { baseEvent .ruleMatch m with
    ruleHandle := handle
    ruleText := (m.get "rule_text").map PyStr.strip
    verdict := (m.get "verdict").map PyStr.upper }

/-- `int(m.group("handle")) if m.group("handle") else None`. -/
def readHandle (m : Groups) : Except PyExc (Option Int) :=
  match m.get "handle" with
  | some handle => (intOf handle).map some
  | none => .ok none

def verdictEvent (m : Groups) : TraceEvent :=
  { baseEvent .verdict m with verdict := (m.get "verdict").map PyStr.upper }

/-- `_parse_line`. `blind` is the `NSE_FORCE_BLIND` hook. -/
def parseLine (blind : Bool) (line : String) : Except PyExc (Option TraceEvent) :=
  if blind then .ok none
  else
    match packetRe.match line with
    | some m => .ok (some (hookEvent m))
    | none =>
      match ruleRe.match line with
      | some m => (readHandle m).map fun handle => some (ruleEvent m handle)
      | none => .ok ((verdictRe.match line).map verdictEvent)

/-- The event, if there is one. -/
def eventOf (blind : Bool) (line : String) : Option TraceEvent :=
  match parseLine blind line with
  | .ok e => e
  | .error _ => none

/-! ## Basics -/

section

variable {blind : Bool} {line : String}

theorem eventOf_of_ok {o : Option TraceEvent} (h : parseLine blind line = .ok o) : eventOf blind line = o := by
  rw [eventOf, h]

theorem eventOf_eq_some {e : TraceEvent} : eventOf blind line = some e ↔ parseLine blind line = .ok (some e) := by
  unfold eventOf
  cases parseLine blind line with
  | ok o => simp
  | error exc => simp

/-- An event comes from one of the three patterns. -/
theorem parseLine_cases {e : TraceEvent} (h : parseLine blind line = .ok (some e)) :
    (∃ m, packetRe.match line = some m ∧ e = hookEvent m) ∨
      (∃ m handle, ruleRe.match line = some m ∧ readHandle m = .ok handle ∧ e = ruleEvent m handle) ∨
        ∃ m, verdictRe.match line = some m ∧ e = verdictEvent m := by
  unfold parseLine at h
  split at h
  · cases h
  · split at h
    · rename_i m hm
      cases h
      exact .inl ⟨m, hm, rfl⟩
    · split at h
      · rename_i m hm
        cases hhandle : readHandle m with
        | ok handle =>
          rw [hhandle] at h
          cases h
          exact .inr (.inl ⟨m, handle, hm, hhandle, rfl⟩)
        | error exc =>
          rw [hhandle] at h
          cases h
      · obtain ⟨m, hm, rfl⟩ := Option.map_eq_some_iff.mp (Except.ok.inj h)
        exact .inr (.inr ⟨m, hm, rfl⟩)

end

end Nse.TraceParser
