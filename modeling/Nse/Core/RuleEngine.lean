/-
  Nse.Core.RuleEngine — checking a ruleset, loading it into a namespace, and what `nft` says
  when it rejects one (`nse/core/rule_engine.py`).
-/

import Nse.Core.Effects

namespace Nse.RuleEngine

open Backtrack (Re)

variable [U : PyStr.Unicode]

/-- `_NFT_ERROR_RE`. -/
def nftErrorRe : Re :=
  Re.seqs [.group "file" (Re.plus (· != ':')), .lit ":", .group "line" (Re.plus PyStr.isDigit), .lit ":",
    .group "col_range" (Re.plus fun c => PyStr.isDigit c || c == '-'), .lit ":", .many U.isSpace,
    .group "level" (Re.plus U.isWord), .lit ":", .many U.isSpace, .group "msg" (Re.plus TraceParser.dot), .atEnd]

/-- A line that is no located error goes to the context of the last entry. -/
def addContext (line : String) : NftError → NftError
  | .located l c lv m ctx => .located l c lv m (ctx ++ [line])
  | .raw r ctx => .raw r (ctx ++ [line])

/-- One line, stripped; the line number is read by `int`. -/
def parseNftLine (errors : List NftError) (line : String) : Except PyExc (List NftError) :=
  match nftErrorRe.match line with
  | some m =>
    (intOf ((m.get "line").getD "")).map fun n =>
      errors ++ [.located n ((m.get "col_range").getD "") ((m.get "level").getD "") ((m.get "msg").getD "") []]
  | none =>
    match errors.getLast? with
    | some last => .ok (errors.dropLast ++ [addContext line last])
    | none => .ok [.raw line []]

def parseNftLines : List NftError → List String → Except PyExc (List NftError)
  | errors, [] => .ok errors
  | errors, rawLine :: rawLines =>
    let line := PyStr.strip rawLine
    if line = "" then parseNftLines errors rawLines
    else (parseNftLine errors line).bind fun errors => parseNftLines errors rawLines

/-- `_parse_nft_errors`. -/
def parseNftErrors (stderr : String) : Except PyExc (List NftError) := parseNftLines [] (PyStr.splitlines stderr)

def reprList (xs : List String) : String := "[" ++ PyStr.join ", " (xs.map U.repr) ++ "]"

def reprContext (ctx : List String) : String := if ctx = [] then "" else ", 'context': " ++ reprList ctx

def reprError : NftError → String
  | .located l c lv m ctx =>
    "\x7b'line': " ++ toString l ++ ", 'column_range': " ++ U.repr c ++ ", 'level': " ++ U.repr lv ++
      ", 'message': " ++ U.repr m ++ reprContext ctx ++ "\x7d"
  | .raw r ctx => "\x7b'raw': " ++ U.repr r ++ reprContext ctx ++ "\x7d"

/-- `str` of a list of errors. -/
def reprErrors (errors : List NftError) : String := "[" ++ PyStr.join ", " (errors.map reprError) ++ "]"

def ruleValidationError (errors : List NftError) : PyExc :=
  { cls := .ruleValidationError, text := "nftables validation failed: " ++ reprErrors errors, errors }

def traceInitRuleset : String :=
  "\ntable inet nse_trace \x7b\n  chain nse_trace_prerouting \x7b\n" ++
  "    type filter hook prerouting priority -300; policy accept;\n    meta nftrace set 1\n  \x7d\n\x7d\n"

/-- `with _temp_rules_file(rules) as path: body`. -/
def withTempRulesFile (rules : String) (body : String → Prog Unit) : Prog Unit := do
  let path ← perform (.tempFile rules)
  (body path).tryFinally (perform (.unlink path))

/-- What both entry points do when `nft` is done. -/
def checkResult (result : Completed) : Prog Unit :=
  if result.returncode ≠ 0 then
    match parseNftErrors result.stderr with
    | .ok errors => raise (ruleValidationError errors)
    | .error e => raise e
  else pure ()

/-- `RuleEngine.validate`. -/
def validate (rules : String) : Prog Unit :=
  withTempRulesFile rules fun path => do
    let result ← perform (.run
      { argv := [.bin "nft", .str "--check", .str "-f", .str path], check := false, timeout := some 10000 })
    checkResult result

/-- What `load` hands to `nft`. -/
def fullRuleset (rules : String) : String := traceInitRuleset ++ "\n" ++ rules

/-- `RuleEngine.load`. -/
def load (useNsenter : Bool) (rules netns : String) : Prog Unit :=
  if netns = "" then
    raise { cls := .valueError, text := "netns_name must be provided, refusing to inject into init_net." }
  else
    withTempRulesFile (fullRuleset rules) fun path => do
      let result ← perform (.run
        { argv := execPrefix useNsenter netns ++ [.bin "nft", .str "-f", .str path]
          check := false
          timeout := some 30000 })
      checkResult result

end Nse.RuleEngine
