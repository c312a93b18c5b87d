/-
  Nse.Core.ErrorLines — the lines that a rejected ruleset's errors name, from both entry points.

  `nft` has something against certain places of the user's text, and nothing against the
  tracing table. For each place it prints the file it was given, the line of the place in that
  file, counted from 1, the columns, a level and a message, and below them lines of context,
  whatever they say. `validate` gives it the text alone, `load` the tracing table and then the
  text.

  - `validate_names_the_line`: the errors `validate` raises name the lines of the user's text.
  - `load_is_eight_lines_off`: those `load` raises name lines eight further down, for the
    lines of the tracing table and the one after it are counted too.
  - `lines_agree_iff`: so the two agree only on a ruleset that is rejected without an error.
    `an_error_on_line_two_is_reported_on_line_ten`: on any other they do not.
-/

import Nse.Core.NftErrors
import Nse.Lib.Handler

namespace Nse

/-- Line, columns, level and message of a located entry. -/
def NftError.spot : NftError → Option (Int × String × String × String)
  | .located line columns level message _ => some (line, columns, level, message)
  | .raw .. => none

namespace RuleEngine

open Backtrack PyStr

variable [U : PyStr.Unicode]

/-! ## What `nft` prints -/

/-- The words of an error: none is blank, and the message is one line without spaces at its ends. -/
structure Printable (columns level message : String) : Prop where
  columns_ne : columns ≠ ""
  columns_chars : ∀ c ∈ columns.toList, (c.isDigit || c == '-') = true
  level_ne : level ≠ ""
  level_chars : ∀ c ∈ level.toList, U.isWord c = true
  level_solid : ∀ c ∈ level.toList, U.isSpace c = false ∧ isLineBreak c = false
  message_ne : message ≠ ""
  message_line : ∀ c ∈ message.toList, isLineBreak c = false
  message_head : ∀ c ∈ message.toList.head?, U.isSpace c = false
  message_last : ∀ c ∈ message.toList.getLast?, U.isSpace c = false

/-- What `nft` has against a place of the user's text, and the lines it prints below. -/
structure Complaint where
  offset : Nat
  columns : String
  level : String
  message : String
  context : List String
  printable : Printable columns level message
  context_lines : ∀ line ∈ context, ∀ c ∈ line.toList, isLineBreak c = false

/-- The name of a temporary file: absolute, on one line, without a colon. -/
structure TempPath where
  text : String
  absolute : text.toList.head? = some '/'
  chars : ∀ c ∈ text.toList, (c != ':') = true ∧ isLineBreak c = false

/-- The line of a place, counted from 1. -/
def lineOf (text : String) (offset : Nat) : Nat := (text.toList.take offset).count '\n' + 1

/-- Where the user's text begins in a file that ends with it. -/
def startOf (rules file : String) : Nat := file.toList.length - rules.toList.length

def Complaint.lineIn (c : Complaint) (rules file : String) : Nat := lineOf file (startOf rules file + c.offset)

def Complaint.heading (c : Complaint) (path : TempPath) (line : Nat) : String :=
  path.text ++ ":" ++ toString line ++ ":" ++ c.columns ++ ": " ++ c.level ++ ": " ++ c.message

/-- The lines printed for the file `file`. -/
def Complaint.printed (c : Complaint) (path : TempPath) (rules file : String) : List String :=
  c.heading path (c.lineIn rules file) :: c.context

def rejection (rules : String) (path : TempPath) (complaints : List Complaint) (file : String) : Completed :=
  { returncode := 1, stdout := "", stderr := String.ofList (unlines (complaints.flatMap (·.printed path rules file))) }

/-- The outside of an entry point: a temporary file, and `nft` that rejects it. -/
def rejecting (rules : String) (path : TempPath) (complaints : List Complaint) (file : String) :
    (a : Req) → Except PyExc (Reply a) × String
  | .tempFile content => (.ok path.text, content)
  | .run _ => (.ok (rejection rules path complaints file), file)
  | .unlink _ => (.ok (), "")
  | _ => (.error { cls := .otherError, text := "" }, file)

/-- What an entry point comes to there. -/
def outcome (rules : String) (path : TempPath) (complaints : List Complaint) (entry : Prog Unit) : Except PyExc Unit :=
  (Coroutine.handle (rejecting rules path complaints) entry "").1

/-- What is raised, when the output of `nft` comes to `r`. -/
def raised : Except PyExc (List NftError) → Except PyExc Unit
  | .ok errors => .error (ruleValidationError errors)
  | .error e => .error e

/-- Line, columns, level and message, with a line of the user's text. -/
def Complaint.spot (c : Complaint) (rules : String) : Int × String × String × String :=
  (lineOf rules c.offset, c.columns, c.level, c.message)

/-- Both entry points, each with its own temporary file, raise the errors of the ruleset, and at
    the same lines: those of the user's text. -/
def LinesAgree (rules : String) (path path' : TempPath) (complaints : List Complaint) (useNsenter : Bool)
    (netns : String) : Prop :=
  ∃ errors errors', outcome rules path complaints (validate rules) = .error (ruleValidationError errors) ∧
    outcome rules path' complaints (load useNsenter rules netns) = .error (ruleValidationError errors') ∧
    errors'.map NftError.spot = errors.map NftError.spot ∧
    List.Sublist (complaints.map (·.spot rules)) (errors.filterMap NftError.spot)

/-! ## The two entry points -/

variable {rules : String} {path path' : TempPath} {complaints : List Complaint}

/-- An entry point raises what is printed about its file. -/
theorem outcome_eq (file : String) (command : String → Cmd) :
    outcome rules path complaints (withTempRulesFile file fun path => do
      let result ← perform (.run (command path))
      checkResult result) = raised (parseNftErrors (rejection rules path complaints file).stderr) := by
  have htemp : ∀ body : String → Prog Unit, Coroutine.handle (rejecting rules path complaints)
      (withTempRulesFile file body) "" =
      Coroutine.handle (rejecting rules path complaints)
        ((body path.text).tryFinally (perform (.unlink path.text))) file := by
    intro body
    rw [withTempRulesFile, Coroutine.Co.bind_eq, Coroutine.handle_bind, perform, Coroutine.handle_request, rejecting,
      Coroutine.onValue_ok]
  have hrun : Coroutine.handle (rejecting rules path complaints)
      (perform (.run (command path.text)) >>= fun result => checkResult result) file =
        Coroutine.handle (rejecting rules path complaints)
          (checkResult (rejection rules path complaints file)) file := by
    rw [Coroutine.Co.bind_eq, Coroutine.handle_bind, perform, Coroutine.handle_request, rejecting, Coroutine.onValue_ok]
  have hcheck :
      Coroutine.handle (rejecting rules path complaints) (checkResult (rejection rules path complaints file)) file =
      (raised (parseNftErrors (rejection rules path complaints file).stderr), file) := by
    have hcode : (rejection rules path complaints file).returncode ≠ 0 := Int.one_ne_zero
    rw [checkResult, if_pos hcode]
    cases parseNftErrors (rejection rules path complaints file).stderr <;> rfl
  rw [outcome, htemp, Coroutine.handle_tryFinally, hrun, hcheck, perform, Coroutine.handle_request, rejecting,
    Coroutine.keeping_ok]

theorem step_error {errors : List NftError} {text : String} {e : PyExc} (h : parseNftLine errors text = .error e) :
    e.cls = .valueError := by
  unfold parseNftLine at h
  split at h
  · rename_i m _
    cases hn : intOf ((m.get "line").getD "") with
    | error e' =>
      rw [hn] at h
      cases h
      exact intOf_error hn
    | ok n =>
      rw [hn] at h
      cases h
  · split at h <;> cases h

theorem raised_iff {stderr : String} {errors : List NftError} :
    raised (parseNftErrors stderr) = .error (ruleValidationError errors) ↔ parseNftErrors stderr = .ok errors := by
  cases h : parseNftErrors stderr with
  | ok errors' =>
    constructor
    · intro heq
      exact congrArg Except.ok (congrArg PyExc.errors (Except.error.inj heq))
    · intro heq
      cases heq
      rfl
  | error e =>
    rw [parseNftErrors_eq] at h
    -- output that is not understood raises something else than a rejection
    have hcls : e.cls = .valueError := PyLoop.loop_raises step_error h
    constructor
    · intro heq
      rw [Except.error.inj heq] at hcls
      cases hcls
    · intro heq
      cases heq

theorem validate_raises_iff {errors : List NftError} :
    outcome rules path complaints (validate rules) = .error (ruleValidationError errors) ↔
      parseNftErrors (rejection rules path complaints rules).stderr = .ok errors := by
  rw [← raised_iff, validate, outcome_eq]

theorem load_raises_iff {errors : List NftError} {useNsenter : Bool} {netns : String} (hns : netns ≠ "") :
    outcome rules path complaints (load useNsenter rules netns) = .error (ruleValidationError errors) ↔
      parseNftErrors (rejection rules path complaints (fullRuleset rules)).stderr = .ok errors := by
  rw [← raised_iff, load, if_neg hns, outcome_eq]

/-! ## One complaint -/

variable {c : Complaint} {line : Nat}

/-- The heading, as a line of the form that starts an entry. -/
theorem heading_report (c : Complaint) (path : TempPath) (line : Nat) :
    ∃ r : Report, r.text = c.heading path line ∧ r.number = toString line ∧ r.columns = c.columns ∧ r.level = c.level ∧
      r.message = c.message := by
  refine ⟨{
    file := path.text, number := toString line, columns := c.columns, gap := " ", level := c.level, indent := " "
    message := c.message
    file_ne := ?_
    file_chars := fun d hd => (path.chars d hd).1
    number_ne := (word_toString line).nonempty
    number_chars := fun d hd => isDigit_ascii (digit_of_mem_toString hd)
    columns_ne := c.printable.columns_ne
    columns_chars := fun d hd => column_of_ascii (c.printable.columns_chars d hd)
    gap_chars := spaces_blank
    level_ne := c.printable.level_ne
    level_chars := c.printable.level_chars
    indent_chars := spaces_blank
    message_ne := c.printable.message_ne
    message_chars := ?_
    message_head := c.printable.message_head }, ?_, rfl, rfl, rfl, rfl⟩
  · intro hempty
    have := path.absolute
    rw [hempty] at this
    cases this
  · intro d hd
    by_contra hdot
    have hnl : d = '\n' := by simpa [TraceParser.dot] using hdot
    have hline := c.printable.message_line d hd
    rw [hnl] at hline
    exact absurd hline (by decide)
  · rw [← String.toList_inj, Report.text, Complaint.heading]
    simp only [String.toList_ofList, String.toList_append, List.append_assoc]
    rfl

theorem parse_heading (c : Complaint) (path : TempPath) (line : Nat) (errors : List NftError) :
    parseNftLine errors (c.heading path line) =
      (intOf (toString line)).map fun n => errors ++ [.located n c.columns c.level c.message []] := by
  obtain ⟨r, htext, hnumber, hcolumns, hlevel, hmessage⟩ := heading_report c path line
  have hparse := parseNftLine_fields r (by rw [hlevel]; exact fun d hd => (c.printable.level_solid d hd).1) errors
  rwa [htext, hnumber, hcolumns, hlevel, hmessage] at hparse

theorem toList_heading (c : Complaint) (path : TempPath) (line : Nat) : (c.heading path line).toList =
    path.text.toList ++ (":".toList ++ ((toString line).toList ++ (":".toList ++ (c.columns.toList ++ (": ".toList ++
      (c.level.toList ++ (": ".toList ++ c.message.toList))))))) := by
  unfold Complaint.heading
  simp only [String.toList_append, List.append_assoc]

theorem heading_head (c : Complaint) (path : TempPath) (line : Nat) :
    (c.heading path line).toList.head? = some '/' := by
  rw [toList_heading, List.head?_append, path.absolute, Option.some_or]

theorem strip_heading (c : Complaint) (path : TempPath) (line : Nat) :
    strip (c.heading path line) = c.heading path line := by
  have hslash : U.isSpace '/' = false := isSpace_char (by decide)
  refine strip_eq ?_ ?_
  · rw [heading_head]
    simpa using hslash
  · have hd := List.getLast?_eq_some_getLast (show c.message.toList ≠ [] by simpa using c.printable.message_ne)
    have hlast : (c.heading path line).toList.getLast? = c.message.toList.getLast? := by
      rw [toList_heading]
      simp only [List.getLast?_append, hd, Option.some_or]
    rw [hlast]
    exact c.printable.message_last

theorem heading_line (c : Complaint) (path : TempPath) (line : Nat) :
    ∀ d ∈ (c.heading path line).toList, isLineBreak d = false := by
  have hnumber : ∀ d ∈ (toString line).toList, isLineBreak d = false :=
    fun d hd => notBreak_of_digit (digit_of_mem_toString hd)
  have hcolumns : ∀ d ∈ c.columns.toList, isLineBreak d = false := by
    intro d hd
    rcases Bool.or_eq_true_iff.mp (c.printable.columns_chars d hd) with hdigit | hdash
    · exact notBreak_of_digit hdigit
    · rw [beq_iff_eq.mp hdash]
      decide
  have hplace : ∀ d ∈ (path.text ++ ":" ++ toString line ++ ":" ++ c.columns).toList, isLineBreak d = false :=
    noBreak_append (noBreak_append
      (noBreak_append (noBreak_append (fun d hd => (path.chars d hd).2) (noBreak_literal rfl)) hnumber)
      (noBreak_literal rfl)) hcolumns
  exact noBreak_append (noBreak_append (noBreak_append (noBreak_append hplace (noBreak_literal rfl))
    fun d hd => (c.printable.level_solid d hd).2) (noBreak_literal rfl)) c.printable.message_line

/-! ## All of them -/

/-- Entries are only added, and only context is added to one. -/
theorem prefix_step {errors errors' : List NftError} {text : String} (h : parseNftLine errors text = .ok errors') :
    errors.map NftError.spot <+: errors'.map NftError.spot := by
  unfold parseNftLine at h
  split at h
  · rename_i m _
    cases hn : intOf ((m.get "line").getD "") with
    | error e =>
      rw [hn] at h
      cases h
    | ok n =>
      rw [hn] at h
      cases h
      rw [List.map_append]
      exact List.prefix_append _ _
  · split at h
    · rename_i last hlast
      cases h
      have hspot : (addContext text last).spot = last.spot := by cases last <;> rfl
      have hsame : (errors.dropLast ++ [addContext text last]).map NftError.spot = errors.map NftError.spot := by
        rw [List.map_append, List.map_singleton, hspot, ← List.map_singleton, ← List.map_append,
          List.dropLast_append_getLast? last hlast]
      exact hsame ▸ List.prefix_refl _
    · rename_i hnone
      rw [List.getLast?_eq_none_iff.mp hnone]
      exact List.nil_prefix

theorem prefix_fold {lines : List String} {errors errors' : List NftError}
    (h : lines.foldlM parseNftLine errors = .ok errors') :
    errors.map NftError.spot <+: errors'.map NftError.spot :=
  PyLoop.loop_related (R := fun errors errors' => errors.map NftError.spot <+: errors'.map NftError.spot)
    (fun _ => List.prefix_refl _) List.IsPrefix.trans prefix_step h

/-- A heading, with its lines of context, adds its own entry first. -/
theorem heading_fold {lines : List String} {errors errors' : List NftError}
    (h : (c.heading path line :: lines).foldlM parseNftLine errors = .ok errors') :
    errors.map NftError.spot ++ [some (((line : Nat) : Int), c.columns, c.level, c.message)] <+:
      errors'.map NftError.spot := by
  obtain ⟨next, hfirst, hrest⟩ := PyLoop.loop_cons.mp h
  rw [parse_heading] at hfirst
  cases hn : intOf (toString line) with
  | error e =>
    rw [hn] at hfirst
    cases hfirst
  | ok n =>
    rw [hn] at hfirst
    cases hfirst
    have := prefix_fold hrest
    rwa [List.map_append, intOf_printed hn] at this

theorem parse_rejection (file : String) : parseNftErrors (rejection rules path complaints file).stderr =
    (complaints.flatMap fun c =>
      c.heading path (c.lineIn rules file) :: (c.context.map strip).filter (· ≠ "")).foldlM parseNftLine [] := by
  have hlines : splitlines (rejection rules path complaints file).stderr =
      complaints.flatMap (·.printed path rules file) := by
    refine splitlines_unlines fun text htext => ?_
    obtain ⟨c, -, hc⟩ := List.mem_flatMap.mp htext
    rcases List.mem_cons.mp hc with rfl | hc
    · exact heading_line c path _
    · exact c.context_lines text hc
  rw [parseNftErrors_eq, reportLines, hlines, List.map_flatMap, List.filter_flatMap]
  have hentry : ∀ c : Complaint, ((c.printed path rules file).map strip).filter (· ≠ "") =
      c.heading path (c.lineIn rules file) :: (c.context.map strip).filter (· ≠ "") := by
    intro c
    have hne : c.heading path (c.lineIn rules file) ≠ "" := fun hempty => by
      have hhead := heading_head c path (c.lineIn rules file)
      rw [hempty] at hhead
      cases hhead
    rw [Complaint.printed, List.map_cons, strip_heading, List.filter_cons_of_pos (by simpa using hne)]
  simp only [hentry]

/-- Line, columns, level and message, as printed for the file `file`. -/
def Complaint.spotIn (c : Complaint) (rules file : String) : Int × String × String × String :=
  (c.lineIn rules file, c.columns, c.level, c.message)

/-- Whatever the context says, every complaint has an entry, and they come in order. -/
theorem spots_of_fold {file : String} {more : Complaint → List String} :
    ∀ {complaints : List Complaint} {errors errors' : List NftError},
    (complaints.flatMap fun c => c.heading path (c.lineIn rules file) :: more c).foldlM parseNftLine errors =
      .ok errors' →
      List.Sublist (errors.filterMap NftError.spot ++ complaints.map (·.spotIn rules file))
        (errors'.filterMap NftError.spot)
  | [], errors, errors', h => by
    cases h
    rw [List.map_nil, List.append_nil]
  | c :: complaints, errors, errors', h => by
    rw [List.flatMap_cons] at h
    obtain ⟨next, hfirst, hmore⟩ := PyLoop.loop_append.mp h
    have hrest := spots_of_fold hmore
    have hnext :
        List.Sublist (errors.filterMap NftError.spot ++ [c.spotIn rules file]) (next.filterMap NftError.spot) := by
      have := (heading_fold hfirst).sublist.filterMap id
      rwa [List.filterMap_append, List.filterMap_map, List.filterMap_map, Function.id_comp] at this
    rw [List.map_cons, List.append_cons]
    exact (hnext.append (List.Sublist.refl _)).trans hrest

/-- What is raised names every complaint at its line in the file. -/
theorem spots_of_rejection {file : String} {errors : List NftError}
    (h : parseNftErrors (rejection rules path complaints file).stderr = .ok errors) :
    List.Sublist (complaints.map (·.spotIn rules file)) (errors.filterMap NftError.spot) := by
  rw [parse_rejection] at h
  exact spots_of_fold h

theorem lineIn_rules (c : Complaint) (rules : String) : c.lineIn rules rules = lineOf rules c.offset := by
  rw [Complaint.lineIn, startOf, Nat.sub_self, Nat.zero_add]

/-- The file of `load` has eight lines before the user's text. -/
theorem lineIn_fullRuleset (c : Complaint) (rules : String) :
    c.lineIn rules (fullRuleset rules) = lineOf rules c.offset + 8 := by
  have hchars : (fullRuleset rules).toList = (traceInitRuleset ++ "\n").toList ++ rules.toList := String.toList_append
  have hbreaks : (traceInitRuleset ++ "\n").toList.count '\n' = 8 := by decide +kernel
  rw [Complaint.lineIn, startOf, lineOf, lineOf, hchars, List.length_append, Nat.add_sub_cancel,
    List.take_length_add_append,
    List.count_append, hbreaks]
  omega

/-- The errors that `validate` raises name the lines of the user's text. -/
theorem validate_names_the_line {errors : List NftError}
    (h : outcome rules path complaints (validate rules) = .error (ruleValidationError errors)) :
    List.Sublist (complaints.map (·.spot rules)) (errors.filterMap NftError.spot) := by
  have hspots := spots_of_rejection (validate_raises_iff.mp h)
  simp only [Complaint.spotIn, lineIn_rules] at hspots
  exact hspots

/-- Those that `load` raises name lines eight further down. -/
theorem load_is_eight_lines_off {errors : List NftError} {useNsenter : Bool} {netns : String} (hns : netns ≠ "")
    (h : outcome rules path complaints (load useNsenter rules netns) = .error (ruleValidationError errors)) :
    List.Sublist (complaints.map fun c => (((lineOf rules c.offset + 8 : Nat) : Int), c.columns, c.level, c.message))
      (errors.filterMap NftError.spot) := by
  have hspots := spots_of_rejection ((load_raises_iff hns).mp h)
  simp only [Complaint.spotIn, lineIn_fullRuleset] at hspots
  exact hspots

/-- The first entry is that of the first complaint. -/
theorem first_spot {c : Complaint} {cs : List Complaint} {file : String} {errors : List NftError}
    (h : parseNftErrors (rejection rules path (c :: cs) file).stderr = .ok errors) :
    (errors.map NftError.spot).head? = some (some (c.spotIn rules file)) := by
  rw [parse_rejection, List.flatMap_cons, List.cons_append] at h
  obtain ⟨rest, hrest⟩ := heading_fold h
  rw [← hrest]
  rfl

/-- A ruleset with an error: the line of the first one differs. -/
theorem lines_differ {c : Complaint} {cs : List Complaint} {useNsenter : Bool} {netns : String} (hns : netns ≠ "") :
    ¬LinesAgree rules path path' (c :: cs) useNsenter netns := by
  rintro ⟨errors, errors', hvalidate, hload, hsame, -⟩
  have hfirst := first_spot (validate_raises_iff.mp hvalidate)
  have hfirst' := first_spot ((load_raises_iff hns).mp hload)
  rw [hsame, hfirst] at hfirst'
  have hline : (c.lineIn rules rules : Int) = c.lineIn rules (fullRuleset rules) :=
    congrArg Prod.fst (Option.some.inj (Option.some.inj hfirst'))
  rw [lineIn_rules, lineIn_fullRuleset] at hline
  omega

/-- The entry points name the same lines exactly where `nft` rejects the ruleset without an error. -/
theorem lines_agree_iff (rules : String) (path path' : TempPath) (complaints : List Complaint) (useNsenter : Bool)
    (netns : String) (hns : netns ≠ "") : LinesAgree rules path path' complaints useNsenter netns ↔
      complaints = [] := by
  constructor
  · intro h
    cases complaints with
    | nil => rfl
    | cons c cs => exact absurd h (lines_differ hns)
  · rintro rfl
    have hnone : ∀ path file, parseNftErrors (rejection rules path [] file).stderr = .ok [] := fun _ _ => rfl
    exact ⟨[], [], validate_raises_iff.mpr (hnone _ _), (load_raises_iff hns).mpr (hnone _ _), rfl, .slnil⟩

end RuleEngine

/-! ## A rule that is none -/

namespace RuleEngine

open PyStr

attribute [local instance] PyStr.Unicode.ascii

def bogusRules : String := "add table inet t\nadd rule inet t c bogus\n"

/-- A temporary file of `validate`, and one of `load`. -/
def bogusPath : TempPath where
  text := "/tmp/nse_rules_x.nft"
  absolute := by decide
  chars := by
    have hall : "/tmp/nse_rules_x.nft".toList.all (fun c => c != ':' && !isLineBreak c) = true := by decide
    simpa using List.all_eq_true.mp hall

def otherPath : TempPath where
  text := "/tmp/nse_rules_longer.nft"
  absolute := by decide
  chars := by
    have hall : "/tmp/nse_rules_longer.nft".toList.all (fun c => c != ':' && !isLineBreak c) = true := by decide
    simpa using List.all_eq_true.mp hall

theorem bogus_printable : Printable "19-23" "Error" "syntax error, unexpected string" where
  columns_ne := by decide
  columns_chars := List.all_eq_true.mp (by decide)
  level_ne := by decide
  level_chars := List.all_eq_true.mp (by decide)
  level_solid := by
    intro c hc
    have hall : "Error".toList.all (fun c => !asciiSpace c && !isLineBreak c) = true := by decide
    have hchar := List.all_eq_true.mp hall c hc
    rw [Bool.and_eq_true, Bool.not_eq_true', Bool.not_eq_true'] at hchar
    exact hchar
  message_ne := by decide
  message_line := noBreak_literal rfl
  message_head c hc := by
    cases hc
    decide
  message_last c hc := by
    cases hc
    decide

/-- The last word of the second line. -/
def bogusRule : Complaint where
  offset := 35
  columns := "19-23"
  level := "Error"
  message := "syntax error, unexpected string"
  context := ["add rule inet t c bogus", "                  ^^^^^"]
  printable := bogus_printable
  context_lines := by
    intro line hline
    rcases List.mem_cons.mp hline with rfl | hline
    · exact noBreak_literal rfl
    · rw [List.mem_singleton.mp hline]
      exact noBreak_literal rfl

/-- What `nft` says of the rule, wherever it stands. -/
def bogusError (line : Nat) : NftError :=
  .located line "19-23" "Error" "syntax error, unexpected string" ["add rule inet t c bogus", "^^^^^"]

theorem parse_bogus {path : TempPath} {file : String} {line : Nat} (hline : bogusRule.lineIn bogusRules file = line)
    (hlimit : withinLimit (digitCount (toString line)) = true) :
    parseNftErrors (rejection bogusRules path [bogusRule] file).stderr = .ok [bogusError line] := by
  have hcontext : (bogusRule.context.map strip).filter (· ≠ "") = ["add rule inet t c bogus", "^^^^^"] := by
    decide +kernel
  have hrule : nftErrorRe.match "add rule inet t c bogus" = none := by decide +kernel
  have hcarets : nftErrorRe.match "^^^^^" = none := by decide +kernel
  rw [parse_rejection, List.flatMap_singleton, hcontext, hline, List.foldlM_cons, parse_heading, intOf_toString hlimit]
  show List.foldlM parseNftLine [.located line "19-23" "Error" "syntax error, unexpected string" []]
    ["add rule inet t c bogus", "^^^^^"] = _
  rw [List.foldlM_cons, ← List.nil_append [_], parseNftLine_context hrule]
  show List.foldlM parseNftLine [.located line "19-23" "Error" "syntax error, unexpected string"
    ["add rule inet t c bogus"]]
    ["^^^^^"] = _
  rw [List.foldlM_cons, ← List.nil_append [_], parseNftLine_context hcarets]
  rfl

theorem an_error_on_line_two_is_reported_on_line_ten :
    outcome bogusRules bogusPath [bogusRule] (validate bogusRules) = .error (ruleValidationError [bogusError 2]) ∧
      outcome bogusRules otherPath [bogusRule] (load false bogusRules "nse_a") =
        .error (ruleValidationError [bogusError 10]) ∧
      ¬LinesAgree bogusRules bogusPath otherPath [bogusRule] false "nse_a" := by
  have hline : lineOf bogusRules bogusRule.offset = 2 := by decide +kernel
  refine ⟨validate_raises_iff.mpr (parse_bogus ?_ (by decide)),
    (load_raises_iff (by decide)).mpr (parse_bogus ?_ (by decide)), lines_differ (by decide)⟩
  · rw [lineIn_rules, hline]
  · rw [lineIn_fullRuleset, hline]

theorem lines_agree_iff_bogus :
    "nse_a" ≠ "" ∧ (LinesAgree bogusRules bogusPath otherPath [bogusRule] false "nse_a" ↔ [bogusRule] = []) :=
  ⟨by decide, lines_agree_iff bogusRules bogusPath otherPath [bogusRule] false "nse_a" (by decide)⟩

end RuleEngine

end Nse
