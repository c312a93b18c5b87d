/-
  Nse.Core.NftErrors — what is kept of the lines `nft` writes when it rejects a ruleset.

  The output is cut into lines, and each is stripped. A line of the form
  `file:line:columns: level: message` starts an entry; any other line is context of the
  entry before it, or a raw entry when it is the first.

  - `represents_fold`: one line after the other, the entries stand for the lines read so far.
  - `nft_errors_kept_iff`: the output is kept whole, exactly when the line number of every
    located line is written in ASCII digits, no more of them than `int` reads. A number in
    other digits is kept as a number only, and one that is too long raises `ValueError`:
    `a_line_number_too_long_is_raised`.
-/

import Nse.Core.RuleEngine
import Nse.Lib.PyFields
import Nse.Lib.PyLoop
import Mathlib.Data.List.Forall2

namespace Nse

def NftError.isRaw : NftError → Bool
  | .located .. => false
  | .raw .. => true

namespace RuleEngine

open Backtrack PyStr

variable [U : PyStr.Unicode]

/-- A line of the form `file:line:columns: level: message`. -/
structure Report where
  file : String
  number : String
  columns : String
  gap : String
  level : String
  indent : String
  message : String
  file_ne : file ≠ ""
  file_chars : ∀ c ∈ file.toList, (c != ':') = true
  number_ne : number ≠ ""
  number_chars : ∀ c ∈ number.toList, isDigit c = true
  columns_ne : columns ≠ ""
  columns_chars : ∀ c ∈ columns.toList, (isDigit c || c == '-') = true
  gap_chars : ∀ c ∈ gap.toList, U.isSpace c = true
  level_ne : level ≠ ""
  level_chars : ∀ c ∈ level.toList, U.isWord c = true
  indent_chars : ∀ c ∈ indent.toList, U.isSpace c = true
  message_ne : message ≠ ""
  message_chars : ∀ c ∈ message.toList, TraceParser.dot c = true
  message_head : ∀ c ∈ message.toList.head?, U.isSpace c = false

def Report.text (r : Report) : String :=
  String.ofList (r.file.toList ++ ':' :: (r.number.toList ++ ':' :: (r.columns.toList ++ ':' ::
    (r.gap.toList ++ (r.level.toList ++ ':' :: (r.indent.toList ++ r.message.toList))))))

/-- A line that starts an entry. -/
def Located (line : String) : Prop := ∃ r : Report, r.text = line

/-- The lines of the output, stripped, without the blank ones. -/
def reportLines (stderr : String) : List String := ((splitlines stderr).map strip).filter (· ≠ "")

/-- An entry and its lines: the fields of the first, up to the file, leading zeros of the
    number and the spaces after colons; then its context. -/
inductive StandsFor : NftError → List String → Prop
  | located {r : Report} {n zeros : Nat} {context : List String}
      (number : r.number.toList = List.replicate zeros '0' ++ (toString n).toList)
        (rest : ∀ line ∈ context, ¬Located line) :
      StandsFor (.located n r.columns r.level r.message context) (r.text :: context)
  | raw {line : String} {context : List String} (first : ¬Located line) (rest : ∀ line ∈ context, ¬Located line) :
      StandsFor (.raw line context) (line :: context)

/-- Each line once and in order, and no raw entry but the first. -/
def Represents (errors : List NftError) (lines : List String) : Prop :=
  (∃ blocks, List.Forall₂ StandsFor errors blocks ∧ blocks.flatten = lines) ∧ ∀ e ∈ errors.tail, e.isRaw = false

/-- Nothing but spaces and line ends. -/
def Blank (stderr : String) : Prop := ∀ c ∈ stderr.toList, U.isSpace c = true ∨ isLineBreak c = true

/-- No line of the output is lost. -/
def Kept (stderr : String) : Prop :=
  ∃ errors, parseNftErrors stderr = .ok errors ∧ Represents errors (reportLines stderr) ∧ (errors = [] → Blank stderr)

/-! ## The pattern -/

theorem isDigit_colon : isDigit ':' = false := isDigit_char (by decide)

theorem column_colon : (isDigit ':' || ':' == '-') = false := by
  rw [isDigit_colon]
  decide

theorem column_of_ascii {c : Char} (h : (c.isDigit || c == '-') = true) : (isDigit c || c == '-') = true := by
  rcases Bool.or_eq_true_iff.mp h with hdigit | hdash
  · rw [isDigit_ascii hdigit, Bool.true_or]
  · rw [hdash, Bool.or_true]

theorem isWord_colon : U.isWord ':' = false := isWord_char (by decide)

/-- From the second gap on. -/
def messageRe : Re := .seq (.many U.isSpace) (.seq (.group "msg" (Re.plus TraceParser.dot)) .atEnd)

/-- From the first gap on. -/
def levelRe : Re := .seq (.many U.isSpace) (.seq (.group "level" (Re.plus U.isWord)) (.seq (.lit ":") messageRe))

/-- What the fields before it record. -/
def fieldGroups (file number columns : List Char) : Groups := [("col_range", columns), ("line", number), ("file", file)]

theorem nftErrorRe_eq : nftErrorRe =
    .seq (.group "file" (Re.plus (· != ':'))) (.seq (.lit ":") (.seq (.group "line" (Re.plus isDigit)) (.seq (.lit ":")
      (.seq (.group "col_range" (Re.plus fun c => isDigit c || c == '-')) (.seq (.lit ":") levelRe))))) := rfl

omit U in
/-- The rest of the line is the message. -/
theorem message_run {xs : List Char} {prev : Option Char} {g : Groups} (hne : xs ≠ [])
    (hx : ∀ c ∈ xs, TraceParser.dot c = true) :
    (Re.seq (.group "msg" (Re.plus TraceParser.dot)) .atEnd).run ⟨prev, xs, g⟩ (fun a => some a.groups) =
      some (("msg", xs) :: g) := by
  have hrun := run_plus_longest (p := TraceParser.dot) (g := g) (t := []) (v := ("msg", xs) :: g)
    (k := fun b => Re.atEnd.run (At.record "msg" ⟨prev, xs ++ [], g⟩ b) fun a => some a.groups)
    (stops_nil _) hne hx prev (by rw [record_append]; rfl)
  rw [List.append_nil] at hrun
  exact hrun

/-- The fields up to the columns end at colons, in one way. -/
theorem match_text (r : Report) : nftErrorRe.match r.text =
    levelRe.run ⟨some ':', r.gap.toList ++ (r.level.toList ++ ':' :: (r.indent.toList ++ r.message.toList)),
      fieldGroups r.file.toList r.number.toList r.columns.toList⟩ fun a => some a.groups := by
  unfold Re.match
  rw [nftErrorRe_eq, Report.text, String.toList_ofList]
  refine (run_field (show ":".toList = [':'] from rfl) (by decide) (by simpa using r.file_ne) r.file_chars).trans ?_
  refine (run_field (show ":".toList = [':'] from rfl) isDigit_colon
    (by simpa using r.number_ne) r.number_chars).trans ?_
  exact run_field (show ":".toList = [':'] from rfl) column_colon (by simpa using r.columns_ne) r.columns_chars

/-- A line of the form matches. -/
theorem match_report (r : Report) : (nftErrorRe.match r.text).isSome := by
  rw [match_text]
  refine greedy_isSome r.gap.toList _ r.gap_chars ?_
  refine (congrArg Option.isSome (run_field (show ":".toList = [':'] from rfl) isWord_colon
    (by simpa using r.level_ne) r.level_chars)).trans ?_
  refine greedy_isSome r.indent.toList _ r.indent_chars ?_
  rw [message_run (by simpa using r.message_ne) r.message_chars]
  rfl

/-- Where the level holds no space, the groups are the fields. -/
theorem match_fields (r : Report) (hsolid : ∀ c ∈ r.level.toList, U.isSpace c = false) : nftErrorRe.match r.text =
    some (("msg", r.message.toList) :: ("level", r.level.toList) ::
      fieldGroups r.file.toList r.number.toList r.columns.toList) := by
  have hlevel : r.level.toList ≠ [] := by simpa using r.level_ne
  have hstop : Stops U.isSpace (r.level.toList ++ ':' :: (r.indent.toList ++ r.message.toList)) := by
    intro c hc
    rw [List.head?_append_of_ne_nil _ hlevel] at hc
    exact hsolid c (List.mem_of_mem_head? hc)
  rw [match_text]
  refine greedy_longest hstop r.gap.toList _ r.gap_chars ?_
  refine (run_field (show ":".toList = [':'] from rfl) isWord_colon hlevel r.level_chars).trans ?_
  exact greedy_longest r.message_head r.indent.toList _ r.indent_chars
    (message_run (by simpa using r.message_ne) r.message_chars)

/-- On a line that ends in no space, the message is all that follows the second gap. -/
theorem messageRe_some {cs : List Char} {prev : Option Char} {g m : Groups} (hline : '\n' ∉ cs)
    (hlast : ∀ c ∈ cs.getLast?, U.isSpace c = false)
    (h : messageRe.run ⟨prev, cs, g⟩ (fun a => some a.groups) = some m) :
    ∃ indent message, cs = indent ++ message ∧ (∀ c ∈ indent, U.isSpace c = true) ∧ message ≠ [] ∧
      (∀ c ∈ message, TraceParser.dot c = true) ∧ (∀ c ∈ message.head?, U.isSpace c = false) ∧
        m = ("msg", message) :: g := by
  have hsplit : cs.takeWhile U.isSpace ++ cs.dropWhile U.isSpace = cs := List.takeWhile_append_dropWhile
  have hne : cs.dropWhile U.isSpace ≠ [] := by
    obtain ⟨xs, t, rfl, -, h⟩ := greedy_some h
    obtain ⟨ys, t, hys, rfl, -, -⟩ := run_plus_some h
    have hcs : xs ++ (ys ++ t) ≠ [] := by simp [hys]
    intro hnil
    have hspace := List.dropWhile_eq_nil_iff.mp hnil _ (List.getLast_mem hcs)
    rw [hlast _ (List.getLast?_eq_some_getLast hcs)] at hspace
    cases hspace
  have hdot : ∀ c ∈ cs.dropWhile U.isSpace, TraceParser.dot c = true := by
    intro c hc
    refine bne_iff_ne.mpr ?_
    rintro rfl
    exact hline ((List.dropWhile_sublist _).subset hc)
  have hhead : ∀ c ∈ (cs.dropWhile U.isSpace).head?, U.isSpace c = false := by
    intro c hc
    have := List.head?_dropWhile_not U.isSpace cs
    rw [Option.mem_def.mp hc] at this
    simpa using this
  refine ⟨_, _, hsplit.symm, isSpace_takeWhile, hne, hdot, hhead, ?_⟩
  -- the gap takes every space, so no shorter one is tried
  have hlongest : messageRe.run ⟨prev, cs.takeWhile U.isSpace ++ cs.dropWhile U.isSpace, g⟩ (fun a => some a.groups) =
      some (("msg", cs.dropWhile U.isSpace) :: g) :=
    greedy_longest (k := fun b => (Re.seq (.group "msg" (Re.plus TraceParser.dot)) .atEnd).run b
      fun a => some a.groups) hhead
      (cs.takeWhile U.isSpace) prev isSpace_takeWhile (message_run hne hdot)
  rw [hsplit] at hlongest
  exact Option.some.inj (h.symm.trans hlongest)

/-- A line that matches is of the form, and the groups are its fields. -/
theorem report_of_match {line : String} {m : Groups} (hline : '\n' ∉ line.toList)
    (hlast : ∀ c ∈ line.toList.getLast?, U.isSpace c = false) (h : nftErrorRe.match line = some m) :
    ∃ r : Report, r.text = line ∧ m.get "line" = some r.number ∧ m.get "col_range" = some r.columns ∧
      m.get "level" = some r.level ∧ m.get "msg" = some r.message := by
  unfold Re.match at h
  rw [nftErrorRe_eq] at h
  obtain ⟨file, t, hfile, hcs, hfileChars, h⟩ := field_some h
  obtain ⟨number, t, hnumber, rfl, hnumberChars, h⟩ := field_some h
  obtain ⟨columns, t, hcolumns, rfl, hcolumnsChars, h⟩ := field_some h
  obtain ⟨gap, t, rfl, hgap, h⟩ := greedy_some h
  obtain ⟨level, t, hlevel, rfl, hlevelChars, h⟩ := field_some h
  have hlastTail : ∀ c ∈ t.getLast?, U.isSpace c = false := by
    intro c hc
    refine hlast c ?_
    rw [hcs]
    simp [List.getLast?_append, List.getLast?_cons, Option.mem_def.mp hc]
  obtain ⟨indent, message, rfl, hindent, hmessage, hdot, hhead, rfl⟩ :=
    messageRe_some (fun hmem => hline (by rw [hcs]; simp [hmem])) hlastTail h
  refine ⟨{
      file := String.ofList file
      number := String.ofList number
      columns := String.ofList columns
      gap := String.ofList gap
      level := String.ofList level
      indent := String.ofList indent
      message := String.ofList message
      file_ne := by simpa using hfile
      file_chars := by simpa using hfileChars
      number_ne := by simpa using hnumber
      number_chars := by simpa using hnumberChars
      columns_ne := by simpa using hcolumns
      columns_chars := by simpa using hcolumnsChars
      gap_chars := by simpa using hgap
      level_ne := by simpa using hlevel
      level_chars := by simpa using hlevelChars
      indent_chars := by simpa using hindent
      message_ne := by simpa using hmessage
      message_chars := by simpa using hdot
      message_head := by simpa using hhead }, ?_, rfl, rfl, rfl, rfl⟩
  rw [← String.toList_inj, Report.text, hcs]
  simp

/-- The file and the number are what stands before the first two colons. -/
theorem splitOn_text (r : Report) : ∃ rest, splitOn ':' r.text = r.file :: r.number :: rest := by
  have hfile : ':' ∉ r.file.toList := fun hmem => bne_iff_ne.mp (r.file_chars ':' hmem) rfl
  have hnumber : ':' ∉ r.number.toList := by
    intro hmem
    have := r.number_chars ':' hmem
    rw [isDigit_colon] at this
    cases this
  obtain ⟨rest, hrest⟩ : ∃ rest, r.text = String.ofList (r.file.toList ++ ':' :: (r.number.toList ++ ':' :: rest)) :=
    ⟨_, rfl⟩
  refine ⟨splitOn ':' (String.ofList rest), ?_⟩
  rw [hrest, splitOn_first (u := String.ofList (r.number.toList ++ ':' :: rest)) hfile (by simp),
    splitOn_first (u := String.ofList rest) hnumber (by simp)]

theorem Report.number_eq {r r' : Report} (h : r.text = r'.text) : r.number = r'.number := by
  obtain ⟨rest, hr⟩ := splitOn_text r
  obtain ⟨rest', hr'⟩ := splitOn_text r'
  rw [h, hr'] at hr
  exact (List.cons.inj (List.cons.inj hr).2).1.symm

/-! ## One line -/

/-- One line, with no space at its end. -/
structure Stripped (line : String) : Prop where
  one : '\n' ∉ line.toList
  last : ∀ c ∈ line.toList.getLast?, U.isSpace c = false

/-- Its number is written in digits that `int` reads and `str` gives back. -/
structure Report.Plain (r : Report) : Prop where
  ascii : ∀ c ∈ r.number.toList, c.isDigit = true
  limit : withinLimit (digitCount r.number) = true

theorem parseNftLine_located {line : String} (hs : Stripped line) (h : Located line) :
    ∃ r : Report, r.text = line ∧
      ∀ errors, parseNftLine errors line = (intOf r.number).map fun n => errors ++
        [.located n r.columns r.level r.message []] := by
  obtain ⟨r, rfl⟩ := h
  obtain ⟨m, hm⟩ := Option.isSome_iff_exists.mp (match_report r)
  obtain ⟨r', htext, hline, hcol, hlevel, hmsg⟩ := report_of_match hs.one hs.last hm
  refine ⟨r', htext, fun errors => ?_⟩
  unfold parseNftLine
  simp only [hm, hline, hcol, hlevel, hmsg, Option.getD_some]

/-- Where the level holds no space, the fields are those of the entry. -/
theorem parseNftLine_fields (r : Report) (hsolid : ∀ c ∈ r.level.toList, U.isSpace c = false) (errors : List NftError) :
    parseNftLine errors r.text = (intOf r.number).map fun n => errors ++
      [.located n r.columns r.level r.message []] := by
  have hget : ∀ {g : Groups} (x : String) {s : String}, g.get x = some (String.ofList s.toList) →
      (g.get x).getD "" = s := by
    intro g x s h
    rw [h, Option.getD_some, String.ofList_toList]
  unfold parseNftLine
  rw [match_fields r hsolid]
  dsimp only
  rw [hget "line" (s := r.number) rfl, hget "col_range" (s := r.columns) rfl, hget "level" (s := r.level) rfl,
    hget "msg" (s := r.message) rfl]

theorem parseNftLine_context {line : String} (h : nftErrorRe.match line = none)
    (errors : List NftError) (last : NftError) :
    parseNftLine (errors ++ [last]) line = .ok (errors ++ [addContext line last]) := by
  simp only [parseNftLine, h, List.getLast?_concat, List.dropLast_concat]

theorem parseNftLine_first {line : String} (h : nftErrorRe.match line = none) :
    parseNftLine [] line = .ok [.raw line []] := by
  simp only [parseNftLine, h, List.getLast?_nil]

theorem unmatched_of_not_located {line : String} (hs : Stripped line) (h : ¬Located line) :
    nftErrorRe.match line = none := by
  cases hm : nftErrorRe.match line with
  | none => rfl
  | some m =>
    obtain ⟨r, htext, -⟩ := report_of_match hs.one hs.last hm
    exact absurd ⟨r, htext⟩ h

theorem StandsFor.addContext {e : NftError} {lines : List String} {line : String} (h : StandsFor e lines)
    (hline : ¬Located line) :
    StandsFor (addContext line e) (lines ++ [line]) := by
  have hrest : ∀ {context : List String}, (∀ l ∈ context, ¬Located l) → ∀ l ∈ context ++ [line], ¬Located l := by
    intro context hcontext l hl
    rcases List.mem_append.mp hl with hl | hl
    · exact hcontext l hl
    · exact List.mem_singleton.mp hl ▸ hline
  cases h with
  | located number rest => exact .located number (hrest rest)
  | raw first rest => exact .raw first (hrest rest)

omit U in
theorem isRaw_addContext (line : String) (e : NftError) : (addContext line e).isRaw = e.isRaw := by
  cases e <;> rfl

/-- A number in plain digits is read, and given back up to leading zeros. -/
theorem Report.Plain.read {r : Report} (h : r.Plain) :
    ∃ n zeros : Nat, intOf r.number = .ok (n : Int) ∧ r.number.toList = List.replicate zeros '0' ++
      (toString n).toList := by
  have hne : r.number.toList ≠ [] := by simpa using r.number_ne
  obtain ⟨zeros, hzeros⟩ := digits_eq hne h.ascii
  refine ⟨_, zeros, intOf_eq (int_digits hne h.ascii) h.limit, ?_⟩
  rwa [toList_toString]

/-! ## The fold -/

omit U in
theorem mem_tail_concat {e x : NftError} {errors : List NftError} (h : e ∈ (errors ++ [x]).tail) :
    e ∈ errors.tail ∨ e = x ∧ errors ≠ [] := by
  cases errors with
  | nil => simp at h
  | cons y ys => simpa using h

theorem represents_nil : Represents [] [] := ⟨⟨[], .nil, rfl⟩, by simp⟩

/-- A located line starts an entry. -/
theorem represents_located {errors : List NftError} {done : List String} {r : Report} {n zeros : Nat}
    (h : Represents errors done) (hn : r.number.toList = List.replicate zeros '0' ++ (toString n).toList) :
    Represents (errors ++ [.located n r.columns r.level r.message []]) (done ++ [r.text]) := by
  obtain ⟨⟨blocks, hblocks, rfl⟩, htail⟩ := h
  refine ⟨⟨blocks ++ [[r.text]], ?_, by simp⟩, fun e he => ?_⟩
  · exact List.rel_append hblocks (.cons (.located hn (by simp)) .nil)
  · rcases mem_tail_concat he with he | ⟨rfl, -⟩
    · exact htail e he
    · rfl

/-- Any other line goes to the entry before it, or is the first. -/
theorem represents_other {errors : List NftError} {done : List String} {line : String} (hs : Stripped line)
    (hline : ¬Located line) (h : Represents errors done) :
    ∃ errors', parseNftLine errors line = .ok errors' ∧ Represents errors' (done ++ [line]) := by
  have hmatch := unmatched_of_not_located hs hline
  obtain ⟨⟨blocks, hblocks, rfl⟩, htail⟩ := h
  rcases List.eq_nil_or_concat' errors with rfl | ⟨es, last, rfl⟩
  · cases hblocks
    exact ⟨_, parseNftLine_first hmatch, ⟨[[line]], .cons (.raw hline (by simp)) .nil, rfl⟩, by simp⟩
  · rcases List.eq_nil_or_concat' blocks with rfl | ⟨bs, block, rfl⟩
    · cases es <;> cases hblocks
    have hlength : es.length = bs.length := by simpa using hblocks.length_eq
    have hes := List.forall₂_take_append _ _ _ hblocks
    have hlast := List.forall₂_drop_append _ _ _ hblocks
    rw [List.take_left' hlength] at hes
    rw [List.drop_left' hlength] at hlast
    refine ⟨_, parseNftLine_context hmatch es last, ⟨⟨bs ++ [block ++ [line]], ?_, by simp⟩, fun e he => ?_⟩⟩
    · obtain ⟨hblock, -⟩ := List.forall₂_cons.mp hlast
      exact List.rel_append hes (.cons (hblock.addContext hline) .nil)
    · rcases mem_tail_concat he with he | ⟨rfl, hne⟩
      · exact htail e (by cases es <;> simp_all)
      · rw [isRaw_addContext]
        exact htail last (by cases es <;> simp_all)

/-- The line after them too. -/
theorem represents_step {errors : List NftError} {done : List String} {line : String} (hs : Stripped line)
    (hplain : ∀ r : Report, r.text = line → r.Plain) (h : Represents errors done) :
    ∃ errors', parseNftLine errors line = .ok errors' ∧ Represents errors' (done ++ [line]) := by
  by_cases hline : Located line
  · obtain ⟨r, rfl, hparse⟩ := parseNftLine_located hs hline
    obtain ⟨n, zeros, hn, hdigits⟩ := (hplain r rfl).read
    refine ⟨_, ?_, represents_located h hdigits⟩
    rw [hparse, hn]
    rfl
  · exact represents_other hs hline h

/-- One line after the other, the entries stand for the lines read so far. -/
theorem represents_fold {lines : List String} (hs : ∀ line ∈ lines, Stripped line)
    (hplain : ∀ r : Report, r.text ∈ lines → r.Plain) :
    ∃ errors, lines.foldlM parseNftLine [] = .ok errors ∧ Represents errors lines := by
  refine PyLoop.loop_total (P := fun done errors => Represents errors done) ?_ represents_nil
  intro line hline done errors h
  exact represents_step (hs line hline) (fun r hr => hplain r (hr ▸ hline)) h

theorem parseNftLines_eq : ∀ (errors : List NftError) (raws : List String),
    parseNftLines errors raws = ((raws.map strip).filter (· ≠ "")).foldlM parseNftLine errors
  | errors, [] => rfl
  | errors, raw :: raws => by
    by_cases hraw : strip raw = ""
    · simp [parseNftLines, hraw, parseNftLines_eq errors raws]
    · simp only [parseNftLines, hraw, if_false, List.map_cons, ne_eq, not_false_eq_true, decide_true,
        List.filter_cons_of_pos,
        List.foldlM_cons]
      exact congrArg _ (funext fun errors => parseNftLines_eq errors raws)

theorem parseNftErrors_eq (stderr : String) : parseNftErrors stderr = (reportLines stderr).foldlM parseNftLine [] :=
  parseNftLines_eq [] (splitlines stderr)

/-- Where all the lines are read, no number is too long. -/
theorem limit_of_fold {lines : List String} {errors errors' : List NftError} (hs : ∀ line ∈ lines, Stripped line)
    (hfold : lines.foldlM parseNftLine errors = .ok errors') {r : Report} (hr : r.text ∈ lines) :
    withinLimit (digitCount r.number) = true := by
  obtain ⟨errors, next, hstep⟩ := PyLoop.turn_of_loop hfold hr
  obtain ⟨r', htext, hparse⟩ := parseNftLine_located (hs _ hr) ⟨r, rfl⟩
  rw [hparse, Report.number_eq htext] at hstep
  by_contra hlimit
  obtain ⟨exc, hexc⟩ := intOf_overlong (Bool.eq_false_iff.mpr hlimit)
  rw [hexc] at hstep
  cases hstep

/-! ## The whole output -/

theorem stripped_of_mem {stderr line : String} (h : line ∈ reportLines stderr) : Stripped line := by
  obtain ⟨hmem, -⟩ := List.mem_filter.mp h
  obtain ⟨raw, hraw, rfl⟩ := List.mem_map.mp hmem
  refine ⟨fun hnl => ?_, strip_last⟩
  have hbreak := noBreak_of_mem_linesFrom [] stderr.toList (by simp) hraw (mem_strip hnl)
  exact absurd hbreak (by decide)

theorem blank_of_reportLines {stderr : String} (h : reportLines stderr = []) : Blank stderr := by
  intro c hc
  rcases mem_linesFrom [] stderr.toList (.inr hc) with hbreak | ⟨raw, hraw, hmem⟩
  · exact .inr hbreak
  · have hempty : strip raw = "" := by
      have := List.filter_eq_nil_iff.mp h (strip raw) (List.mem_map_of_mem hraw)
      simpa using this
    exact .inl (spaces_of_strip hempty c hmem)

/-- The number of a line that an entry stands for is written as `str` writes it, after zeros. -/
theorem StandsFor.ascii {e : NftError} {lines : List String} (h : StandsFor e lines)
    {r : Report} (hr : r.text ∈ lines) :
    ∀ c ∈ r.number.toList, c.isDigit = true := by
  cases h with
  | raw first rest =>
    rcases List.mem_cons.mp hr with hr | hr
    · exact absurd ⟨r, hr⟩ first
    · exact absurd ⟨r, rfl⟩ (rest _ hr)
  | located number rest =>
    rcases List.mem_cons.mp hr with hr | hr
    · rw [Report.number_eq hr, number]
      intro c hc
      rcases List.mem_append.mp hc with hc | hc
      · rw [List.eq_of_mem_replicate hc]
        decide
      · exact digit_of_mem_toString hc
    · exact absurd ⟨r, rfl⟩ (rest _ hr)

theorem ascii_of_blocks {errors : List NftError} {blocks : List (List String)}
    (h : List.Forall₂ StandsFor errors blocks)
    {r : Report} (hr : r.text ∈ blocks.flatten) : ∀ c ∈ r.number.toList, c.isDigit = true := by
  induction h with
  | nil => cases hr
  | cons hblock _ ih =>
    rcases List.mem_append.mp hr with hr | hr
    · exact hblock.ascii hr
    · exact ih hr

/-- The output is kept whole exactly when every line number is written in plain digits. -/
theorem nft_errors_kept_iff (stderr : String) : Kept stderr ↔ ∀ r : Report, r.text ∈ reportLines stderr → r.Plain := by
  constructor
  · rintro ⟨errors, hparse, ⟨⟨blocks, hblocks, hlines⟩, -⟩, -⟩ r hr
    rw [parseNftErrors_eq] at hparse
    refine ⟨ascii_of_blocks hblocks (hlines ▸ hr), ?_⟩
    exact limit_of_fold (fun _ => stripped_of_mem) hparse hr
  · intro hplain
    obtain ⟨errors, hfold, hrepr⟩ := represents_fold (fun _ => stripped_of_mem) hplain
    refine ⟨errors, (parseNftErrors_eq stderr).trans hfold, hrepr, ?_⟩
    rintro rfl
    obtain ⟨⟨blocks, hblocks, hlines⟩, -⟩ := hrepr
    cases hblocks
    exact blank_of_reportLines hlines.symm

/-- A line whose number has `n` digits. -/
def longNumber (n : Nat) : String := "rules.nft:" ++ String.ofList (List.replicate n '1') ++ ":1-2: Error: syntax error"

omit U in
theorem toList_longNumber (n : Nat) :
    (longNumber n).toList = "rules.nft:".toList ++ (List.replicate n '1' ++ ":1-2: Error: syntax error".toList) := by
  have hones : (String.ofList (List.replicate n '1')).toList = List.replicate n '1' := String.toList_ofList
  rw [longNumber, String.toList_append, String.toList_append, hones, List.append_assoc]

theorem longNumber_located {n : Nat} (hne : n ≠ 0) :
    ∃ r : Report, r.text = longNumber n ∧ r.number = String.ofList (List.replicate n '1') := by
  have hcolumns : ∀ c ∈ "1-2".toList, (isDigit c || c == '-') = true := by
    intro c hc
    have hascii : "1-2".toList.all (fun c => c.isDigit || c == '-') = true := by decide
    exact column_of_ascii (List.all_eq_true.mp hascii c hc)
  have hsolid : U.isSpace 's' = false := isSpace_char (by decide)
  have hline : longNumber n = String.ofList
      ("rules.nft".toList ++ ':' :: ((String.ofList (List.replicate n '1')).toList ++ ':' ::
      ("1-2".toList ++ ':' :: (" ".toList ++ ("Error".toList ++ ':' :: (" ".toList ++ "syntax error".toList)))))) := by
    have hfront : "rules.nft:".toList = "rules.nft".toList ++ [':'] := by decide
    have hback : ":1-2: Error: syntax error".toList =
        ':' :: ("1-2".toList ++ ':' ::
          (" ".toList ++ ("Error".toList ++ ':' :: (" ".toList ++ "syntax error".toList)))) := by decide
    have hones : (String.ofList (List.replicate n '1')).toList = List.replicate n '1' := String.toList_ofList
    rw [← String.ofList_toList (s := longNumber n), toList_longNumber, hfront, hback, hones, List.append_assoc,
      List.singleton_append]
  refine ⟨{
    file := "rules.nft", number := String.ofList (List.replicate n '1'), columns := "1-2", gap := " ", level := "Error"
    indent := " ", message := "syntax error"
    file_ne := by decide
    file_chars := List.all_eq_true.mp (by decide)
    number_ne := by simpa using hne
    number_chars := by simpa [hne] using isDigit_ascii (c := '1') (by decide)
    columns_ne := by decide
    columns_chars := hcolumns
    gap_chars := spaces_blank
    level_ne := by decide
    level_chars := words_of_ascii (by decide)
    indent_chars := spaces_blank
    message_ne := by decide
    message_chars := List.all_eq_true.mp (by decide)
    message_head := by simpa using hsolid }, ?_, rfl⟩
  exact hline.symm

theorem longNumber_line (n : Nat) : longNumber n ∈ reportLines (String.ofList (unlines [longNumber n])) := by
  have hlines : splitlines (String.ofList (unlines [longNumber n])) = [longNumber n] := by
    refine splitlines_unlines ?_
    intro l hl c hc
    rw [List.mem_singleton.mp hl, toList_longNumber] at hc
    have hends : ("rules.nft:".toList ++ ":1-2: Error: syntax error".toList).all (fun c => !isLineBreak c) = true := by
      decide
    have hend : c ∈ "rules.nft:".toList ++ ":1-2: Error: syntax error".toList → isLineBreak c = false := fun hc => by
      simpa using List.all_eq_true.mp hends c hc
    rcases List.mem_append.mp hc with hc | hc
    · exact hend (List.mem_append_left _ hc)
    · rcases List.mem_append.mp hc with hc | hc
      · rw [List.eq_of_mem_replicate hc]
        decide
      · exact hend (List.mem_append_right _ hc)
  have hstrip : strip (longNumber n) = longNumber n := by
    have hsolid : U.isSpace 'r' = false := isSpace_char (by decide)
    have hhead : (longNumber n).toList.head? = some 'r' := by
      rw [toList_longNumber]
      rfl
    have hlast : (longNumber n).toList.getLast? = some 'r' := by
      rw [toList_longNumber, List.getLast?_append, List.getLast?_append]
      rfl
    refine strip_eq ?_ ?_
    · rw [hhead]
      simpa using hsolid
    · rw [hlast]
      simpa using hsolid
  have hne : longNumber n ≠ "" := fun hempty => by
    have hnil := congrArg String.toList hempty
    rw [toList_longNumber] at hnil
    cases hnil
  unfold reportLines
  rw [hlines, List.map_singleton, hstrip, List.filter_cons_of_pos (by simpa using hne)]
  exact List.mem_cons_self

theorem longNumber_raises {n : Nat} (hn : withinLimit n = false) :
    ∃ exc, parseNftErrors (String.ofList (unlines [longNumber n])) = .error exc := by
  have hne : n ≠ 0 := by
    rintro rfl
    unfold withinLimit at hn
    simp at hn
  obtain ⟨r, htext, hnumber⟩ := longNumber_located hne
  cases hparse : parseNftErrors (String.ofList (unlines [longNumber n])) with
  | error exc => exact ⟨exc, rfl⟩
  | ok errors =>
    rw [parseNftErrors_eq] at hparse
    have hlimit := limit_of_fold (fun _ => stripped_of_mem) hparse (r := r) (by rw [htext]; exact longNumber_line n)
    have hcount : digitCount r.number = n := by
      rw [hnumber, digitCount, String.toList_ofList, List.countP_replicate, if_pos (isDigit_ascii (by decide))]
    rw [hcount, hn] at hlimit
    cases hlimit

omit U in
/-- A line number of 4301 digits: the parser raises instead of keeping the line. -/
theorem a_line_number_too_long_is_raised :
    ∃ exc, parseNftErrors (U := Unicode.ascii) (String.ofList (unlines [longNumber 4301])) = .error exc :=
  longNumber_raises (U := Unicode.ascii) (by decide)

end RuleEngine

end Nse
