/-
  Nse.Core.TraceFormat — the lines `nft monitor trace` prints, and that the parser
  understands each of them.

  A line names a packet, a chain, and one thing that happened to the packet there: it came
  in, a rule matched (with the verdict in parentheses, when it has one), or the chain or its
  policy decided. A name is printed bare, or in quotes. A verdict with a target, such as
  `jump`, is the end of the rule's text to the parser, which looks for one word.

  Proved: `parseLine_text`, every such line is parsed to an event with the line's id, names
  and verdict, unless its handle is a number too long for `int`.
-/

import Nse.Core.TraceParser

namespace Nse

open Backtrack

/-! ## Lines -/

/-- A name, bare or in quotes. -/
structure Ident where
  name : String
  quoted : Bool
  ne : name ≠ ""
  chars : ∀ c ∈ name.toList, (if quoted then TraceParser.notQuote c else TraceParser.bareChar c) = true

def Ident.text (i : Ident) : String := if i.quoted then "\"" ++ i.name ++ "\"" else i.name

structure Chain where
  family : Ident
  table : Ident
  chain : Ident

inductive Verdict where
  | accept
  | drop
  | reject
  | continue
  | break
  | return
  | jump
  | goto
  | queue
  | stolen
  deriving DecidableEq, Repr

def Verdict.word : Verdict → String
  | .accept => "accept"
  | .drop => "drop"
  | .reject => "reject"
  | .continue => "continue"
  | .break => "break"
  | .return => "return"
  | .jump => "jump"
  | .goto => "goto"
  | .queue => "queue"
  | .stolen => "stolen"

variable [U : PyStr.Unicode]

/-- ` (verdict word)`. -/
def verdictChars (w : List Char) : List Char := " (verdict".toList ++ ' ' :: (w ++ [')'])

/-- The id and the handle of a rule. -/
structure Handle where
  ruleId : String
  number : String
  ruleId_ne : ruleId ≠ ""
  ruleId_chars : ∀ c ∈ ruleId.toList, TraceParser.ruleIdChar c = true
  number_ne : number ≠ ""
  number_chars : ∀ c ∈ number.toList, PyStr.isDigit c = true

/-- The text of a rule: one line, not a rule id where none is printed, and not itself
    ending in a verdict where none is printed. -/
structure RuleText (handle : Option Handle) (verdict : Option Verdict) where
  text : String
  ne : text ≠ ""
  chars : ∀ c ∈ text.toList, TraceParser.dot c = true
  noHandle : handle.isNone → ¬"0x".toList <+: text.toList
  noVerdict : verdict.isNone → ∀ xs w, (∀ c ∈ w, U.isWord c = true) → text.toList ≠ xs ++ verdictChars w

inductive LineBody where
  | packet (text : String)
  | rule (handle : Option Handle) (verdict : Option Verdict) (text : RuleText handle verdict)
  /-- The target is that of a jump. -/
  | decision (policy : Bool) (v : Verdict) (target : Option String)

structure TraceLine where
  id : String
  chain : Chain
  body : LineBody
  id_ne : id ≠ ""
  id_chars : ∀ c ∈ id.toList, TraceParser.hexChar c = true

def Handle.chars (h : Handle) : List Char :=
  "0x".toList ++ (h.ruleId.toList ++ (" (handle ".toList ++ (h.number.toList ++ ") ".toList)))

def LineBody.charList : LineBody → List Char
  | .packet text => "packet:".toList ++ text.toList
  | .rule handle verdict text =>
    "rule ".toList ++ ((handle.elim [] Handle.chars) ++
      (text.text.toList ++ verdict.elim [] fun v => verdictChars v.word.toList))
  | .decision policy v target =>
    (if policy then "policy" else "verdict").toList ++ ' ' :: (v.word.toList ++ target.elim [] fun t => ' ' :: t.toList)

def TraceLine.text (l : TraceLine) : String :=
  String.ofList ("trace id ".toList ++ (l.id.toList ++ ' ' :: (l.chain.family.text.toList ++ ' ' ::
    (l.chain.table.text.toList ++ ' ' :: (l.chain.chain.text.toList ++ ' ' :: l.body.charList)))))

/-- The verdict a line carries. -/
def LineBody.carried : LineBody → Option Verdict
  | .packet _ => none
  | .rule _ verdict _ => verdict
  | .decision _ v _ => some v

/-! ## The header -/

namespace TraceParser

theorem isDigit_space : PyStr.isDigit ' ' = false := PyStr.isDigit_char (by decide)

theorem ruleIdChar_space : ruleIdChar ' ' = false := by
  rw [ruleIdChar, isDigit_space]
  decide

theorem isDigit_paren : PyStr.isDigit ')' = false := PyStr.isDigit_char (by decide)

theorem isWord_space : U.isWord ' ' = false := PyStr.isWord_char (by decide)

theorem isWord_paren : U.isWord ')' = false := PyStr.isWord_char (by decide)

theorem newline_not_word {w : List Char} (hw : ∀ c ∈ w, U.isWord c = true) : '\n' ∉ w := by
  intro hmem
  have hnewline : U.isWord '\n' = false := PyStr.isWord_char (by decide)
  rw [hw _ hmem] at hnewline
  cases hnewline

section Steps

omit U

variable {β : Type} {k : At → Option β} {prev : Option Char} {t : List Char} {g : Groups}

/-- What follows a word that is recorded: a space, and the rest. -/
def thenSpace (name : String) (a : At) (r : Re) (k : At → Option β) (b : At) : Option β :=
  (Re.lit " ").run (At.record name a b) fun b => r.run b k

theorem thenSpace_here (name : String) (prev' : Option Char) (xs : List Char) (r : Re) :
    thenSpace name ⟨prev, xs ++ ' ' :: t, g⟩ r k ⟨prev', ' ' :: t, g⟩ = r.run ⟨some ' ', t, (name, xs) :: g⟩ k := by
  rw [thenSpace, record_append]
  rfl

/-- A word of one class, recorded, and the space after it. -/
theorem run_word {p : Char → Bool} (hp : p ' ' = false) (name : String) {xs : List Char} (hne : xs ≠ [])
    (hx : ∀ c ∈ xs, p c = true) (r : Re) :
    (Re.plus p).run ⟨prev, xs ++ ' ' :: t, g⟩ (thenSpace name ⟨prev, xs ++ ' ' :: t, g⟩ r k) =
      r.run ⟨some ' ', t, (name, xs) :: g⟩ k :=
  run_field (show " ".toList = [' '] from rfl) hp hne hx

theorem ident_text_chars (i : Ident) :
    i.text.toList = if i.quoted then '"' :: (i.name.toList ++ ['"']) else i.name.toList := by
  unfold Ident.text
  split <;> simp

theorem toList_ne {s : String} (h : s ≠ "") : s.toList ≠ [] := fun hnil => h (String.toList_inj.mp hnil)

/-- A name, recorded as it is printed, and the space after it. -/
theorem run_ident (i : Ident) (name : String) (r : Re) :
    (Re.seq (ident name) (.seq (.lit " ") r)).run ⟨prev, i.text.toList ++ ' ' :: t, g⟩ k =
      r.run ⟨some ' ', t, (name, i.text.toList) :: g⟩ k := by
  have hne := toList_ne i.ne
  have hchars := i.chars
  have halt : ∀ a : At, (Re.seq (ident name) (.seq (.lit " ") r)).run a k =
      (quoted.run a (thenSpace name a r k)).or ((Re.plus bareChar).run a (thenSpace name a r k)) := fun _ => rfl
  rw [halt, ident_text_chars]
  by_cases hq : i.quoted = true
  · simp only [hq, if_true] at hchars ⊢
    -- the quoted alternative reads the name, and the bare one cannot start
    have hbare : (Re.plus bareChar).run ⟨prev, '"' :: (i.name.toList ++ ['"']) ++ ' ' :: t, g⟩
        (thenSpace name ⟨prev, '"' :: (i.name.toList ++ ['"']) ++ ' ' :: t, g⟩ r k) = none := rfl
    have hclose : '"' :: (i.name.toList ++ ['"']) ++ ' ' :: t = '"' :: (i.name.toList ++ '"' :: ' ' :: t) := by simp
    have hquoted : quoted.run ⟨prev, '"' :: (i.name.toList ++ ['"']) ++ ' ' :: t, g⟩
        (thenSpace name ⟨prev, '"' :: (i.name.toList ++ ['"']) ++ ' ' :: t, g⟩ r k) =
          thenSpace name ⟨prev, '"' :: (i.name.toList ++ ['"']) ++ ' ' :: t, g⟩ r k ⟨some '"', ' ' :: t, g⟩ := by
      generalize thenSpace name ⟨prev, '"' :: (i.name.toList ++ ['"']) ++ ' ' :: t, g⟩ r k = k'
      rw [hclose]
      exact run_plus (k := fun b => (Re.lit "\"").run b k') ((stops_cons ..).mpr rfl)
        (fun _ c cs hc => literal_outside rfl _ _ _ _ hc) hne hchars (some '"')
    rw [hquoted, hbare, Option.or_none]
    exact thenSpace_here ..
  · simp only [hq, Bool.false_eq_true, if_false] at hchars ⊢
    obtain ⟨x, xs, hx⟩ := List.exists_cons_of_ne_nil hne
    have hquoted : ∀ k' : At → Option β, quoted.run ⟨prev, i.name.toList ++ ' ' :: t, g⟩ k' = none := by
      rw [hx] at hchars ⊢
      exact fun _ => literal_outside (p := bareChar) (d := '"') rfl [] prev x _ (hchars x List.mem_cons_self)
    rw [hquoted, Option.none_or]
    exact run_word rfl name hne hchars r

end Steps

end TraceParser

/-- A line, from its id to its body. -/
def headerChars (id : String) (c : Chain) (body : List Char) : List Char :=
  "trace id ".toList ++ (id.toList ++ ' ' :: (c.family.text.toList ++ ' ' ::
    (c.table.text.toList ++ ' ' :: (c.chain.text.toList ++ ' ' :: body))))

/-- What the header of a line records. -/
def headerGroups (id : String) (c : Chain) : Groups :=
  [("chain", c.chain.text.toList), ("table", c.table.text.toList), ("family", c.family.text.toList),
    ("trace_id", id.toList)]

omit U in
/-- A pattern of the parser on a line: after the header, on the rest. -/
theorem match_header {id : String} (hne : id ≠ "") (hchars : ∀ c ∈ id.toList, TraceParser.hexChar c = true) (c : Chain)
    (body : List Char) (r : Re) : (TraceParser.prefixed r).match (String.ofList (headerChars id c body)) =
      r.run ⟨some ' ', body, headerGroups id c⟩ fun a => some a.groups := by
  unfold TraceParser.prefixed Re.match headerChars
  rw [String.toList_ofList]
  simp only [Re.seqs]
  refine (run_lit _ _ _ _ _).trans ?_
  refine (TraceParser.run_word rfl "trace_id" (TraceParser.toList_ne hne) hchars _).trans ?_
  refine (TraceParser.run_ident c.family "family" _).trans ?_
  refine (TraceParser.run_ident c.table "table" _).trans ?_
  exact TraceParser.run_ident c.chain "chain" r

def TraceLine.header (l : TraceLine) : Groups := headerGroups l.id l.chain

theorem TraceLine.match_prefixed (l : TraceLine) (r : Re) :
    (TraceParser.prefixed r).match l.text = r.run ⟨some ' ', l.body.charList, l.header⟩ fun a => some a.groups :=
  match_header l.id_ne l.id_chars l.chain l.body.charList r

/-! ## Parts of the patterns -/

namespace TraceParser

/-- The optional interface of `_PACKET_RE`. -/
def iifRe : Re :=
  Re.seqs [.manyLazy dot, .boundary U.isWord, .lit "iif ", .opt (.lit "\""), .group "iif" (Re.plus iifChar),
    .opt (.lit "\"")]

/-- The optional id and handle of `_RULE_RE`. -/
def handleRe : Re :=
  Re.seqs [.group "rule_id" (.seq (.lit "0x") (Re.plus ruleIdChar)), .lit " (handle ",
    .group "handle" (Re.plus PyStr.isDigit), .lit ") "]

/-- Its optional verdict, and the end of the line. -/
def endRe : Re :=
  .seq (.opt (Re.seqs [.lit " (verdict ", .group "verdict" (Re.plus U.isWord), .lit ")"])) .atEnd

def textRe : Re := .seq (.group "rule_text" (Re.plusLazy dot)) endRe

section Rule

variable {β : Type} {k : At → Option β} {prev : Option Char} {g : Groups}

/-- Neither a verdict nor the end: the text of the rule goes on. -/
theorem endRe_fails {t : List Char} (hne : t ≠ []) (hline : '\n' ∉ t)
    (hv : ∀ w, (∀ c ∈ w, U.isWord c = true) → t ≠ verdictChars w) : endRe.run ⟨prev, t, g⟩ k = none := by
  refine Option.eq_none_iff_forall_ne_some.mpr fun v h => ?_
  have hend : ∀ {b : At}, Re.atEnd.run b k = some v → b.rest = [] ∨ b.rest = ['\n'] := by
    intro b hb
    simp only [Re.run] at hb
    split at hb
    · assumption
    · cases hb
  rcases Option.or_eq_some_iff.mp h with h | ⟨-, h⟩
  · obtain ⟨t₁, rfl, h⟩ := literal_some h
    obtain ⟨w, t₂, -, rfl, hw, h⟩ := run_plus_some h
    obtain ⟨t₃, rfl, h⟩ := literal_some h
    rcases hend h with rfl | rfl
    · exact hv w hw rfl
    · exact hline (by simp)
  · rcases hend h with rfl | rfl
    · exact hne rfl
    · exact hline (by simp)

theorem endRe_verdict {w : List Char} (hne : w ≠ []) (hw : ∀ c ∈ w, U.isWord c = true) :
    endRe.run ⟨prev, verdictChars w, g⟩ (fun a => some a.groups) = some (("verdict", w) :: g) := by
  have hword := run_plus_longest (p := U.isWord) (g := g) (t := [')'])
    (k := fun b => (Re.lit ")").run (At.record "verdict" ⟨some ' ', w ++ [')'], g⟩ b) fun b =>
      Re.atEnd.run b fun a => some a.groups)
    (v := ("verdict", w) :: g) ((stops_cons ..).mpr isWord_paren) hne hw (some ' ') (by rw [record_append]; rfl)
  have hrun : (Re.seqs [.lit " (verdict ", .group "verdict" (Re.plus U.isWord), .lit ")"]).run ⟨prev, verdictChars w, g⟩
      (fun b => Re.atEnd.run b fun a => some a.groups) = some (("verdict", w) :: g) := hword
  exact (congrArg (Option.or · _) hrun).trans Option.some_or

theorem endRe_nil : endRe.run ⟨prev, [], g⟩ (fun a => some a.groups) = some g := rfl

/-- The text goes up to where the end, with or without a verdict, can be read. -/
theorem run_textRe {text rest : List Char} {own : Groups} (hne : text ≠ []) (hdot : ∀ c ∈ text, dot c = true)
    (hskip : ∀ xs z zs prev g, xs ≠ [] → text = xs ++ z :: zs →
      endRe.run ⟨prev, z :: zs ++ rest, g⟩ (fun a => some a.groups) = none)
    (hend : ∀ prev g, endRe.run ⟨prev, rest, g⟩ (fun a => some a.groups) = some (own ++ g)) :
    textRe.run ⟨prev, text ++ rest, g⟩ (fun a => some a.groups) = some (own ++ ("rule_text", text) :: g) := by
  obtain ⟨c, cs, rfl⟩ := List.exists_cons_of_ne_nil hne
  have hc : dot c = true := hdot c List.mem_cons_self
  have hlazy : reluctant dot g
      (fun b => endRe.run (At.record "rule_text" ⟨prev, c :: cs ++ rest, g⟩ b) fun a => some a.groups) (some c)
        (cs ++ rest) =
        some (own ++ ("rule_text", c :: cs) :: g) := by
    rw [reluctant_skip cs (some c) (fun d hd => hdot d (List.mem_cons_of_mem _ hd)) fun ys z zs hys => ?_]
    · refine reluctant_here ?_
      rw [record_append]
      exact hend _ _
    · exact hskip (c :: ys) z zs _ _ nofun (by rw [hys]; rfl)
  show (if dot c = true then _ else none) = _
  rw [if_pos hc]
  exact hlazy

omit U in
/-- The part of a text before its last space. -/
theorem before_last_space : ∀ {xs xs' ys ys' : List Char}, xs ++ ' ' :: ys = xs' ++ ' ' :: ys' → ' ' ∉ ys → ' ' ∉ ys' →
    xs = xs'
  | [], [], _, _, _, _, _ => rfl
  | [], x :: xs', ys, ys', h, hy, _ => by
    obtain ⟨rfl, rfl⟩ := List.cons.inj h
    exact absurd (by simp) hy
  | x :: xs, [], ys, ys', h, _, hy' => by
    obtain ⟨rfl, rfl⟩ := List.cons.inj h
    exact absurd (by simp) hy'
  | x :: xs, x' :: xs', ys, ys', h, hy, hy' => by
    rw [(List.cons.inj h).1, before_last_space (List.cons.inj h).2 hy hy']

theorem no_space {w : List Char} (hw : ∀ c ∈ w, U.isWord c = true) : ' ' ∉ w ++ [')'] := by
  intro hmem
  rcases List.mem_append.mp hmem with hmem | hmem
  · have := hw ' ' hmem
    rw [isWord_space] at this
    cases this
  · simp at hmem

end Rule

end TraceParser

theorem Verdict.word_chars (v : Verdict) : ∀ c ∈ v.word.toList, U.isWord c = true := by
  have hascii : v.word.toList.all (fun c => decide (c.toNat < 128) && PyStr.asciiWord c) = true := by cases v <;> decide
  exact PyStr.words_of_ascii hascii

omit U in
theorem Verdict.word_ne (v : Verdict) : v.word.toList ≠ [] := by cases v <;> decide

/-- What a rule's text and verdict record. -/
theorem TraceParser.run_text {text : List Char} {verdict : Option (List Char)} (hne : text ≠ [])
    (hdot : ∀ c ∈ text, TraceParser.dot c = true) (hverdict : ∀ w ∈ verdict, w ≠ [] ∧ ∀ c ∈ w, U.isWord c = true)
    (hno : verdict = none → ∀ xs w, (∀ c ∈ w, U.isWord c = true) → text ≠ xs ++ verdictChars w) (prev : Option Char)
    (g : Groups) :
    TraceParser.textRe.run ⟨prev, text ++ verdict.elim [] verdictChars, g⟩ (fun a => some a.groups) =
      some ((verdict.elim [] fun w => [("verdict", w)]) ++ ("rule_text", text) :: g) := by
  have hline : ∀ {xs z zs}, text = xs ++ z :: zs → '\n' ∉ z :: zs := by
    intro xs z zs hx hmem
    have := hdot '\n' (by rw [hx]; exact List.mem_append_right _ hmem)
    simp [TraceParser.dot] at this
  cases verdict with
  | none =>
    refine TraceParser.run_textRe hne hdot (fun xs z zs prev g _ hx => ?_) fun _ _ => TraceParser.endRe_nil
    refine TraceParser.endRe_fails nofun (by simpa using hline hx) fun w hw heq => ?_
    have heq : z :: zs = verdictChars w := (List.append_nil _).symm.trans heq
    exact hno rfl xs w hw (heq ▸ hx)
  | some v =>
    obtain ⟨hvne, hv⟩ := hverdict v rfl
    have hverdictLine : '\n' ∉ verdictChars v := by
      intro hmem
      rcases List.mem_append.mp hmem with hmem | hmem
      · exact absurd hmem (by decide)
      · simp only [List.mem_cons, List.mem_append, List.not_mem_nil, or_false] at hmem
        rcases hmem with hmem | hmem | hmem
        · cases hmem
        · exact TraceParser.newline_not_word hv hmem
        · cases hmem
    have hend : ∀ prev g, TraceParser.endRe.run ⟨prev, verdictChars v, g⟩ (fun a => some a.groups) =
        some ([("verdict", v)] ++ g) := fun _ _ => TraceParser.endRe_verdict hvne hv
    simp only [Option.elim_some]
    refine TraceParser.run_textRe hne hdot (fun xs z zs prev g _ hx => ?_) hend
    refine TraceParser.endRe_fails nofun (fun hmem => ?_) fun w hw heq => ?_
    · exact (List.mem_append.mp hmem).elim (hline hx) hverdictLine
    · have hsplit : z :: zs ++ " (verdict".toList ++ ' ' :: (v ++ [')']) = " (verdict".toList ++
          ' ' :: (w ++ [')']) := by
        rw [List.append_assoc]
        exact heq
      have := congrArg List.length (TraceParser.before_last_space hsplit (TraceParser.no_space hv)
          (TraceParser.no_space hw))
      simp at this

theorem RuleText.run {handle : Option Handle} {verdict : Option Verdict}
    (x : RuleText handle verdict) (prev : Option Char)
    (g : Groups) :
    TraceParser.textRe.run ⟨prev, x.text.toList ++ verdict.elim [] fun v => verdictChars v.word.toList, g⟩
        (fun a => some a.groups) =
      some ((verdict.elim [] fun v => [("verdict", v.word.toList)]) ++ ("rule_text", x.text.toList) :: g) := by
  have hverdict : ∀ w ∈ verdict.map fun v => v.word.toList, w ≠ [] ∧ ∀ c ∈ w, U.isWord c = true := by
    intro w hw
    obtain ⟨v, -, rfl⟩ := Option.map_eq_some_iff.mp hw
    exact ⟨v.word_ne, v.word_chars⟩
  have hno : (verdict.map fun v => v.word.toList) = none → ∀ xs w, (∀ c ∈ w, U.isWord c = true) →
      x.text.toList ≠ xs ++ verdictChars w := fun h => x.noVerdict (by rw [Option.map_eq_none_iff.mp h]; rfl)
  have hrun := TraceParser.run_text (TraceParser.toList_ne x.ne) x.chars hverdict hno prev g
  rw [Option.elim_map, Option.elim_map] at hrun
  exact hrun

section Handle

open TraceParser

variable {β : Type} {k : At → Option β} {q : Option Char} {g : Groups} {rest : List Char}

/-- The id and the handle are read where they are printed. -/
theorem Handle.run (h : Handle) :
    handleRe.run ⟨q, h.chars ++ rest, g⟩ k =
      k ⟨some ' ', rest, ("handle", h.number.toList) :: ("rule_id", "0x".toList ++ h.ruleId.toList) :: g⟩ := by
  have hnumber := run_plus (p := PyStr.isDigit) (t := ") ".toList ++ rest)
    (g := ("rule_id", "0x".toList ++ h.ruleId.toList) :: g)
    (k := fun b => (Re.lit ") ").run (At.record "handle"
      ⟨some ' ', h.number.toList ++ (") ".toList ++ rest), ("rule_id", "0x".toList ++ h.ruleId.toList) :: g⟩ b) k)
    ((stops_cons ..).mpr isDigit_paren) (fun prev' c cs hc => literal_outside isDigit_paren [' '] prev' c cs hc)
    (toList_ne h.number_ne) h.number_chars (some ' ')
  rw [record_append] at hnumber
  have hid :=
    run_plus (p := ruleIdChar) (t := " (handle ".toList ++ (h.number.toList ++ (") ".toList ++ rest))) (g := g)
    (k := fun b => (Re.lit " (handle ").run (At.record "rule_id"
      ⟨q, "0x".toList ++ h.ruleId.toList ++ (" (handle ".toList ++ (h.number.toList ++ (") ".toList ++ rest))), g⟩ b)
        fun b => (Re.seqs [.group "handle" (Re.plus PyStr.isDigit), .lit ") "]).run b k)
    ((stops_cons ..).mpr ruleIdChar_space) (fun prev' c cs hc => literal_outside ruleIdChar_space _ prev' c cs hc)
    (toList_ne h.ruleId_ne) h.ruleId_chars (some 'x')
  rw [record_append] at hid
  have hchars : h.chars ++ rest =
      "0x".toList ++ h.ruleId.toList ++ (" (handle ".toList ++ (h.number.toList ++ (") ".toList ++ rest))) := by
    simp only [Handle.chars, List.append_assoc]
  rw [hchars]
  exact hid.trans hnumber

theorem Handle.run_opt (h : Handle) {v : β}
    (hk : k ⟨some ' ', rest, ("handle", h.number.toList) :: ("rule_id", "0x".toList ++ h.ruleId.toList) :: g⟩ =
      some v) :
    (Re.opt handleRe).run ⟨q, h.chars ++ rest, g⟩ k = some v :=
  (congrArg (Option.or · _) (h.run.trans hk)).trans Option.some_or

/-- No id is read where none is printed. -/
theorem run_noHandle {text : List Char} (hne : text ≠ []) (hno : ¬"0x".toList <+: text)
    (hrest : rest.head? ≠ some 'x') :
    (Re.opt handleRe).run ⟨q, text ++ rest, g⟩ k = k ⟨q, text ++ rest, g⟩ := by
  have hnone : handleRe.run ⟨q, text ++ rest, g⟩ k = none := by
    refine Option.eq_none_iff_forall_ne_some.mpr fun v h => ?_
    obtain ⟨t, ht, -⟩ := literal_some h
    match text, hne, hno, ht with
    | [c], _, _, ht =>
      obtain ⟨-, hx⟩ := List.cons.inj ht
      exact hrest (by rw [show rest = 'x' :: t from hx]; rfl)
    | c :: d :: cs, _, hno, ht =>
      obtain ⟨hc, ht⟩ := List.cons.inj ht
      obtain ⟨hd, -⟩ := List.cons.inj ht
      exact hno ⟨cs, by rw [hc, hd]; rfl⟩
  exact (congrArg (Option.or · _) hnone).trans Option.none_or

end Handle

/-! ## Every line is parsed -/

/-- The event has the id, the names and the verdict of the line. -/
structure Parsed (l : TraceLine) (e : TraceEvent) : Prop where
  type : e.traced = true
  traceId : e.traceId = some l.id
  family : e.family = some l.chain.family.name
  table : e.table = some l.chain.table.name
  chain : e.chain = some l.chain.chain.name
  verdict : e.verdict = l.body.carried.map fun v => PyStr.upper v.word

omit U in
theorem TraceParser.unquote_text (i : Ident) : TraceParser.unquote i.text = i.name := by
  have hchars := i.chars
  unfold TraceParser.unquote
  rw [TraceParser.ident_text_chars]
  by_cases hq : i.quoted = true
  · simp [hq]
  · simp only [hq, Bool.false_eq_true, if_false] at hchars ⊢
    have htext : i.text = i.name := by
      unfold Ident.text
      rw [if_neg hq]
    rw [htext]
    split
    · rename_i cs hcs
      have := hchars '"' (by rw [hcs]; exact List.mem_cons_self)
      cases this
    · rfl

/-- The groups of the header. -/
def headerNames : List String := ["trace_id", "family", "table", "chain"]

omit U in
/-- The fields that come from the header, whatever else was recorded. -/
theorem baseEvent_groups (id : String) (c : Chain) {own : Groups} (hown : ∀ x ∈ own, x.1 ∉ headerNames)
    (type : EventType) :
    TraceParser.baseEvent type (own ++ headerGroups id c) =
      { type
        traceId := some id
        family := some c.family.name
        table := some c.table.name
        chain := some c.chain.name } := by
  have hget : ∀ name ∈ headerNames, Groups.get (own ++ headerGroups id c) name =
      Groups.get (headerGroups id c) name := by
    intro name hname
    exact get_append fun x hx heq => hown x hx (heq ▸ hname)
  unfold TraceParser.baseEvent
  rw [hget "trace_id" (by decide), hget "family" (by decide), hget "table" (by decide), hget "chain" (by decide)]
  simp [Groups.get, headerGroups, TraceParser.unquote_text]

section Parse

variable (l : TraceLine) {own : Groups}

theorem baseEvent_header (hown : ∀ x ∈ own, x.1 ∉ headerNames) (type : EventType) :
    let e := TraceParser.baseEvent type (own ++ l.header)
    e.traceId = some l.id ∧ e.family = some l.chain.family.name ∧ e.table = some l.chain.table.name ∧
      e.chain = some l.chain.chain.name := by
  simp only [TraceLine.header, baseEvent_groups l.id l.chain hown, and_self]

theorem match_packet {text : String} (hb : l.body = .packet text) :
    ∃ own : Groups, TraceParser.packetRe.match l.text = some (own ++ l.header) ∧ ∀ x ∈ own, x.1 ∉ headerNames := by
  have hmatch := l.match_prefixed (.seq (.lit "packet:") (.opt TraceParser.iifRe))
  rw [hb] at hmatch
  have hmatch := hmatch.trans (run_lit "packet:" _ _ text.toList _)
  cases hopt : (Re.opt TraceParser.iifRe).run ⟨after (some ' ') "packet:".toList, text.toList, l.header⟩ fun a =>
      some a.groups with
  | none =>
    have := (Option.or_eq_none_iff.mp hopt).2
    cases this
  | some m =>
    obtain ⟨b, hm, own, hown, hnames⟩ := run_some hopt
    refine ⟨own, hmatch.trans (hopt.trans (by rw [← hm, hown])), fun x hx => ?_⟩
    have hiif : x.1 = "iif" := by simpa [TraceParser.iifRe, Re.names, Re.seqs, Re.plus] using hnames x hx
    rw [hiif]
    decide

theorem match_rule {handle : Option Handle} {verdict : Option Verdict} {x : RuleText handle verdict}
    (hb : l.body = .rule handle verdict x) :
    ∃ own : Groups, TraceParser.ruleRe.match l.text = some (own ++ l.header) ∧ (∀ x ∈ own, x.1 ∉ headerNames) ∧
      Groups.get (own ++ l.header) "verdict" = verdict.map (·.word) := by
  have hmatch := l.match_prefixed (.seq (.lit "rule ") (.seq (.opt TraceParser.handleRe) TraceParser.textRe))
  rw [hb] at hmatch
  have hmatch := hmatch.trans (run_lit "rule " _ _ _ _)
  have hverdict : ∀ own : Groups, Groups.get ((verdict.elim [] fun v => [("verdict", v.word.toList)]) ++
      ("rule_text", x.text.toList) :: (own ++ l.header)) "verdict" = verdict.map (·.word) ∨
        ∃ y ∈ own, y.1 = "verdict" := by
    intro own
    by_cases hown : ∃ y ∈ own, y.1 = "verdict"
    · exact .inr hown
    · left
      cases verdict with
      | none =>
        have hskip : ∀ y ∈ ("rule_text", x.text.toList) :: own, y.1 ≠ "verdict" := by
          intro y hy heq
          rcases List.mem_cons.mp hy with rfl | hy
          · simp at heq
          · exact hown ⟨y, hy, heq⟩
        refine (get_append hskip).trans ?_
        simp [Groups.get, TraceLine.header, headerGroups]
      | some v => simp [Groups.get]
  cases handle with
  | none =>
    have hrest : (verdict.elim [] fun v => verdictChars v.word.toList).head? ≠ some 'x' := by
      cases verdict with
      | none => nofun
      | some v => cases v <;> decide
    have hopt := run_noHandle (q := after (some ' ') "rule ".toList) (g := l.header)
      (k := fun b => TraceParser.textRe.run b fun a => some a.groups)
        (TraceParser.toList_ne x.ne) (x.noHandle rfl) hrest
    refine ⟨(verdict.elim [] fun v => [("verdict", v.word.toList)]) ++ [("rule_text", x.text.toList)], ?_, ?_, ?_⟩
    · rw [List.append_assoc]
      exact hmatch.trans (hopt.trans (x.run _ _))
    · cases verdict <;> simp [headerNames]
    · rw [List.append_assoc]
      exact (hverdict []).resolve_right (by simp)
  | some h =>
    have hopt := h.run_opt (q := after (some ' ') "rule ".toList) (g := l.header)
      (k := fun b => TraceParser.textRe.run b fun a => some a.groups) (x.run _ _)
    refine ⟨(verdict.elim [] fun v => [("verdict", v.word.toList)]) ++ ("rule_text", x.text.toList) ::
      [("handle", h.number.toList), ("rule_id", "0x".toList ++ h.ruleId.toList)], ?_, ?_, ?_⟩
    · rw [List.append_assoc]
      exact hmatch.trans hopt
    · cases verdict <;> simp [headerNames]
    · rw [List.append_assoc]
      exact (hverdict [("handle", h.number.toList), ("rule_id", "0x".toList ++ h.ruleId.toList)]).resolve_right
        (by simp)

theorem match_decision {policy : Bool} {v : Verdict} {target : Option String}
    (hb : l.body = .decision policy v target) :
    TraceParser.verdictRe.match l.text = some (("verdict", v.word.toList) :: l.header) := by
  have hmatch := l.match_prefixed (Re.seqs [.alt (.lit "verdict") (.lit "policy"), .lit " ",
    .group "verdict" (Re.plus U.isWord)])
  rw [hb] at hmatch
  have hword : ∀ prev, (Re.group "verdict" (Re.plus U.isWord)).run
      ⟨prev, v.word.toList ++ target.elim [] fun t => ' ' :: t.toList, l.header⟩ (fun a => some a.groups) =
        some (("verdict", v.word.toList) :: l.header) := by
    intro prev
    have hstops : Stops U.isWord (target.elim [] fun t => ' ' :: t.toList) := by
      cases target with
      | none => exact stops_nil _
      | some t => exact (stops_cons ..).mpr TraceParser.isWord_space
    refine run_plus_longest hstops v.word_ne v.word_chars prev ?_
    rw [record_append]
  cases policy with
  | true =>
    have halt : ∀ k : At → Option Groups, (Re.alt (.lit "verdict") (.lit "policy")).run
        ⟨some ' ', "policy".toList ++ ' ' :: (v.word.toList ++ target.elim [] fun t => ' ' :: t.toList), l.header⟩ k =
          k ⟨some 'y', ' ' :: (v.word.toList ++ target.elim [] fun t => ' ' :: t.toList), l.header⟩ := fun _ => rfl
    exact hmatch.trans ((halt _).trans (hword _))
  | false =>
    have halt : ∀ k : At → Option Groups, (Re.alt (.lit "verdict") (.lit "policy")).run
        ⟨some ' ', "verdict".toList ++ ' ' :: (v.word.toList ++ target.elim [] fun t => ' ' :: t.toList), l.header⟩ k =
          k ⟨some 't', ' ' :: (v.word.toList ++ target.elim [] fun t => ' ' :: t.toList), l.header⟩ := fun k =>
      Option.or_none
    exact hmatch.trans ((halt _).trans (hword _))

/-- Every line of the format is parsed to an event with its id, names and verdict, unless it
    is of a rule whose handle `int` refuses. -/
theorem parseLine_text : (∃ e, TraceParser.parseLine false l.text = .ok (some e) ∧ Parsed l e) ∨
    (∃ handle verdict x, l.body = .rule handle verdict x) ∧ ∃ exc, TraceParser.parseLine false l.text = .error exc := by
  unfold TraceParser.parseLine
  simp only [Bool.false_eq_true, if_false]
  have hother : ∀ {r : Re}, (TraceParser.prefixed r).match l.text =
      r.run ⟨some ' ', l.body.charList, l.header⟩ fun a => some a.groups := l.match_prefixed _
  cases hb : l.body with
  | packet text =>
    obtain ⟨own, hm, hown⟩ := match_packet l hb
    obtain ⟨hid, hfamily, htable, hchain⟩ := baseEvent_header l hown .hook
    exact .inl ⟨TraceParser.hookEvent (own ++ l.header), by rw [hm], rfl, hid, hfamily, htable, hchain, by rw [hb]; rfl⟩
  | rule handle verdict x =>
    have hpacket : TraceParser.packetRe.match l.text = none := hother.trans (by rw [hb]; rfl)
    obtain ⟨own, hm, hown, hv⟩ := match_rule l hb
    obtain ⟨hid, hfamily, htable, hchain⟩ := baseEvent_header l hown .ruleMatch
    cases hhandle : TraceParser.readHandle (own ++ l.header) with
    | error exc =>
      refine .inr ⟨⟨handle, verdict, x, rfl⟩, exc, ?_⟩
      rw [hpacket, hm]
      dsimp only
      rw [hhandle]
      rfl
    | ok n =>
      refine .inl ⟨TraceParser.ruleEvent (own ++ l.header) n, ?_, rfl, hid, hfamily, htable, hchain, ?_⟩
      · rw [hpacket, hm]
        dsimp only
        rw [hhandle]
        rfl
      · show (Groups.get (own ++ l.header) "verdict").map PyStr.upper = _
        rw [hv, hb, Option.map_map]
        rfl
  | decision policy v target =>
    have hpacket : TraceParser.packetRe.match l.text = none := hother.trans (by rw [hb]; cases policy <;> rfl)
    have hrule : TraceParser.ruleRe.match l.text = none := hother.trans (by rw [hb]; cases policy <;> rfl)
    have hm := match_decision l hb
    obtain ⟨hid, hfamily, htable, hchain⟩ :=
      baseEvent_header l (by simp [headerNames] : ∀ x ∈ [("verdict", v.word.toList)], x.1 ∉ headerNames) .verdict
    refine .inl ⟨TraceParser.verdictEvent (("verdict", v.word.toList) :: l.header), by rw [hpacket, hrule, hm]; rfl,
      rfl, hid,
      hfamily, htable, hchain, ?_⟩
    show (Groups.get (("verdict", v.word.toList) :: l.header) "verdict").map PyStr.upper = _
    rw [hb]
    simp [Groups.get, LineBody.carried]

end Parse

end Nse
