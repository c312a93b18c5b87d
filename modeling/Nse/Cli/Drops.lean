/-
  Nse.Cli.Drops — whether a drop by the user's ruleset can be reported as ACCEPT.

  The reducer leaves out the scaffolding's events by the name of their table alone. What it
  makes of a trace is therefore what the lines of the other tables decide
  (`verdictsOfTrace_eq`), and a drop is kept in every trace through a ruleset exactly when
  no chain of the user's is in a table named `nse_trace`, or all of them are
  (`drop_kept_iff`).
-/

import Nse.Cli.Reduction
import Nse.Core.TraceFormat

namespace Nse

variable [U : PyStr.Unicode]

/-! ## Traces -/

def bareIdent (name : String) (ne : name ≠ "") (chars : name.toList.all TraceParser.bareChar = true) : Ident :=
  { name, quoted := false, ne, chars := List.all_eq_true.mp chars }

/-- The chain of `_TRACE_INIT_RULESET`. -/
def scaffoldChain : Chain where
  family := bareIdent "inet" (by decide) (by decide)
  table := bareIdent "nse_trace" (by decide) (by decide)
  chain := bareIdent "nse_trace_prerouting" (by decide) (by decide)

/-- The lines about one packet, each from the scaffolding or from a chain of the user's. -/
def Traverses (user : List Chain) (id : String) (trace : List TraceLine) : Prop :=
  ∀ l ∈ trace, l.id = id ∧ (l.chain = scaffoldChain ∨ l.chain ∈ user)

/-- Some line of a chain of the user's carries drop or reject. -/
def Denied (user : List Chain) (trace : List TraceLine) : Prop :=
  ∃ l ∈ trace, l.chain ∈ user ∧ (l.body.carried = some .drop ∨ l.body.carried = some .reject)

def TraceLine.parsed (l : TraceLine) : Option TraceEvent := TraceParser.eventOf false l.text

/-- The parser raises on the line. -/
def TraceLine.raises (l : TraceLine) : Bool := !(TraceParser.parseLine false l.text).isOk

/-- What the runner makes of a trace: nothing, where the parser raises on a line of it. -/
def verdictsOfTrace (trace : List TraceLine) : List String :=
  if trace.any TraceLine.raises then [] else Runner.reduceVerdicts (trace.filterMap TraceLine.parsed)

/-- The line is of a table that is not called like the scaffolding's. -/
def TraceLine.outside (l : TraceLine) : Bool := l.chain.table.name != Runner.scaffoldTable

/-- The verdict of a line, as the parser has it. -/
def TraceLine.word (l : TraceLine) : Option String := l.body.carried.map fun v => PyStr.upper v.word

/-! ## Words -/

theorem upper_word (v : Verdict) : PyStr.upper v.word = String.ofList (v.word.toList.map Char.toUpper) :=
  PyStr.upper_of_ascii (by cases v <;> decide)

theorem upper_word_ne (v : Verdict) : PyStr.upper v.word ≠ "" := by
  rw [upper_word]
  cases v <;> decide

theorem denial_word {v : Verdict} (hv : v = .drop ∨ v = .reject) :
    (PyStr.upper v.word == "DROP" || PyStr.upper v.word == "REJECT") = true := by
  rw [upper_word]
  rcases hv with rfl | rfl <;> decide

/-- The reducer upper-cases a verdict once more. -/
theorem upper_upper_word (v : Verdict) : PyStr.upper (PyStr.upper v.word) = PyStr.upper v.word := by
  rw [upper_word, PyStr.upper_of_ascii (by cases v <;> decide)]
  cases v <;> decide

/-! ## The lines that count -/

section Lines

variable {id : String} {trace : List TraceLine} {l : TraceLine} {e : TraceEvent}

theorem Parsed.carries (h : Parsed l e) : Runner.carries l.id e = true := by
  refine Runner.carries_iff.mpr ⟨fun ht => ?_, l.id_ne, h.traceId⟩
  have := h.type
  rw [TraceEvent.traced, ht] at this
  cases this

theorem Parsed.reaches (h : Parsed l e) : Runner.reaches e = l.outside := by
  unfold Runner.reaches TraceLine.outside
  rw [h.table]
  simp [l.chain.table.ne]

theorem Parsed.usedVerdict (h : Parsed l e) : Runner.usedVerdict e = if l.outside then l.word else none := by
  unfold Runner.usedVerdict TraceLine.word
  rw [h.reaches, h.verdict]
  cases l.body.carried with
  | none => simp
  | some v => simp [Option.filter, upper_word_ne, upper_upper_word]

/-- A line on which the parser does not raise is parsed. -/
theorem parsed_of_reads (h : l.raises = false) : ∃ e, l.parsed = some e ∧ Parsed l e := by
  rcases parseLine_text l with ⟨e, he, hp⟩ | ⟨-, exc, hexc⟩
  · exact ⟨e, TraceParser.eventOf_of_ok he, hp⟩
  · rw [TraceLine.raises, hexc] at h
    cases h

/-- The id's events, read off the lines. -/
theorem reduced_trace (hid : ∀ l ∈ trace, l.id = id) (hreads : ∀ l ∈ trace, l.raises = false) :
    Runner.reached (trace.filterMap TraceLine.parsed) id = trace.any (·.outside) ∧
      Runner.verdictsOf (trace.filterMap TraceLine.parsed) id =
        (trace.filter (·.outside)).filterMap TraceLine.word := by
  induction trace with
  | nil => exact ⟨rfl, rfl⟩
  | cons l trace ih =>
    obtain ⟨hreached, hverdicts⟩ := ih (fun l' hl' => hid l' (List.mem_cons_of_mem _ hl')) fun l' hl' =>
      hreads l' (List.mem_cons_of_mem _ hl')
    obtain ⟨e, he, hp⟩ := parsed_of_reads (hreads l List.mem_cons_self)
    have hc : Runner.carries id e = true := hid l List.mem_cons_self ▸ hp.carries
    rw [List.filterMap_cons_some he]
    constructor
    · rw [List.any_cons, ← hreached]
      simp [Runner.reached, hc, hp.reaches]
    · unfold Runner.verdictsOf at hverdicts ⊢
      rw [List.filter_cons_of_pos hc, List.filterMap_cons, hverdicts, hp.usedVerdict]
      by_cases hout : l.outside = true
      · rw [List.filter_cons_of_pos (by exact hout), List.filterMap_cons, if_pos hout]
      · rw [List.filter_cons_of_neg (by exact hout), if_neg hout]

/-- A trace is reduced to what the lines outside tables called `nse_trace` decide. -/
theorem verdictsOfTrace_eq (hid : ∀ l ∈ trace, l.id = id) (hreads : ∀ l ∈ trace, l.raises = false) :
    verdictsOfTrace trace =
      (if trace.any (·.outside) then Runner.decideVerdict ((trace.filter (·.outside)).filterMap TraceLine.word)
        else none).toList := by
  obtain ⟨hreached, hverdicts⟩ := reduced_trace hid hreads
  have hsingle : ∀ e ∈ trace.filterMap TraceLine.parsed, ∀ id', Runner.carries id' e = true → id' = id := by
    intro e he id' hc
    obtain ⟨l, hl, hle⟩ := List.mem_filterMap.mp he
    obtain ⟨e', he', hp⟩ := parsed_of_reads (hreads l hl)
    have heq : e' = e := Option.some.inj (he'.symm.trans hle)
    exact Runner.carries_unique (hid l hl ▸ heq ▸ hp.carries) hc
  have hnone : ¬trace.any TraceLine.raises = true := by simpa using hreads
  rw [verdictsOfTrace, if_neg hnone, Runner.reduceVerdicts_single hsingle, Runner.verdictFor, hreached, hverdicts]

/-- What a trace is reduced to, if the parser raises on no line of it. -/
theorem verdictsOfTrace_cases (hid : ∀ l ∈ trace, l.id = id) : verdictsOfTrace trace = [] ∨
    verdictsOfTrace trace =
      (if trace.any (·.outside) then Runner.decideVerdict ((trace.filter (·.outside)).filterMap TraceLine.word)
        else none).toList := by
  by_cases hraises : trace.any TraceLine.raises = true
  · exact .inl (if_pos hraises)
  · exact .inr (verdictsOfTrace_eq hid (by simpa using hraises))

end Lines

/-! ## Drops -/

section Drops

variable {user : List Chain} {id : String} {trace : List TraceLine}

/-- A drop outside tables called `nse_trace` is kept, if anything is reported. -/
theorem drop_kept (htrace : Traverses user id trace) (huser : ∀ c ∈ user, c.table.name ≠ Runner.scaffoldTable)
    (hdenied : Denied user trace) : verdictsOfTrace trace = [] ∨ verdictsOfTrace trace = ["DROP"] := by
  obtain ⟨l, hl, hchain, hcarried⟩ := hdenied
  have hout : l.outside = true := by simpa [TraceLine.outside] using huser l.chain hchain
  obtain ⟨v, hv, hword⟩ : ∃ v : Verdict, (v = .drop ∨ v = .reject) ∧ l.word = some (PyStr.upper v.word) := by
    rcases hcarried with h | h
    · exact ⟨.drop, .inl rfl, by rw [TraceLine.word, h]; rfl⟩
    · exact ⟨.reject, .inr rfl, by rw [TraceLine.word, h]; rfl⟩
  have hdrop : Runner.decideVerdict ((trace.filter (·.outside)).filterMap TraceLine.word) = some "DROP" := by
    refine if_pos (List.any_eq_true.mpr ⟨PyStr.upper v.word, ?_, denial_word hv⟩)
    exact List.mem_filterMap.mpr ⟨l, List.mem_filter.mpr ⟨hl, hout⟩, hword⟩
  refine (verdictsOfTrace_cases fun l hl => (htrace l hl).1).imp_right fun heq => ?_
  rw [heq, if_pos (List.any_eq_true.mpr ⟨l, hl, hout⟩), hdrop]
  rfl

/-- Of chains in tables called `nse_trace` nothing is reported. -/
theorem nothing_reported (htrace : Traverses user id trace) (huser : ∀ c ∈ user, c.table.name = Runner.scaffoldTable) :
    verdictsOfTrace trace = [] := by
  have hnone : trace.any (·.outside) = false := by
    refine List.any_eq_false.mpr fun l hl hout => ?_
    have hname : l.chain.table.name = Runner.scaffoldTable := by
      rcases (htrace l hl).2 with h | h
      · rw [h]
        rfl
      · exact huser l.chain h
    simp [TraceLine.outside, hname] at hout
  rcases verdictsOfTrace_cases fun l hl => (htrace l hl).1 with heq | heq
  · exact heq
  · rw [heq, hnone]
    rfl

/-- A line of the id `a` with a verdict. -/
def decisionLine (c : Chain) (v : Verdict) : TraceLine where
  id := "a"
  chain := c
  body := .decision false v none
  id_ne := by decide
  id_chars := List.all_eq_true.mp (by decide : "a".toList.all TraceParser.hexChar = true)

theorem decisionLine_reads (c : Chain) (v : Verdict) : (decisionLine c v).raises = false := by
  rcases parseLine_text (decisionLine c v) with ⟨e, he, -⟩ | ⟨⟨handle, verdict, x, hbody⟩, -⟩
  · rw [TraceLine.raises, he]
    rfl
  · cases hbody

/-- Accepted by one chain and then dropped in a table called `nse_trace`, a packet is
    reported as accepted. -/
theorem drop_lost {c c' : Chain} (hc : c.table.name ≠ Runner.scaffoldTable)
    (hc' : c'.table.name = Runner.scaffoldTable) :
    verdictsOfTrace [decisionLine c .accept, decisionLine c' .drop] = ["ACCEPT"] := by
  have hid : ∀ l ∈ [decisionLine c .accept, decisionLine c' .drop], l.id = "a" := by
    intro l hl
    simp only [List.mem_cons, List.not_mem_nil, or_false] at hl
    rcases hl with rfl | rfl <;> rfl
  have hout : (decisionLine c .accept).outside = true := by simpa [TraceLine.outside, decisionLine] using hc
  have hin : (decisionLine c' .drop).outside = false := by simp [TraceLine.outside, decisionLine, hc']
  have hword : (decisionLine c .accept).word = some "ACCEPT" := by
    simp only [TraceLine.word, decisionLine, LineBody.carried, Option.map_some, upper_word]
    rfl
  have hreads : ∀ l ∈ [decisionLine c .accept, decisionLine c' .drop], l.raises = false := by
    intro l hl
    simp only [List.mem_cons, List.not_mem_nil, or_false] at hl
    rcases hl with rfl | rfl
    · exact decisionLine_reads c .accept
    · exact decisionLine_reads c' .drop
  rw [verdictsOfTrace_eq hid hreads]
  simp [hout, hin, hword, Runner.decideVerdict]

/-- In every trace through a ruleset a drop is kept, exactly when no table of the ruleset is
    called `nse_trace`, or every one is. -/
theorem drop_kept_iff (user : List Chain) :
    (∀ id trace, Traverses user id trace → Denied user trace → "ACCEPT" ∉ verdictsOfTrace trace) ↔
      (∀ c ∈ user, c.table.name ≠ Runner.scaffoldTable) ∨ ∀ c ∈ user, c.table.name = Runner.scaffoldTable := by
  constructor
  · intro hkept
    by_cases hall : ∀ c ∈ user, c.table.name = Runner.scaffoldTable
    · exact .inr hall
    · left
      intro c' hmem' hc'
      obtain ⟨c, hc⟩ := Classical.not_forall.mp hall
      obtain ⟨hmem, hc⟩ := Classical.not_imp.mp hc
      have htrace : Traverses user "a" [decisionLine c .accept, decisionLine c' .drop] := by
        intro l hl
        simp only [List.mem_cons, List.not_mem_nil, or_false] at hl
        rcases hl with rfl | rfl
        · exact ⟨rfl, .inr hmem⟩
        · exact ⟨rfl, .inr hmem'⟩
      have hdenied : Denied user [decisionLine c .accept, decisionLine c' .drop] :=
        ⟨decisionLine c' .drop, by simp, hmem', .inl rfl⟩
      refine hkept "a" _ htrace hdenied ?_
      rw [drop_lost hc hc']
      exact List.mem_singleton.mpr rfl
  · rintro (hnone | hall) id trace htrace hdenied
    · rcases drop_kept htrace hnone hdenied with heq | heq
      · rw [heq]
        exact List.not_mem_nil
      · rw [heq]
        decide
    · rw [nothing_reported htrace hall]
      exact List.not_mem_nil

end Drops

end Nse

namespace Nse

attribute [local instance] PyStr.Unicode.ascii

/-- `ip filter input`, and a chain in a table that is called like the scaffolding's. -/
def filterInput : Chain where
  family := bareIdent "ip" (by decide) (by decide)
  table := bareIdent "filter" (by decide) (by decide)
  chain := bareIdent "input" (by decide) (by decide)

def nseTraceLate : Chain where
  family := bareIdent "ip" (by decide) (by decide)
  table := bareIdent "nse_trace" (by decide) (by decide)
  chain := bareIdent "late" (by decide) (by decide)

/-- The packet that the user's second table drops is reported as accepted. -/
theorem a_table_called_nse_trace_hides_its_drops : ∃ user trace,
    trace.map TraceLine.text = ["trace id a ip filter input verdict accept",
      "trace id a ip nse_trace late verdict drop"] ∧
      Traverses user "a" trace ∧ Denied user trace ∧ verdictsOfTrace trace = ["ACCEPT"] := by
  refine ⟨[filterInput, nseTraceLate],
    [decisionLine filterInput .accept, decisionLine nseTraceLate .drop], by decide +kernel,
    fun l hl => ?_, ⟨decisionLine nseTraceLate .drop, by simp, by simp [decisionLine], .inl rfl⟩,
      drop_lost (by decide) rfl⟩
  simp only [List.mem_cons, List.not_mem_nil, or_false] at hl
  rcases hl with rfl | rfl
  · exact ⟨rfl, .inr (by simp [decisionLine])⟩
  · exact ⟨rfl, .inr (by simp [decisionLine])⟩

end Nse
