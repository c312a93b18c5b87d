/-
  Nse.Cli.Oracle — what a verdict says about what became of the packet.

  The packets go through the base chains of the namespace (`Nse.Lib.Netfilter`), and nft
  prints the steps that are traced, each on some lines (`Nft`). On its way a packet may meet
  the scaffolding's chain, which sets its trace bit.

  Proved:
  - `drop_reported`: whatever the rules, and whichever lines are lost, only a packet that was
    dropped is reported as dropped.
  - `fate_reported`: a packet that comes past the scaffolding to a base chain of the user's is
    reported with what became of it, once all of its lines are there, unless a rule clears the
    trace bit or a table is called like the scaffolding's.
  - `passes_iff_fates`: so a case passes on the lines of such packets, in whatever order they
    come, exactly when it expects what became of them.
  - `passed_fates`: in every run whose monitor writes what nft prints, a case that passes has
    met its expectations on that many packets, one after another.
  - `a_cleared_bit_hides_the_drop`: a rule that clears the bit makes a drop an accept.
-/

import Mathlib.Data.List.Forall2
import Nse.Cli.Attribution
import Nse.Cli.Drops
import Nse.Cli.ReductionSpec
import Nse.Lib.Netfilter

namespace Nse

open Coroutine
open Netfilter (Base Fate Pkt Rules Step decided traverse)
open Pipeline (ListRef)

variable [U : PyStr.Unicode] {S R : Type}

/-! ## What is printed -/

def Verdict.fate : Verdict → Option Fate
  | .accept => some .accept
  | .drop | .reject => some .drop
  | _ => none

def TraceLine.fate (l : TraceLine) : Option Fate := l.body.carried.bind Verdict.fate

structure TraceId where
  text : String
  ne : text ≠ ""
  chars : ∀ c ∈ text.toList, TraceParser.hexChar c = true

/-- How the steps of a packet are printed: with its id and their chain, and a decision on at
    least one line. -/
structure Nft (R : Type) where
  lines : TraceId → Step Chain R → List TraceLine
  id : ∀ {i x l}, l ∈ lines i x → l.id = i.text
  chain : ∀ {i x l}, l ∈ lines i x → l.chain = x.chain
  reads : ∀ {i x l}, l ∈ lines i x → l.raises = false
  own : ∀ {i x l f}, l ∈ lines i x → l.fate = some f → x.decides = some f
  shown : ∀ {i x f}, x.decides = some f → ∃ l ∈ lines i x, l.fate = some f

/-- A packet, and the base chains on its way. -/
structure Passage (S R : Type) where
  id : TraceId
  path : List (Base S Chain R)
  pkt : Pkt S

namespace Passage

def steps (p : Passage S R) : List (Step Chain R) := (traverse p.path p.pkt).steps

def fate (p : Passage S R) : Fate := (traverse p.path p.pkt).fate

def lines (nft : Nft R) (p : Passage S R) : List TraceLine := p.steps.flatMap (nft.lines p.id)

end Passage

def fateWord : Fate → String
  | .accept => "ACCEPT"
  | .drop => "DROP"

/-- The scaffolding's chain. -/
def scaffolding (r : R) : Base S Chain R where
  chain := scaffoldChain
  rules := .rule r (fun p => ({ p with traced := true }, true)) .continue .done
  policy := .accept

/-- The packet comes past the scaffolding to base chains of the user's, none of which clears
    its trace bit or is in a table called like the scaffolding's. -/
structure Watched (p : Passage S R) (r : R) (before after : List (Base S Chain R)) : Prop where
  path : p.path = before ++ scaffolding r :: after
  arrives : (traverse before p.pkt).fate = .accept
  judged : after ≠ []
  keeps : ∀ b ∈ after, b.rules.Keeps
  tables : ∀ b ∈ after, ∀ c ∈ b.chains, c.table.name ≠ Runner.scaffoldTable

def Guarded (p : Passage S R) : Prop := ∃ r before after, Watched p r before after

/-! ## What is shown -/

/-- What the user's tables show of a packet. -/
def Passage.shown (p : Passage S R) : List Fate :=
  decided (p.steps.filter fun x => x.chain.table.name != Runner.scaffoldTable)

section Shown

omit U

variable {p : Passage S R} {f : Fate}

theorem mem_shown : f ∈ p.shown ↔ ∃ x ∈ p.steps, x.chain.table.name ≠ Runner.scaffoldTable ∧ x.decides = some f := by
  simp [Passage.shown, decided, and_assoc]

theorem fate_of_drop_shown (h : Fate.drop ∈ p.shown) : p.fate = .drop := by
  obtain ⟨x, hx, -, hf⟩ := mem_shown.mp h
  exact Netfilter.traverse_drop (List.mem_filterMap.mpr ⟨x, hx, hf⟩)

/-- What became of a watched packet is shown. -/
theorem fate_shown (h : Guarded p) : p.fate ∈ p.shown := by
  obtain ⟨r, before, after, hw⟩ := h
  let q : Pkt S := { (traverse before p.pkt).pkt with traced := true }
  have hpath :
      traverse p.path p.pkt = ((traverse after q).after ((scaffolding r).run (traverse before p.pkt).pkt).steps).after
      (traverse before p.pkt).steps := by
    rw [hw.path, Netfilter.traverse_append, if_pos hw.arrives, Netfilter.traverse_on rfl]
    rfl
  have hend := Netfilter.traverse_shown hw.keeps hw.judged q
  obtain ⟨n, hn⟩ := hend.traced (Netfilter.traverse_keeps hw.keeps rfl)
  have hmem : (traverse after q).fate ∈ decided (traverse after q).steps := by
    rw [hn]
    simp
  obtain ⟨x, hx, hf⟩ := List.mem_filterMap.mp hmem
  obtain ⟨b, hb, hchain⟩ := Netfilter.traverse_chain hx
  have hfate : p.fate = (traverse after q).fate := by
    rw [Passage.fate, hpath]
    rfl
  refine mem_shown.mpr ⟨x, ?_, hw.tables b hb _ hchain, hfate ▸ hf⟩
  rw [Passage.steps, hpath]
  exact List.mem_append_right _ (List.mem_append_right _ hx)

end Shown

/-! ## What is reported -/

section Reported

variable {nft : Nft R} {p : Passage S R} {l : TraceLine} {e : TraceEvent} {id word : String} {events : List TraceEvent}

theorem word_denied : l.word = some "DROP" ∨ l.word = some "REJECT" ↔ l.fate = some .drop := by
  unfold TraceLine.word TraceLine.fate
  cases l.body.carried with
  | none => simp
  | some v =>
    simp only [Option.map_some, Option.bind_some, upper_word, Option.some.injEq]
    cases v <;> decide

theorem word_accepted : l.word = some "ACCEPT" ↔ l.fate = some .accept := by
  unfold TraceLine.word TraceLine.fate
  cases l.body.carried with
  | none => simp
  | some v =>
    simp only [Option.map_some, Option.bind_some, upper_word, Option.some.injEq]
    cases v <;> decide

theorem Parsed.said_iff (h : Parsed l e) (hword : word ≠ "") :
    Runner.Says id word e ↔ l.id = id ∧ l.outside = true ∧ l.word = some word := by
  rw [Runner.says_iff hword, h.usedVerdict]
  have hcarries : Runner.carries id e = true ↔ l.id = id :=
    ⟨fun hc => Runner.carries_unique hc h.carries, fun hid => hid ▸ h.carries⟩
  rw [hcarries]
  by_cases hout : l.outside = true
  · simp [hout]
  · simp [hout]

theorem parsed_of_parsed (hl : l.raises = false) (h : l.parsed = some e) : Parsed l e := by
  obtain ⟨e', he', hp⟩ := parsed_of_reads hl
  rw [h] at he'
  exact Option.some.inj he' ▸ hp

theorem mem_lines : l ∈ p.lines nft ↔ ∃ x ∈ p.steps, l ∈ nft.lines p.id x := List.mem_flatMap

theorem lines_read (hl : l ∈ p.lines nft) : l.raises = false := by
  obtain ⟨x, -, hl⟩ := mem_lines.mp hl
  exact nft.reads hl

theorem lines_id (hl : l ∈ p.lines nft) : l.id = p.id.text := by
  obtain ⟨x, -, hl⟩ := mem_lines.mp hl
  exact nft.id hl

/-- What counts for this packet is parsed from its own lines. -/
def Told (nft : Nft R) (p : Passage S R) (events : List TraceEvent) : Prop :=
  ∀ e ∈ events, Runner.carries p.id.text e = true → Runner.reaches e = true → ∃ l ∈ p.lines nft, l.parsed = some e

/-- All of its lines are there. -/
def Recorded (nft : Nft R) (p : Passage S R) (events : List TraceEvent) : Prop :=
  ∀ l ∈ p.lines nft, ∃ e ∈ events, l.parsed = some e

theorem said_shown (htold : Told nft p events) (hword : word ≠ "") (h : Runner.Said events p.id.text word) :
    ∃ l : TraceLine, l.word = some word ∧ ∀ f, l.fate = some f → f ∈ p.shown := by
  obtain ⟨e, he, hsays⟩ := h
  have hcounts := (Runner.says_iff hword).mp hsays
  have hreach : Runner.reaches e = true := by
    by_contra hr
    rw [Runner.usedVerdict, if_neg hr] at hcounts
    cases hcounts.2
  obtain ⟨l, hl, hparsed⟩ := htold e he hcounts.1 hreach
  obtain ⟨-, hout, hw⟩ := (parsed_of_parsed (lines_read hl) hparsed).said_iff hword |>.mp hsays
  obtain ⟨x, hx, hlx⟩ := mem_lines.mp hl
  refine ⟨l, hw, fun f hf => mem_shown.mpr ⟨x, hx, ?_, nft.own hlx hf⟩⟩
  rw [← nft.chain hlx]
  simpa [TraceLine.outside] using hout

theorem shown_said {f : Fate} (hrec : Recorded nft p events) (h : f ∈ p.shown) :
    ∃ l : TraceLine, l.fate = some f ∧ ∀ word, word ≠ "" → l.word = some word → Runner.Said events p.id.text word := by
  obtain ⟨x, hx, htable, hf⟩ := mem_shown.mp h
  obtain ⟨l, hlx, hlf⟩ := nft.shown (i := p.id) hf
  have hl : l ∈ p.lines nft := mem_lines.mpr ⟨x, hx, hlx⟩
  obtain ⟨e, he, hparsed⟩ := hrec l hl
  have hout : l.outside = true := by simpa [TraceLine.outside, nft.chain hlx] using htable
  refine ⟨l, hlf, fun word hword hw => ⟨e, he, ?_⟩⟩
  exact (parsed_of_parsed (lines_read hl) hparsed).said_iff hword |>.mpr ⟨lines_id hl, hout, hw⟩

/-- Only a drop is reported as one. -/
theorem drop_reported (htold : Told nft p events) (h : Runner.verdictFor events p.id.text = some "DROP") :
    p.fate = .drop := by
  refine fate_of_drop_shown ?_
  rcases Runner.verdictFor_iff.mp h with ⟨hsaid | hsaid, -⟩ | ⟨-, -, hv⟩
  · obtain ⟨l, hw, hshown⟩ := said_shown htold (by decide) hsaid
    exact hshown .drop (word_denied.mp (.inl hw))
  · obtain ⟨l, hw, hshown⟩ := said_shown htold (by decide) hsaid
    exact hshown .drop (word_denied.mp (.inr hw))
  · exact absurd hv (by decide)

/-- When nothing is lost, a drop that is shown is reported. -/
theorem shown_drop_reported (hrec : Recorded nft p events) (h : Fate.drop ∈ p.shown) :
    Runner.verdictFor events p.id.text = some "DROP" := by
  obtain ⟨l, hf, hsaid⟩ := shown_said hrec h
  have hdenied : Runner.Said events p.id.text "DROP" ∨ Runner.Said events p.id.text "REJECT" := by
    rcases word_denied.mpr hf with hw | hw
    · exact .inl (hsaid _ (by decide) hw)
    · exact .inr (hsaid _ (by decide) hw)
  exact Runner.verdictFor_iff.mpr (.inl ⟨hdenied, rfl⟩)

/-- And without one, an accept. -/
theorem shown_accept_reported (htold : Told nft p events) (hrec : Recorded nft p events) (h : Fate.accept ∈ p.shown)
    (hno : Fate.drop ∉ p.shown) : Runner.verdictFor events p.id.text = some "ACCEPT" := by
  obtain ⟨l, hf, hsaid⟩ := shown_said hrec h
  have hclear : ¬(Runner.Said events p.id.text "DROP" ∨ Runner.Said events p.id.text "REJECT") := by
    intro hdenied
    rcases hdenied with hsaid | hsaid
    · obtain ⟨l, hw, hshown⟩ := said_shown htold (by decide) hsaid
      exact hno (hshown .drop (word_denied.mp (.inl hw)))
    · obtain ⟨l, hw, hshown⟩ := said_shown htold (by decide) hsaid
      exact hno (hshown .drop (word_denied.mp (.inr hw)))
  exact Runner.verdictFor_iff.mpr (.inr ⟨hclear, hsaid "ACCEPT" (by decide) (word_accepted.mpr hf), rfl⟩)

/-- What became of a watched packet is what is reported, when nothing of its trace is lost. -/
theorem fate_reported (htold : Told nft p events) (hrec : Recorded nft p events) (h : Guarded p) :
    Runner.verdictFor events p.id.text = some (fateWord p.fate) := by
  have hshown := fate_shown h
  cases hfate : p.fate with
  | drop =>
    rw [hfate] at hshown
    exact shown_drop_reported hrec hshown
  | accept =>
    rw [hfate] at hshown
    refine shown_accept_reported htold hrec hshown fun hdrop => ?_
    rw [fate_of_drop_shown hdrop] at hfate
    cases hfate

end Reported

/-! ## The lines of many packets -/

section Lines

variable {nft : Nft R} {ps : List (Passage S R)} {lines : List TraceLine}

/-- Every line is about one of the packets, and no line of theirs is lost. -/
structure Traffic (nft : Nft R) (ps : List (Passage S R)) (lines : List TraceLine) : Prop where
  own : ∀ l ∈ lines, ∃ p ∈ ps, l ∈ p.lines nft
  complete : ∀ p ∈ ps, ∀ l ∈ p.lines nft, l ∈ lines
  /-- The packets are listed in the order in which their ids are first seen. -/
  order : (lines.map (·.id)).eraseDups = ps.map (·.id.text)

theorem Traffic.reads (h : Traffic nft ps lines) {l : TraceLine} (hl : l ∈ lines) : l.raises = false := by
  obtain ⟨p, -, hp⟩ := h.own l hl
  exact lines_read hp

theorem Traffic.parsed (h : Traffic nft ps lines) {e : TraceEvent} (he : e ∈ lines.filterMap TraceLine.parsed) :
    ∃ l ∈ lines, l.parsed = some e ∧ Parsed l e := by
  obtain ⟨l, hl, hparsed⟩ := List.mem_filterMap.mp he
  exact ⟨l, hl, hparsed, parsed_of_parsed (h.reads hl) hparsed⟩

theorem Traffic.told (h : Traffic nft ps lines) {p : Passage S R} (hp : p ∈ ps) :
    Told nft p (lines.filterMap TraceLine.parsed) := by
  intro e he hc _
  obtain ⟨l, hl, hparsed, hpe⟩ := h.parsed he
  obtain ⟨q, hq, hlq⟩ := h.own l hl
  have hnodup : (ps.map (·.id.text)).Nodup := by
    rw [← h.order]
    exact eraseDups_nodup _
  have hid : q.id.text = p.id.text := (lines_id hlq).symm.trans (Runner.carries_unique hc hpe.carries)
  have hsame : q = p := List.inj_on_of_nodup_map hnodup hq hp hid
  exact ⟨l, hsame ▸ hlq, hparsed⟩

theorem Traffic.all (h : Traffic nft ps lines) {p : Passage S R} (hp : p ∈ ps) :
    Recorded nft p (lines.filterMap TraceLine.parsed) := by
  intro l hl
  obtain ⟨e, he, -⟩ := parsed_of_reads (lines_read hl)
  exact ⟨e, List.mem_filterMap.mpr ⟨l, h.complete p hp l hl, he⟩, he⟩

theorem Traffic.ids (h : Traffic nft ps lines) : Runner.idsSeen (lines.filterMap TraceLine.parsed) =
    ps.map (·.id.text) := by
  have hcounted : (lines.filterMap TraceLine.parsed).filterMap Runner.countedId = lines.map (·.id) := by
    rw [List.filterMap_filterMap, ← List.filterMap_eq_map]
    refine List.filterMap_congr ?_
    intro l hl
    obtain ⟨e, he, hp⟩ := parsed_of_reads (h.reads hl)
    rw [he]
    exact Runner.countedId_iff.mpr hp.carries
  rw [Runner.idsSeen_eq, Runner.firstIds, hcounted, h.order]

theorem Traffic.entries (h : Traffic nft ps lines) (hguarded : ∀ p ∈ ps, Guarded p) :
    Runner.entries (lines.filterMap TraceLine.parsed) = ps.map fun p => (p.id.text, fateWord p.fate) := by
  rw [Runner.entries, h.ids, List.filterMap_map, ← List.filterMap_eq_map]
  refine List.filterMap_congr ?_
  intro p hp
  rw [Function.comp_apply, fate_reported (h.told hp) (h.all hp) (hguarded p hp)]
  rfl

/-- A case passes on the lines of watched packets, the ones with these ids left out, exactly
    when it expects what became of them. -/
theorem passes_iff_fates (h : Traffic nft ps lines) (hguarded : ∀ p ∈ ps, Guarded p) (name : String)
    (expected ids : List String) :
    (Runner.evaluateCase name expected (Runner.withoutCanaries (lines.filterMap TraceLine.parsed) ids)).passed = true ↔
      expected = (ps.filter fun p => !ids.contains p.id.text).map fun p => fateWord p.fate := by
  have hclean : Runner.Clean (Runner.withoutCanaries (lines.filterMap TraceLine.parsed) ids) := by
    rw [Runner.withoutCanaries_eq]
    intro e he ht
    obtain ⟨l, -, -, hpe⟩ := h.parsed (List.mem_filter.mp he).1
    have htype := hpe.type
    rw [TraceEvent.traced, ht] at htype
    cases htype
  have hreduced : Runner.reduceVerdicts (Runner.withoutCanaries (lines.filterMap TraceLine.parsed) ids) =
      (ps.filter fun p => !ids.contains p.id.text).map fun p => fateWord p.fate := by
    rw [Runner.withoutCanaries_eq, Runner.reduceVerdicts_entries, Runner.entries_delete,
      h.entries hguarded, List.filter_map,
      List.map_map]
    rfl
  rw [Runner.evaluateCase_passed, hreduced]
  exact ⟨fun hp => hp.2.symm, fun hp => ⟨hclean, hp.symm⟩⟩

end Lines

/-! ## Whole runs -/

section Runs

variable {nft : Nft R} {env : Env} {traffic : Passage S R → Prop} {cfg : Pipeline.Config} {req : TestRequest}
  {controller : Option NetnsController} {testId : String} {ref : ListRef} {s t : St}

/-- The monitor writes lines that nft prints for these packets, of which no two have one id. -/
structure Printed (nft : Nft R) (traffic : Passage S R → Prop) (env : Env) : Prop where
  ids : ∀ p q, traffic p → traffic q → p.id.text = q.id.text → p = q
  writes : ∀ s x line, env.writes s x line = true → ∃ p, traffic p ∧ ∃ l ∈ p.lines nft, PyStr.strip line = l.text

/-- What was expected of a packet, and what became of it. -/
structure Met (nft : Nft R) (traffic : Passage S R → Prop) (events : List TraceEvent) (p : Passage S R)
    (v : String) : Prop where
  known : traffic p
  drop : v = "DROP" → p.fate = .drop
  fate : Recorded nft p events → Guarded p → v = fateWord p.fate

/-- Every returned event that reaches the user's ruleset is parsed from a line of one of the
    packets. -/
theorem returned_printed (hprinted : Printed nft traffic env)
    (hrun : Steps (world env) (Pipeline.runTestPipeline cfg req controller testId, {}) (.ret ref, s))
    (hafter : After (world env) s t) {e : TraceEvent} (he : e ∈ ref.read t) (hreach : Runner.reaches e = true) :
    ∃ p, traffic p ∧ ∃ l ∈ p.lines nft, l.parsed = some e := by
  obtain ⟨x, hx⟩ := returned_heard hrun hafter e he hreach
  obtain ⟨-, raw, hraw, hparse⟩ := mem_consumed hx
  have hkept : Kept env (fun _ => True) fun u => ∀ y ∈ u.out, ∃ p, traffic p ∧ ∃ l ∈ p.lines nft,
      PyStr.strip y.2 = l.text :=
    written_kept (P := fun y => ∃ p, traffic p ∧ ∃ l ∈ p.lines nft, PyStr.strip y.2 = l.text) hprinted.writes
  have hout := hkept.stable.after hafter (run_kept hkept (fun _ _ => trivial) (fun _ hy => by cases hy) hrun)
  obtain ⟨p, hp, l, hl, htext⟩ := hout _ (List.mem_of_mem_take hraw)
  refine ⟨p, hp, l, hl, TraceParser.eventOf_eq_some.mpr ?_⟩
  cases hblind : env.blind with
  | true =>
    rw [hblind] at hparse
    cases hparse
  | false => rwa [hblind, htext] at hparse

omit U in
theorem exists_forall₂ {α β : Type} {Q : α → β → Prop} {xs : List β} (h : ∀ x ∈ xs, ∃ y, Q y x) :
    ∃ ys, List.Forall₂ Q ys xs := by
  induction xs with
  | nil => exact ⟨[], .nil⟩
  | cons x xs ih =>
    obtain ⟨y, hy⟩ := h x List.mem_cons_self
    obtain ⟨ys, hys⟩ := ih fun x' hx' => h x' (List.mem_cons_of_mem _ hx')
    exact ⟨y :: ys, .cons hy hys⟩

/-- Each verdict of a run is about one of the packets. -/
theorem entry_met (hprinted : Printed nft traffic env)
    (hrun : Steps (world env) (Pipeline.runTestPipeline cfg req controller testId, {}) (.ret ref, s))
    (hafter : After (world env) s t) {id v : String} (hv : (id, v) ∈ Runner.entries (ref.read t)) :
    ∃ p : Passage S R, p.id.text = id ∧ Met nft traffic (ref.read t) p v := by
  have hverdict := Runner.mem_entries.mp hv
  have hreached : Runner.reached (ref.read t) id = true := by
    by_contra hr
    rw [Runner.verdictFor, if_neg hr] at hverdict
    cases hverdict
  obtain ⟨e, he, hc, hreach⟩ := Runner.reached_iff.mp hreached
  obtain ⟨p, hp, l, hl, hparsed⟩ := returned_printed hprinted hrun hafter he hreach
  have hid : p.id.text = id := by
    rw [← lines_id hl]
    exact Runner.carries_unique hc (parsed_of_parsed (lines_read hl) hparsed).carries
  subst hid
  have htold : Told nft p (ref.read t) := by
    intro e' he' hc' hreach'
    obtain ⟨q, hq, l', hl', hparsed'⟩ := returned_printed hprinted hrun hafter he' hreach'
    have hsame : q = p := by
      refine hprinted.ids q p hq hp ((lines_id hl').symm.trans ?_)
      exact Runner.carries_unique hc' (parsed_of_parsed (lines_read hl') hparsed').carries
    exact ⟨l', hsame ▸ hl', hparsed'⟩
  refine ⟨p, rfl, hp, fun hdrop => drop_reported htold (hdrop ▸ hverdict), fun hrec hguarded => ?_⟩
  rw [fate_reported htold hrec hguarded] at hverdict
  exact (Option.some.inj hverdict).symm

/-- Whatever the run, a case that passes has met its expectations, in this order, on as many
    packets: no two are the same, and they come as their ids are first seen. -/
theorem passed_fates (hprinted : Printed nft traffic env)
    (hrun : Steps (world env) (Pipeline.runTestPipeline cfg req controller testId, {}) (.ret ref, s))
    (hafter : After (world env) s t) {name : String} {expected : List String}
    (hpassed : (Runner.evaluateCase name expected (ref.read t)).passed = true) :
    ∃ ps : List (Passage S R), (ps.map (·.id.text)).Sublist (Runner.firstIds (ref.read t)) ∧
      List.Forall₂ (Met nft traffic (ref.read t)) ps expected := by
  obtain ⟨-, hreduced⟩ := Runner.evaluateCase_passed.mp hpassed
  obtain ⟨ps, hps⟩ := exists_forall₂ (Q := fun (p : Passage S R) (x : String × String) =>
    p.id.text = x.1 ∧ Met nft traffic (ref.read t) p x.2) fun x hx => entry_met hprinted hrun hafter hx
  have hids : ps.map (·.id.text) = (Runner.entries (ref.read t)).map (·.1) := by
    generalize Runner.entries (ref.read t) = xs at hps
    induction hps with
    | nil => rfl
    | cons h _ ih => rw [List.map_cons, List.map_cons, h.1, ih]
  refine ⟨ps, ?_, ?_⟩
  · rw [hids, Runner.entries_ids, Runner.idsSeen_eq]
    exact List.filter_sublist
  · rw [← hreduced, Runner.reduceVerdicts_entries, List.forall₂_map_right_iff]
    exact hps.imp fun _ _ h => h.2

end Runs

end Nse

namespace Nse

open Coroutine
open Netfilter (Base Fate Pkt Rules Step decided traverse)
open Pipeline (ListRef)

attribute [local instance] PyStr.Unicode.ascii

/-! ## A printer -/

/-- The text of a rule. -/
structure RuleName where
  text : String
  ne : text ≠ ""
  chars : text.toList.all TraceParser.dot = true
  plain : ¬"0x".toList <+: text.toList

def fateVerdict : Fate → Verdict
  | .accept => .accept
  | .drop => .drop

/-- A rule without its handle. -/
def ruleBody (r : RuleName) (v : Verdict) : LineBody :=
  .rule none (some v) ⟨r.text, r.ne, List.all_eq_true.mp r.chars, fun _ => r.plain, fun h => by cases h⟩

/-- A rule that decides is followed by its verdict. -/
def stepBodies : Step Chain RuleName → List LineBody
  | .packet _ => [.packet " iif \"veth-nse\""]
  | .rule _ r none => [ruleBody r .continue]
  | .rule _ r (some f) => [ruleBody r (fateVerdict f), .decision false (fateVerdict f) none]
  | .leave _ => [.decision false .continue none]
  | .policy _ f => [.decision true (fateVerdict f) none]

def bodyLine (i : TraceId) (c : Chain) (body : LineBody) : TraceLine := ⟨i.text, c, body, i.ne, i.chars⟩

def stepLines (i : TraceId) (x : Step Chain RuleName) : List TraceLine := (stepBodies x).map (bodyLine i x.chain)

/-- The parser does not raise on a rule without a handle. -/
theorem noHandle_reads {l : TraceLine} {verdict : Option Verdict} {x : RuleText none verdict}
    (hb : l.body = .rule none verdict x) :
    l.raises = false := by
  have hmatch := l.match_prefixed (.seq (.lit "rule ") (.seq (.opt TraceParser.handleRe) TraceParser.textRe))
  rw [hb] at hmatch
  have hmatch := hmatch.trans (Backtrack.run_lit "rule " _ _ _ _)
  have hrest : (verdict.elim [] fun v => verdictChars v.word.toList).head? ≠ some 'x' := by
    cases verdict with
    | none => simp
    | some v => cases v <;> decide
  have hopt := run_noHandle (q := Backtrack.after (some ' ') "rule ".toList) (g := l.header)
    (k := fun b => TraceParser.textRe.run b fun a => some a.groups) (TraceParser.toList_ne x.ne) (x.noHandle rfl) hrest
  have hrule := hmatch.trans (hopt.trans (x.run _ _))
  have hhandle : TraceParser.readHandle ((verdict.elim [] fun v => [("verdict", v.word.toList)]) ++
      ("rule_text", x.text.toList) :: l.header) = .ok none := by
    cases verdict <;> rfl
  rcases parseLine_text l with ⟨e, he, -⟩ | ⟨-, exc, he⟩
  · rw [TraceLine.raises, he]
    rfl
  · unfold TraceParser.parseLine at he
    cases hpacket : TraceParser.packetRe.match l.text with
    | some m =>
      rw [hpacket] at he
      cases he
    | none =>
      have hm : TraceParser.ruleRe.match l.text = _ := hrule
      rw [hpacket, hm] at he
      dsimp only at he
      rw [hhandle] at he
      cases he

theorem ruleBody_reads (i : TraceId) (c : Chain) (r : RuleName) (v : Verdict) :
    (bodyLine i c (ruleBody r v)).raises = false :=
  noHandle_reads (l := bodyLine i c (ruleBody r v)) rfl

theorem stepBodies_reads {i : TraceId} {c : Chain} {x : Step Chain RuleName} {b : LineBody} (hb : b ∈ stepBodies x) :
    (bodyLine i c b).raises = false := by
  have hother : (∀ handle verdict text, b ≠ .rule handle verdict text) → (bodyLine i c b).raises = false := by
    intro hne
    rcases parseLine_text (bodyLine i c b) with ⟨e, he, -⟩ | ⟨⟨handle, verdict, text, hbody⟩, -⟩
    · rw [TraceLine.raises, he]
      rfl
    · exact absurd hbody (hne handle verdict text)
  cases x with
  | packet c' =>
    rw [List.mem_singleton.mp hb] at hother ⊢
    exact hother (by simp)
  | leave c' =>
    rw [List.mem_singleton.mp hb] at hother ⊢
    exact hother (by simp)
  | policy c' f =>
    rw [List.mem_singleton.mp hb] at hother ⊢
    exact hother (by simp)
  | rule c' r f =>
    cases f with
    | none =>
      rw [List.mem_singleton.mp hb]
      exact ruleBody_reads ..
    | some f =>
      rcases List.mem_cons.mp hb with rfl | hb
      · exact ruleBody_reads ..
      · rw [List.mem_singleton.mp hb] at hother ⊢
        exact hother (by simp)

theorem fateVerdict_fate (f : Fate) : (fateVerdict f).fate = some f := by
  cases f <;> rfl

theorem stepBodies_own {x : Step Chain RuleName} {b : LineBody} (hb : b ∈ stepBodies x) {f : Fate}
    (hf : b.carried.bind Verdict.fate = some f) : x.decides = some f := by
  have hmem := hb
  cases x with
  | packet c =>
    rw [List.mem_singleton.mp hmem] at hf
    cases hf
  | rule c r g =>
    cases g with
    | none =>
      rw [List.mem_singleton.mp hmem] at hf
      cases hf
    | some g =>
      have hg : (fateVerdict g).fate = some f := by
        simp only [stepBodies, List.mem_cons, List.not_mem_nil, or_false] at hmem
        rcases hmem with rfl | rfl
        · exact hf
        · exact hf
      rw [fateVerdict_fate] at hg
      exact hg
  | leave c =>
    rw [List.mem_singleton.mp hmem] at hf
    cases hf
  | policy c g =>
    rw [List.mem_singleton.mp hmem] at hf
    have hg : (fateVerdict g).fate = some f := hf
    rw [fateVerdict_fate] at hg
    exact hg

theorem stepBodies_shown {x : Step Chain RuleName} {f : Fate} (h : x.decides = some f) :
    ∃ b ∈ stepBodies x, b.carried.bind Verdict.fate = some f := by
  cases x with
  | packet c => cases h
  | leave c => cases h
  | rule c r g =>
    have hg : g = some f := h
    subst hg
    exact ⟨_, List.mem_cons_self, fateVerdict_fate f⟩
  | policy c g =>
    have hg : g = f := Option.some.inj h
    subst hg
    exact ⟨_, List.mem_cons_self, fateVerdict_fate g⟩

def plainNft : Nft RuleName where
  lines := stepLines
  id h := by
    obtain ⟨b, -, rfl⟩ := List.mem_map.mp h
    rfl
  chain h := by
    obtain ⟨b, -, rfl⟩ := List.mem_map.mp h
    rfl
  reads h := by
    obtain ⟨b, hb, rfl⟩ := List.mem_map.mp h
    exact stepBodies_reads hb
  own h hf := by
    obtain ⟨b, hb, rfl⟩ := List.mem_map.mp h
    exact stepBodies_own hb hf
  shown hf := by
    obtain ⟨b, hb, hbf⟩ := stepBodies_shown hf
    exact ⟨_, List.mem_map_of_mem hb, hbf⟩

/-! ## Packets to a port -/

def setTrace : RuleName := ⟨"meta nftrace set 1", by decide, by decide, by decide⟩

def clearTrace : RuleName := ⟨"meta nftrace set 0", by decide, by decide, by decide⟩

def refuseSsh : RuleName := ⟨"tcp dport 22 drop", by decide, by decide, by decide⟩

def hexId (text : String) (ne : text ≠ "") (chars : text.toList.all TraceParser.hexChar = true) : TraceId :=
  ⟨text, ne, List.all_eq_true.mp chars⟩

def admitWeb : RuleName := ⟨"tcp dport 80 accept", by decide, by decide, by decide⟩

/-- `ip filter input`: port 22 is refused, port 80 let in. -/
def inputBase : Base Nat Chain RuleName where
  chain := filterInput
  rules := .rule refuseSsh (fun p => (p, p.data == 22)) (.decide .drop)
    (.rule admitWeb (fun p => (p, p.data == 80)) (.decide .accept) .done)
  policy := .drop

/-- A chain that stops the tracing, and drops. -/
def silentBase : Base Nat Chain RuleName where
  chain := filterInput
  rules := .rule clearTrace (fun p => ({ p with traced := false }, true)) .continue .done
  policy := .drop

/-- A packet to a port. -/
def toPort (port : Nat) (i : TraceId) : Passage Nat RuleName := ⟨i, [scaffolding setTrace, inputBase], ⟨port, false⟩⟩

theorem toPort_guarded (port : Nat) (i : TraceId) : Guarded (toPort port i) := by
  refine ⟨setTrace, [], [inputBase], rfl, rfl, by simp, ?_, ?_⟩
  · intro b hb
    rw [List.mem_singleton.mp hb]
    exact ⟨fun p hp => hp, fun p hp => hp, trivial⟩
  · intro b hb c hc
    rw [List.mem_singleton.mp hb] at hc
    rw [List.mem_singleton.mp hc]
    decide

def sshPacket : Passage Nat RuleName := toPort 22 (hexId "b0" (by decide) (by decide))

def webPacket : Passage Nat RuleName := toPort 80 (hexId "b1" (by decide) (by decide))

/-- The lines of two packets, one among the other's. -/
def mixedLines : List TraceLine :=
  (sshPacket.lines plainNft).take 3 ++ (webPacket.lines plainNft ++ (sshPacket.lines plainNft).drop 3)

theorem mixed_traffic : Traffic plainNft [sshPacket, webPacket] mixedLines where
  own l hl := by
    rcases List.mem_append.mp hl with hl | hl
    · exact ⟨sshPacket, by simp, List.mem_of_mem_take hl⟩
    · rcases List.mem_append.mp hl with hl | hl
      · exact ⟨webPacket, by simp, hl⟩
      · exact ⟨sshPacket, by simp, List.mem_of_mem_drop hl⟩
  complete p hp l hl := by
    simp only [List.mem_cons, List.not_mem_nil, or_false] at hp
    rcases hp with rfl | rfl
    · rw [← List.take_append_drop 3 (sshPacket.lines plainNft)] at hl
      rcases List.mem_append.mp hl with hl | hl
      · exact List.mem_append_left _ hl
      · exact List.mem_append_right _ (List.mem_append_right _ hl)
    · exact List.mem_append_right _ (List.mem_append_left _ hl)
  order := by decide

/-- Of a refused packet and one that is let in, these verdicts are expected. -/
theorem passes_iff_fates_sample :
    (Runner.evaluateCase "two" ["DROP", "ACCEPT"]
      (Runner.withoutCanaries (mixedLines.filterMap TraceLine.parsed) [])).passed =
      true := by
  refine (passes_iff_fates mixed_traffic (fun p hp => ?_) "two" ["DROP", "ACCEPT"] []).mpr (by decide)
  simp only [List.mem_cons, List.not_mem_nil, or_false] at hp
  rcases hp with rfl | rfl
  · exact toPort_guarded ..
  · exact toPort_guarded ..

/-- The port is let in, and then everything dropped in silence. -/
def silencedPacket : Passage Nat RuleName := ⟨webPacket.id, [scaffolding setTrace, inputBase, silentBase], ⟨80, false⟩⟩

theorem silenced_traffic : Traffic plainNft [silencedPacket] (silencedPacket.lines plainNft) where
  own l hl := ⟨silencedPacket, by simp, hl⟩
  complete p hp l hl := List.mem_singleton.mp hp ▸ hl
  order := by decide

/-- All of its lines are there, and a packet that was dropped is reported as accepted. -/
theorem a_cleared_bit_hides_the_drop : silencedPacket.fate = .drop ∧
    Runner.verdictFor ((silencedPacket.lines plainNft).filterMap TraceLine.parsed) silencedPacket.id.text =
      some "ACCEPT" := by
  have hmem : silencedPacket ∈ [silencedPacket] := by simp
  exact ⟨by decide, shown_accept_reported (silenced_traffic.told hmem) (silenced_traffic.all hmem)
    (by decide) (by decide)⟩

/-! ## A run -/

theorem a1_ne : "a1" ≠ "" := by decide

theorem a1_hex : "a1".toList.all TraceParser.hexChar = true := by decide

def firstCanary : Passage Nat RuleName := toPort 80 (hexId "a1" a1_ne a1_hex)

def lastCanary : Passage Nat RuleName := toPort 80 (hexId "c1" (by decide) (by decide))

/-- The packets of the run. -/
def ofSsh (p : Passage Nat RuleName) : Prop := p = firstCanary ∨ p = sshPacket ∨ p = lastCanary

/-- The monitor writes one line of each canary, and any line of the test packet. -/
def sshEnv : Env where
  writes := writesOnly ([.canary .readiness 1, .canary .liveness 1].map (fun p => (p, lineOf p)) ++
    (sshPacket.lines plainNft).map fun l => (.test 0, l.text))

theorem sshEnv_printed : Printed plainNft ofSsh sshEnv where
  ids p q hp hq h := by
    rcases hp with rfl | rfl | rfl
    · rcases hq with rfl | rfl | rfl
      · rfl
      · exact absurd h (by decide)
      · exact absurd h (by decide)
    · rcases hq with rfl | rfl | rfl
      · exact absurd h (by decide)
      · rfl
      · exact absurd h (by decide)
    · rcases hq with rfl | rfl | rfl
      · exact absurd h (by decide)
      · exact absurd h (by decide)
      · rfl
  writes s x line hw := by
    have hmem := hw
    simp only [sshEnv, writesOnly, List.contains_iff_mem, List.map_cons, List.map_nil,
      List.cons_append, List.nil_append,
      List.mem_cons, List.mem_map, Prod.mk.injEq] at hmem
    rcases hmem with ⟨-, rfl⟩ | ⟨-, rfl⟩ | ⟨l, hl, -, rfl⟩
    -- the line after the one of the rule that lets the packet in
    · exact ⟨firstCanary, .inl rfl, _, List.mem_of_getElem? (i := 6) rfl, by decide +kernel⟩
    · exact ⟨lastCanary, .inr (.inr rfl), _, List.mem_of_getElem? (i := 6) rfl, by decide +kernel⟩
    · have hstrip : ∀ l ∈ sshPacket.lines plainNft, PyStr.strip l.text = l.text := by decide +kernel
      exact ⟨sshPacket, .inr (.inl rfl), l, hl, hstrip l hl⟩

/-- The whole trace of the test packet is written and read, once. -/
def sshEvents (s : St) : Req → List Ev
  | .sleep ms =>
    if s.marks.getLast? = some (.injected (.test 0)) then
      if s.out.any (·.1 == .test 0) then []
      else ((sshPacket.lines plainNft).map fun l => Ev.write (.test 0) l.text) ++
        (sshPacket.lines plainNft).map fun _ => .line
    else obligingEvents s (.sleep ms)
  | a => obligingEvents s a

/-- The case passes, and the list holds the trace of the test packet. -/
def wholeDrop (ref : ListRef) (s : St) : Bool :=
  (Runner.evaluateCase "ssh" ["DROP"] (ref.read s)).passed &&
    decide ((sshPacket.lines plainNft).map TraceLine.parsed = (ref.read s).map some)

theorem recorded_wholeDrop {ref : ListRef} {s : St} (h : wholeDrop ref s = true) :
    (Runner.evaluateCase "ssh" ["DROP"] (ref.read s)).passed = true ∧ Recorded plainNft sshPacket (ref.read s) := by
  rw [wholeDrop, Bool.and_eq_true, decide_eq_true_eq] at h
  refine ⟨h.1, fun l hl => ?_⟩
  have hparsed : l.parsed ∈ (ref.read s).map some := h.2 ▸ List.mem_map_of_mem hl
  obtain ⟨e, he, heq⟩ := List.mem_map.mp hparsed
  exact ⟨e, he, heq.symm⟩

theorem wholeDrop_played : Script.returned wholeDrop ((schedule sshEnv obligingReply sshEvents).play 200
    (Pipeline.runTestPipeline {} sampleRequest none "a1b2c3d4e5f6") {}) = true := by
  decide +kernel

/-- An expected drop is met by the packet that was dropped, and all of its lines are returned. -/
theorem passed_fates_sample : ∃ ref s, ∃ p : Passage Nat RuleName,
    Steps (world sshEnv) (Pipeline.runTestPipeline {} sampleRequest none "a1b2c3d4e5f6", {}) (.ret ref, s) ∧
      (Recorded plainNft p (ref.read s) ∧ Guarded p) ∧ Met plainNft ofSsh (ref.read s) p "DROP" := by
  obtain ⟨ref, s, hrun, hp⟩ := Script.returned_steps (schedule_fits _ _ _) wholeDrop_played
  obtain ⟨hpass, hrecorded⟩ := recorded_wholeDrop hp
  obtain ⟨ps, -, hmet⟩ := passed_fates sshEnv_printed hrun .refl hpass
  cases hmet with
  | @cons p _ _ _ h _ =>
    -- the canaries were let in
    have hsame : p = sshPacket := by
      rcases h.known with rfl | rfl | rfl
      · exact absurd (h.drop rfl) (by decide)
      · rfl
      · exact absurd (h.drop rfl) (by decide)
    subst hsame
    exact ⟨ref, s, _, hrun, ⟨hrecorded, toPort_guarded ..⟩, h⟩

end Nse
