/-
  Nse.Core.Blindness — what a parser that understands nothing leaves behind.

  `NSE_FORCE_BLIND` makes the parser blind. A blind read loop counts every line, and counts
  as trace output each line it would have understood: the three patterns begin with the
  prefix that `_TRACE_LINE_RE` looks for (`recognised_of_event`). So the blindness shows, line
  by line, in `unparsed_trace_lines`.

  Two sessions on the same lines, a blind one and one that sees, each read to the end:
  - `blind_counts`: the blind one produces nothing, the lines that are no trace output are
    counted alike, and its count of trace lines is the events and the count of the other.
  - `blindness_counted_iff`: so it is for a sequence of lines exactly when on none of them
    the parser hands `int` a handle that it refuses. On such a line the loop that sees ends,
    while the blind one counts it and reads on (`a_blind_loop_reads_further`).
-/

import Nse.Core.LineAccounting
import Nse.Core.TraceRoundTrip
import Nse.Lib.PyFields

namespace Nse

open Coroutine
open Relation (ReflTransGen)

variable [U : PyStr.Unicode]

/-! ## What is recognised -/

theorem isSpace_hexChar {c : Char} (h : TraceParser.hexChar c = true) : U.isSpace c = false := by
  have hrange : 48 ≤ c.toNat ∧ c.toNat ≤ 102 := by
    simp only [TraceParser.hexChar, Char.isDigit, Bool.or_eq_true, Bool.and_eq_true, decide_eq_true_eq, Char.le_def,
      UInt32.le_iff_toNat_le] at h
    rcases h with (⟨hlow, hhigh⟩ | ⟨hlow, hhigh⟩) | ⟨hlow, hhigh⟩
    · exact ⟨hlow, Nat.le_trans hhigh (by decide)⟩
    · exact ⟨Nat.le_trans (by decide) hlow, hhigh⟩
    · exact ⟨Nat.le_trans (by decide) hlow, Nat.le_trans hhigh (by decide)⟩
  exact PyStr.isSpace_visible (by omega) (by omega)

/-- A line with the prefix looks like trace output. -/
theorem looksTraced_prefixed {r : Backtrack.Re} {line : String} {m : Backtrack.Groups}
    (h : (TraceParser.prefixed r).match line = some m) : looksTraced line = true := by
  obtain ⟨t, ht, h⟩ := Backtrack.literal_some h
  obtain ⟨id, t, hne, rfl, hid, -⟩ := Backtrack.field_some h
  have hsolid : ∀ c ∈ id, (!U.isSpace c) = true := fun c hc => by rw [isSpace_hexChar (hid c hc)]; rfl
  have hword : ((Backtrack.Re.plus fun c => !U.isSpace c).run ⟨some ' ', id ++ ' ' :: t, []⟩ fun b =>
      (Backtrack.Re.lit " ").run b fun a => some a.groups) = some [] := by
    refine Backtrack.run_plus_longest ((Backtrack.stops_cons ..).mpr ?_) hne hsolid _ rfl
    rw [PyStr.isSpace_blank]
    rfl
  have hrun : TraceParser.traceLineRe.match line = some [] := by
    unfold TraceParser.traceLineRe Backtrack.Re.match
    rw [ht]
    exact (Backtrack.run_lit _ _ _ _ _).trans hword
  rw [looksTraced, hrun, Option.isSome_some]

/-- Every line the parser understands is recognised. -/
theorem recognised_of_event {blind : Bool} {line : String} {e : TraceEvent}
    (h : TraceParser.eventOf blind line = some e) : looksTraced line = true := by
  obtain ⟨m, hm, -⟩ | ⟨m, handle, hm, -, -⟩ | ⟨m, hm, -⟩ :=
    TraceParser.parseLine_cases (TraceParser.eventOf_eq_some.mp h)
  · exact looksTraced_prefixed hm
  · exact looksTraced_prefixed hm
  · exact looksTraced_prefixed hm

/-! ## Two sessions -/

/-- A session in which the monitor wrote these lines and the loop has read them all. -/
structure ReadsAll (env : Env) (lines : List String) (σ : Session) : Prop where
  run : ∃ clock timeout cs, PoolSteps (sessions env) IsCall ([], Session.started clock timeout) (cs, σ)
  written : σ.s.out.map (·.2) = lines
  read : σ.s.nread = lines.length
  between : σ.s.loop.inHand = []
  going : σ.cancelled = false

/-- Both loops get through the lines, and whenever they have, what was understood is counted
    by the blind one. -/
structure BlindnessCounted (lines : List String) : Prop where
  through : ∀ blind, ∃ σ, ReadsAll { maxsize := 0, blind } lines σ
  counted : ∀ (env env' : Env) (σ τ : Session), env.blind = true → env'.blind = false → ReadsAll env lines σ →
    ReadsAll env' lines τ → σ.s.produced = [] ∧ σ.s.collected = [] ∧ σ.s.h.unparsedOtherLines =
      τ.s.h.unparsedOtherLines ∧
      σ.s.h.unparsedTraceLines = τ.s.produced.length + τ.s.h.unparsedTraceLines

/-- A rule, to the parser, whose handle `int` refuses. -/
def HandleRefused (line : String) : Prop :=
  TraceParser.packetRe.match line = none ∧ ∃ m handle exc, TraceParser.ruleRe.match line = some m ∧
    m.get "handle" = some handle ∧ intOf handle = .error exc

/-! ## The counts -/

/-- What is counted on all the lines is counted on those that are understood, and on the others. -/
theorem countP_split (blind : Bool) (p : String → Bool) (lines : List String) : lines.countP p =
    (lines.filter fun line => (TraceParser.eventOf blind line).isSome).countP p +
      (lines.filter fun line => (TraceParser.eventOf blind line).isNone).countP p := by
  have hsplit := List.countP_eq_countP_filter_add lines p fun line => (TraceParser.eventOf blind line).isSome
  simpa using hsplit

section Pair

variable {env : Env} {lines : List String} {σ : Session}

/-- The lines a session has read, stripped, without the blank ones. -/
theorem ReadsAll.nonblank (h : ReadsAll env lines σ) : nonblank σ.s = (lines.map PyStr.strip).filter (· ≠ "") := by
  have hlength : σ.s.out.length = lines.length := by rw [← h.written, List.length_map]
  unfold Nse.nonblank
  rw [h.read, ← hlength, List.take_length, ← h.written, List.map_map]
  rfl

theorem ReadsAll.accounted (h : ReadsAll env lines σ) : Accounted env σ := by
  obtain ⟨clock, timeout, cs, hrun⟩ := h.run
  exact sessions_accounted hrun

theorem ReadsAll.produced (h : ReadsAll env lines σ) : parsedEvents env σ.s = σ.s.produced := by
  rw [h.accounted.events, h.accounted.whole h.going, h.between, List.append_nil, List.append_nil]

end Pair

/-- The blind loop counts what the other understood. -/
theorem blind_counts {env env' : Env} {lines : List String} {σ τ : Session} (hblind : env.blind = true)
    (hσ : ReadsAll env lines σ) (hτ : ReadsAll env' lines τ) : σ.s.produced = [] ∧ σ.s.collected = [] ∧
      σ.s.h.unparsedOtherLines = τ.s.h.unparsedOtherLines ∧
        σ.s.h.unparsedTraceLines = τ.s.produced.length + τ.s.h.unparsedTraceLines := by
  have hsame : nonblank σ.s = nonblank τ.s := hσ.nonblank.trans hτ.nonblank.symm
  have hnothing : ∀ line, TraceParser.eventOf env.blind line = none := fun line => by rw [hblind]; rfl
  have hnone : σ.s.produced = [] := by
    rw [← hσ.produced, parsedEvents]
    exact List.filterMap_eq_nil_iff.mpr fun line _ => hnothing line
  have hall : unparsed env σ.s = nonblank τ.s := by
    rw [unparsed, hsame]
    exact List.filter_eq_self.mpr fun line _ => by rw [hnothing]; rfl
  have hunderstood : ∀ line ∈ (nonblank τ.s).filter fun line => (TraceParser.eventOf env'.blind line).isSome,
      looksTraced line = true := by
    intro line hline
    obtain ⟨e, he⟩ := Option.isSome_iff_exists.mp (List.mem_filter.mp hline).2
    exact recognised_of_event he
  refine ⟨hnone, hσ.accounted.calls.trans hnone, ?_, ?_⟩
  · have hzero : ((nonblank τ.s).filter fun line => (TraceParser.eventOf env'.blind line).isSome).countP
        (fun line => !looksTraced line) = 0 := by
      refine List.countP_eq_zero.mpr fun line hline => ?_
      rw [hunderstood line hline]
      decide
    rw [hσ.accounted.other, hτ.accounted.other, hall, countP_split env'.blind, hzero, Nat.zero_add]
    rfl
  · rw [hσ.accounted.traced, hτ.accounted.traced, hall, countP_split env'.blind, ← hτ.produced, parsedEvents,
      List.length_filterMap_eq_countP,
        List.countP_eq_length_filter (p := fun line => (TraceParser.eventOf env'.blind line).isSome),
      List.countP_eq_length.mpr hunderstood]
    rfl

/-! ## What the loop gets through -/

/-- The parser raised on no line that the loop has passed. -/
structure Passed (env : Env) (s : St) : Prop where
  nread : s.nread ≤ s.out.length
  parsed : ∀ line ∈ nonblank s, ∃ o, TraceParser.parseLine env.blind line = .ok o

section Passed

variable {env : Env} {s t : St}

theorem Passed.next {p : Packet} {line : String} (h : Passed env s) (hnext : Next s p line)
    (hline : line ≠ "" → ∃ o, TraceParser.parseLine env.blind line = .ok o) (hout : t.out = s.out)
      (hread : t.nread = s.nread + 1) :
    Passed env t := by
  have hgrown : nonblank t = nonblank s ++ if line = "" then [] else [line] := by
    rw [← hnext.nonblank]
    unfold nonblank
    rw [hout, hread]
  refine ⟨by rw [hout, hread]; exact hnext.lt, fun l hl => ?_⟩
  rw [hgrown] at hl
  rcases List.mem_append.mp hl with hl | hl
  · exact h.parsed l hl
  · split at hl
    · cases hl
    · rename_i hne
      rw [List.mem_singleton.mp hl]
      exact hline hne

theorem Passed.move (h : Passed env s) (hm : Move env s t) : Passed env t := by
  cases hm with
  | write p line _ _ _ =>
    refine ⟨?_, fun l hl => h.parsed l ?_⟩
    · rw [List.length_append]
      exact Nat.le_add_right_of_le h.nread
    · rwa [nonblank_write h.nread] at hl
  | blank p hnext => exact h.next hnext (absurd rfl) rfl rfl
  | unparsed p line hnext _ hp => exact h.next hnext (fun _ => ⟨_, hp⟩) rfl rfl
  | parsed p line e hnext _ hp => exact h.next hnext (fun _ => ⟨_, hp⟩) rfl rfl
  | _ => exact ⟨h.nread, h.parsed⟩

/-- In every session. -/
theorem sessions_passed {clock timeout : Nat} {cs : List (Prog (Option HarvestState))} {σ : Session}
    (h : PoolSteps (sessions env) IsCall ([], Session.started clock timeout) (cs, σ)) : Passed env σ.s := by
  have hstable : Stable (sessions env) fun σ => Passed env σ.s := Session.stable_of_moves fun _ _ h hm => h.move hm
  refine (pool_only (p := fun _ => True) hstable ?_ (fun c _ => only_all (fun _ => trivial) c) h ⟨?_, ?_⟩).2
  · rintro σ a r τ - hσ ⟨-, rfl⟩
    rw [Session.answered_s]
    have hlines : nonblank (effect env σ.s a r) = nonblank σ.s := by
      unfold nonblank
      rw [effect_out, effect_nread]
    exact ⟨by rw [effect_out, effect_nread]; exact hσ.nread, fun line hl => hσ.parsed line (hlines ▸ hl)⟩
  · intro c hc
    cases hc
  · exact ⟨Nat.le_refl _, fun line hl => by cases hl⟩

end Passed

/-- Where the parser raises. -/
theorem raises_iff {line : String} : (∃ exc, TraceParser.parseLine false line = .error exc) ↔ HandleRefused line := by
  have hparse : ∀ {m : Backtrack.Groups}, TraceParser.packetRe.match line = none →
      TraceParser.ruleRe.match line = some m →
      TraceParser.parseLine false line = (TraceParser.readHandle m).map fun handle =>
        some (TraceParser.ruleEvent m handle) := by
    intro m hpacket hrule
    simp only [TraceParser.parseLine, hpacket, hrule, Bool.false_eq_true, if_false]
  constructor
  · rintro ⟨exc, hexc⟩
    cases hpacket : TraceParser.packetRe.match line with
    | some m =>
      simp only [TraceParser.parseLine, hpacket, Bool.false_eq_true, if_false] at hexc
      cases hexc
    | none =>
      cases hrule : TraceParser.ruleRe.match line with
      | none =>
        simp only [TraceParser.parseLine, hpacket, hrule, Bool.false_eq_true, if_false] at hexc
        cases hexc
      | some m =>
        rw [hparse hpacket hrule, TraceParser.readHandle] at hexc
        cases hhandle : m.get "handle" with
        | none =>
          rw [hhandle] at hexc
          cases hexc
        | some handle =>
          rw [hhandle] at hexc
          dsimp only at hexc
          cases hint : intOf handle with
          | ok n =>
            rw [hint] at hexc
            cases hexc
          | error exc' => exact ⟨hpacket, m, handle, exc', hrule, hhandle, hint⟩
  · rintro ⟨hpacket, m, handle, exc, hrule, hhandle, hint⟩
    refine ⟨exc, ?_⟩
    rw [hparse hpacket hrule, TraceParser.readHandle, hhandle]
    dsimp only
    rw [hint]
    rfl

theorem HandleRefused.nonblank {line : String} (h : HandleRefused line) : line ≠ "" := by
  rintro rfl
  obtain ⟨-, m, -, -, hrule, -⟩ := h
  cases hrule

/-! ## A run -/

/-- The loop has read these lines and waits for the next. -/
structure Waits (lines : List String) (σ : Session) : Prop where
  loop : σ.s.loop = .reading
  going : σ.cancelled = false
  written : σ.s.out.map (·.2) = lines
  read : σ.s.nread = lines.length
  open_ : σ.s.exited = false
  early : σ.s.clock < σ.s.h.deadline

section Run

variable {env : Env}

/-- The loop waits for a line again, in time. -/
structure GoesOn (s t : St) : Prop where
  loop : t.loop = .reading
  out : t.out = s.out
  nread : t.nread = s.nread
  exited : t.exited = s.exited
  early : t.clock < t.h.deadline

omit U in
theorem top_goesOn {s : St} (h : s.clock < s.h.deadline) : GoesOn s (Loop.top env s) := by
  rw [Loop.top, if_neg (Nat.not_le.mpr h)]
  exact ⟨rfl, rfl, rfl, rfl, h⟩

omit U in
theorem GoesOn.of_same {s s' t : St} (h : GoesOn s t) (hout : s.out = s'.out) (hread : s.nread = s'.nread)
    (hexited : s.exited = s'.exited) : GoesOn s' t :=
  ⟨h.loop, h.out.trans hout, h.nread.trans hread, h.exited.trans hexited, h.early⟩

/-- With room on the queue and time left, the loop goes on after a line that is parsed or counted. -/
theorem consume_goesOn {s : St} {raw : String} (hroom : env.maxsize = 0) (h : s.clock < s.h.deadline)
    (hp : ∃ o, TraceParser.parseLine env.blind (PyStr.strip raw) = .ok o) :
    GoesOn { s with nread := s.nread + 1 } (Loop.consume env raw s) := by
  obtain ⟨o, ho⟩ := hp
  unfold Loop.consume
  dsimp only
  split
  · exact top_goesOn h
  · rw [ho]
    cases o with
    | none =>
      have hearly : s.clock < (s.h.recordUnparsed (PyStr.strip raw)).deadline := by
        rwa [Harvester.recordUnparsed_deadline]
      dsimp only
      exact (top_goesOn (s := { s with nread := s.nread + 1, h := s.h.recordUnparsed (PyStr.strip raw) })
        hearly).of_same rfl rfl rfl
    | some e =>
      have hearly : s.clock < (s.h.recordId e).deadline := by rwa [Harvester.recordId_deadline]
      have hroomy : ∀ t : St, t.full env = false := fun t => by simp [St.full, hroom]
      dsimp only
      rw [Loop.putEvent, hroomy, if_neg Bool.false_ne_true, Loop.deliver]
      exact (top_goesOn (s := { s with
        nread := s.nread + 1, h := { s.h.recordId e with eventSignal := true }
        puts := s.puts ++ [(.readLoop, some e)], collected := s.collected ++ [e] }) hearly).of_same rfl rfl rfl

/-- One more line is written and read. -/
theorem waits_next {lines : List String} {σ : Session} {raw : String} (h : Waits lines σ) (hroom : env.maxsize = 0)
    (hwrites : ∀ s p line, env.writes s p line = true)
      (hp : ∃ o, TraceParser.parseLine env.blind (PyStr.strip raw) = .ok o) :
    ∃ τ, PoolSteps (sessions env) IsCall ([], σ) ([], τ) ∧ Waits (lines ++ [raw]) τ := by
  have hlength : σ.s.out.length = lines.length := by rw [← h.written, List.length_map]
  let t : St := { σ.s with out := σ.s.out ++ [(.foreign 0, raw)] }
  have hwrite : (sessions env).event σ (.ev (.write (.foreign 0) raw)) { σ with s := t } := by
    have hguard : σ.s.loop ≠ .idle ∧ σ.s.exited = false ∧ env.writes σ.s (.foreign 0) raw = true :=
      ⟨by rw [h.loop]; nofun, h.open_, hwrites _ _ _⟩
    show (event env σ.s (.write (.foreign 0) raw)).map _ = _
    rw [event, if_pos hguard]
    rfl
  have hline : (sessions env).event { σ with s := t } (.ev .line) { σ with s := Loop.consume env raw t } := by
    have hnext : t.out[t.nread]? = some (.foreign 0, raw) := by
      show (σ.s.out ++ [(.foreign 0, raw)])[σ.s.nread]? = _
      rw [h.read, ← hlength, List.getElem?_concat_length]
    show (event env t .line).map _ = _
    have hloop : t.loop = .reading := h.loop
    simp only [event, hloop, hnext, Option.map_some]
  have hgoes : GoesOn { t with nread := t.nread + 1 } (Loop.consume env raw t) := consume_goesOn hroom h.early hp
  refine ⟨{ σ with s := Loop.consume env raw t }, ?_, ?_⟩
  · exact ReflTransGen.head (.event _ (fun c hc => by cases hc) hwrite)
      (.single (.event _ (fun c hc => by cases hc) hline))
  · refine ⟨hgoes.loop, h.going, ?_, ?_, hgoes.exited.trans h.open_, hgoes.early⟩
    · rw [hgoes.out, List.map_append, h.written]
      rfl
    · rw [hgoes.nread, List.length_append, List.length_singleton]
      exact congrArg (· + 1) h.read

/-- Line after line. -/
theorem waits_all (hroom : env.maxsize = 0) (hwrites : ∀ s p line, env.writes s p line = true) :
    ∀ {todo done : List String} {σ : Session},
    Waits done σ → (∀ raw ∈ todo, ∃ o, TraceParser.parseLine env.blind (PyStr.strip raw) = .ok o) →
      ∃ τ, PoolSteps (sessions env) IsCall ([], σ) ([], τ) ∧ Waits (done ++ todo) τ
  | [], done, σ, h, _ => ⟨σ, .refl, by rwa [List.append_nil]⟩
  | raw :: todo, done, σ, h, hp => by
    obtain ⟨τ, hsteps, hτ⟩ := waits_next h hroom hwrites (hp raw List.mem_cons_self)
    obtain ⟨υ, hrest, hυ⟩ := waits_all hroom hwrites hτ fun l hl => hp l (List.mem_cons_of_mem raw hl)
    exact ⟨υ, hsteps.trans hrest, by rwa [List.append_assoc, List.singleton_append] at hυ⟩

theorem reads_all {lines : List String} (hroom : env.maxsize = 0) (hwrites : ∀ s p line, env.writes s p line = true)
    (hp : ∀ raw ∈ lines, ∃ o, TraceParser.parseLine env.blind (PyStr.strip raw) = .ok o) :
      ∃ σ, ReadsAll env lines σ := by
  let s : St := { (Session.started 0 1).s with h := { (Session.started 0 1).s.h with ready := true } }
  have hbegin :
      (sessions env).event (Session.started 0 1) (.ev .begin) { Session.started 0 1 with s := Loop.top env s } := rfl
  have hgoes : GoesOn s (Loop.top env s) := top_goesOn (Nat.zero_lt_one)
  have hwaits : Waits [] { Session.started 0 1 with s := Loop.top env s } :=
    ⟨hgoes.loop, rfl, by rw [hgoes.out]; rfl, hgoes.nread, hgoes.exited, hgoes.early⟩
  obtain ⟨σ, hsteps, hσ⟩ := waits_all hroom hwrites hwaits hp
  have hfirst : PoolStep (sessions env) IsCall ([], Session.started 0 1)
      ([], { Session.started 0 1 with s := Loop.top env s }) :=
    .event _ (fun c hc => by cases hc) hbegin
  exact ⟨σ, ⟨0, 1, [], ReflTransGen.head hfirst hsteps⟩, hσ.written, hσ.read, by rw [hσ.loop]; rfl, hσ.going⟩

end Run

/-- No loop that sees gets past one. -/
theorem not_readsAll {env : Env} {lines : List String} {raw : String} {σ : Session}
    (hsees : env.blind = false) (hraw : raw ∈ lines)
    (hrefused : HandleRefused (PyStr.strip raw)) : ¬ReadsAll env lines σ := by
  intro h
  obtain ⟨clock, timeout, cs, hrun⟩ := h.run
  have hline : PyStr.strip raw ∈ nonblank σ.s := by
    rw [h.nonblank]
    exact List.mem_filter.mpr ⟨List.mem_map_of_mem hraw, by simpa using hrefused.nonblank⟩
  obtain ⟨o, ho⟩ := (sessions_passed hrun).parsed _ hline
  obtain ⟨exc, hexc⟩ := raises_iff.mpr hrefused
  rw [hsees, hexc] at ho
  cases ho

/-- The blindness is counted line by line exactly when `int` refuses no handle. -/
theorem blindness_counted_iff (lines : List String) :
    BlindnessCounted lines ↔ ∀ raw ∈ lines, ¬HandleRefused (PyStr.strip raw) := by
  constructor
  · intro h raw hraw hrefused
    obtain ⟨σ, hσ⟩ := h.through false
    exact not_readsAll rfl hraw hrefused hσ
  · intro h
    refine ⟨fun blind => reads_all rfl (fun _ _ _ => rfl) fun raw hraw => ?_,
      fun _ _ _ _ hblind _ => blind_counts hblind⟩
    cases blind with
    | true => exact ⟨none, rfl⟩
    | false =>
      cases hp : TraceParser.parseLine false (PyStr.strip raw) with
      | ok o => exact ⟨o, rfl⟩
      | error exc => exact absurd (raises_iff.mp ⟨exc, hp⟩) (h raw hraw)

end Nse

/-! ## A long handle -/

namespace Nse

open Coroutine

attribute [local instance] PyStr.Unicode.ascii

/-- A rule with this handle. -/
def handled (n : Nat) : PrintedLine where
  id := "a1"
  chain := departure.chain
  body := .rule (some ⟨"1", n, by decide, List.all_eq_true.mp (by decide)⟩)
    (some ⟨"accept", by decide, List.all_eq_true.mp (by decide)⟩)
    ⟨"tcp dport 80", by decide, by decide, List.all_eq_true.mp (by decide), fun h => absurd h (Option.some_ne_none _),
      fun h => absurd h (Option.some_ne_none _)⟩
  id_ne := by decide
  id_chars := List.all_eq_true.mp (by decide)

example : (handled 4).text = "trace id a1 ip6 mangle output rule 0x1 (handle 4) tcp dport 80 (verdict accept)" := by
  decide +kernel

theorem strip_handled (n : Nat) : PyStr.strip (handled n).text = (handled n).text := by
  have hlast : (handled n).text.toList.getLast? = some ')' := by
    rw [PrintedLine.text, String.toList_ofList]
    show (headerChars _ _ ("rule ".toList ++
      (_ ++ (_ ++ (" (verdict".toList ++ ' ' :: ("accept".toList ++ [')'])))))).getLast? = _
    unfold headerChars
    simp only [List.getLast?_append, List.getLast?_cons, List.getLast?_nil, Option.getD_none,
      Option.some_or, Option.getD_some]
  have hhead : (handled n).text.toList.head? = some 't' := by
    rw [PrintedLine.text, String.toList_ofList]
    rfl
  refine PyStr.strip_eq ?_ ?_
  · rw [hhead]
    exact fun c hc => by cases hc; decide
  · rw [hlast]
    exact fun c hc => by cases hc; decide

/-- On a handle of 4301 digits the loop that sees ends; the blind one reads on. -/
theorem a_blind_loop_reads_further : (∃ σ, ReadsAll { maxsize := 0, blind := true } [(handled (10 ^ 4300)).text] σ) ∧
    (∀ env σ, env.blind = false → ¬ReadsAll env [(handled (10 ^ 4300)).text] σ) ∧
      ¬BlindnessCounted [(handled (10 ^ 4300)).text] := by
  have hlong : PyStr.withinLimit (PyStr.digitCount (toString (10 ^ 4300))) = false :=
    PyStr.overLimit_toString (by decide) (Nat.le_refl _)
  have hrefused : HandleRefused (PyStr.strip (handled (10 ^ 4300)).text) := by
    rw [strip_handled]
    exact raises_iff.mp ((handled (10 ^ 4300)).parse_overlong rfl hlong)
  have hnot : ∀ env σ, env.blind = false → ¬ReadsAll env [(handled (10 ^ 4300)).text] σ :=
    fun env σ hsees => not_readsAll hsees List.mem_cons_self hrefused
  refine ⟨reads_all rfl (fun _ _ _ => rfl) fun raw _ => ⟨none, rfl⟩, hnot, fun h => ?_⟩
  obtain ⟨σ, hσ⟩ := h.through false
  exact hnot _ σ rfl hσ

end Nse
