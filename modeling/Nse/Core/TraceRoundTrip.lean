/-
  Nse.Core.TraceRoundTrip — printing an event as `nft monitor trace` does, and parsing it.

  `TraceFormat` shows that every line is understood. Here the line is compared with the
  whole event it was printed from, fields and all.

  Proved: `parse_printed_iff`, a printed line is parsed back to its event exactly when it is
  `Clear`. Three kinds of lines are not:
  - a packet that came in through no interface, with `iif ` at the start of a word among its
    other fields (the end of another interface's name): the pattern looks for the field
    anywhere in the line, and takes the next word for the interface
    (`an_interface_called_iif_names_another`);
  - a rule without a handle whose text is itself a rule id and a handle, before a verdict;
  - a rule whose handle has more digits than `int` reads, on which the parser raises.
  No line is understood by two of the patterns.
-/

import Nse.Core.TraceFormat

namespace Nse

open Backtrack

variable [U : PyStr.Unicode]

/-! ## Printed events -/

/-- One word: a verdict. -/
structure Word where
  text : String
  ne : text ≠ ""
  chars : ∀ c ∈ text.toList, U.isWord c = true

/-- An interface, printed bare or in quotes. -/
structure Iface where
  name : String
  quoted : Bool
  ne : name ≠ ""
  chars : ∀ c ∈ name.toList, TraceParser.iifChar c = true

def Iface.charList (i : Iface) : List Char := if i.quoted then '"' :: (i.name.toList ++ ['"']) else i.name.toList

/-- A field of a packet: its first word, and what comes after it. -/
structure Field where
  key : String
  value : String
  key_chars : ∀ c ∈ key.toList, (c != ' ' && TraceParser.dot c) = true
  value_chars : ∀ c ∈ value.toList, TraceParser.dot c = true

omit U in
def Field.charList (f : Field) : List Char :=
  ' ' :: (f.key.toList ++ if f.value = "" then [] else ' ' :: f.value.toList)

omit U in
def fieldChars (fields : List Field) : List Char := fields.flatMap Field.charList

/-- A rule's id, and its handle. -/
structure RuleRef where
  ruleId : String
  handle : Nat
  ne : ruleId ≠ ""
  chars : ∀ c ∈ ruleId.toList, TraceParser.ruleIdChar c = true

/-- The text of a rule: trimmed, one line, not starting as a rule id and a handle where none
    is printed, and not itself ending in a verdict where none is printed. -/
structure FreeText (ref : Option RuleRef) (verdict : Option Word) where
  text : String
  ne : text ≠ ""
  trimmed : PyStr.strip text = text
  chars : ∀ c ∈ text.toList, TraceParser.dot c = true
  noHandle : ref = none → ∀ h : Handle, ¬h.chars <+: text.toList
  noVerdict : verdict = none → ∀ xs w, (∀ c ∈ w, U.isWord c = true) → text.toList ≠ xs ++ verdictChars w

inductive PrintedBody where
  | hook (iif : Option Iface) (others : List Field) (noIif : iif = none → ∀ f ∈ others, f.key ≠ "iif")
  | rule (ref : Option RuleRef) (verdict : Option Word) (text : FreeText ref verdict)
  | decision (policy : Bool) (verdict : Word)

structure PrintedLine where
  id : String
  chain : Chain
  body : PrintedBody
  id_ne : id ≠ ""
  id_chars : ∀ c ∈ id.toList, TraceParser.hexChar c = true

/-- The handle as it is printed. -/
def RuleRef.printed (r : RuleRef) : Handle where
  ruleId := r.ruleId
  number := toString r.handle
  ruleId_ne := r.ne
  ruleId_chars := r.chars
  number_ne := by
    intro hempty
    have := congrArg String.toList hempty
    rw [Nat.toString_eq_ofList_toDigits, String.toList_ofList] at this
    exact Nat.toDigits_ne_nil this
  number_chars := by
    intro c hc
    rw [Nat.toString_eq_ofList_toDigits, String.toList_ofList] at hc
    exact PyStr.isDigit_ascii (Nat.isDigit_of_mem_toDigits (by omega) (by omega) hc)

def PrintedBody.charList : PrintedBody → List Char
  | .hook iif others _ => "packet:".toList ++ ((iif.elim [] fun i => " iif ".toList ++ i.charList) ++ fieldChars others)
  | .rule ref verdict text =>
    "rule ".toList ++ ((ref.elim [] fun r => r.printed.chars) ++
      (text.text.toList ++ (verdict.map fun v => v.text.toList).elim [] verdictChars))
  | .decision policy v => (if policy then "policy" else "verdict").toList ++ ' ' :: v.text.toList

def PrintedLine.text (l : PrintedLine) : String := String.ofList (headerChars l.id l.chain l.body.charList)

/-- The event a line is printed from. -/
def PrintedLine.event (l : PrintedLine) : TraceEvent :=
  let base (type : EventType) : TraceEvent :=
    { type, traceId := some l.id, family := some l.chain.family.name, table := some l.chain.table.name
      chain := some l.chain.chain.name }
  match l.body with
  | .hook iif _ _ => { base .hook with hook := some (iif.elim "" (·.name)) }
  | .rule ref verdict text =>
    { base .ruleMatch with
      ruleHandle := ref.map fun r => (r.handle : Int)
      ruleText := some text.text
      verdict := verdict.map fun v => PyStr.upper v.text }
  | .decision _ v => { base .verdict with verdict := some (PyStr.upper v.text) }

/-- No two of the patterns match the line. -/
structure OnePattern (line : String) : Prop where
  packetRule : ¬((TraceParser.packetRe.match line).isSome ∧ (TraceParser.ruleRe.match line).isSome)
  packetVerdict : ¬((TraceParser.packetRe.match line).isSome ∧ (TraceParser.verdictRe.match line).isSome)
  ruleVerdict : ¬((TraceParser.ruleRe.match line).isSome ∧ (TraceParser.verdictRe.match line).isSome)

/-- A name of an interface starts here, or a quote and a name. -/
def StartsName (t : List Char) : Prop := ∃ c cs, (t = c :: cs ∨ t = '"' :: c :: cs) ∧ TraceParser.iifChar c = true

/-- `iif ` at the start of a word, before a name. -/
def NamesIif (cs : List Char) : Prop :=
  ∃ xs t, cs = xs ++ ("iif ".toList ++ t) ∧ (∀ c ∈ xs.getLast?, U.isWord c = false) ∧ StartsName t

/-- What the patterns need beyond the format. -/
def PrintedLine.Clear (l : PrintedLine) : Prop :=
  match l.body with
  | .hook none others _ => ¬NamesIif (fieldChars others)
  | .rule none (some _) text => ∀ h : Handle, text.text.toList ++ [' '] ≠ h.chars
  | .rule (some r) _ _ => PyStr.withinLimit (PyStr.digitCount (toString r.handle)) = true
  | _ => True

/-! ## The interface of a packet -/

namespace TraceParser

/-- The name in `iifRe`, and the quotes around it. -/
def nameRe : Re := Re.seqs [.opt (.lit "\""), .group "iif" (Re.plus iifChar), .opt (.lit "\"")]

/-- What `iifRe` looks for. -/
def fieldRe : Re := .seq (.boundary U.isWord) (.seq (.lit "iif ") nameRe)

theorem isWord_i : U.isWord 'i' = true := PyStr.isWord_char (by decide)

theorem isWord_colon : U.isWord ':' = false := PyStr.isWord_char (by decide)

theorem iifChar_space : iifChar ' ' = false := by
  rw [iifChar, PyStr.isSpace_blank]
  rfl

omit U in
theorem opt_isSome {r : Re} {a : At} : ((Re.opt r).run a fun b => some b.groups).isSome := by
  show ((r.run a fun b => some b.groups).or (some a.groups)).isSome = true
  rw [Option.isSome_or, Option.isSome_some, Bool.or_true]

section Name

variable {prev : Option Char} {g m : Groups} {t cs : List Char}

/-- What the name and its quotes read, where nothing more of the name follows. -/
theorem nameRe_run (i : Iface) (ht : Stops iifChar t) :
    nameRe.run ⟨prev, i.charList ++ t, g⟩ (fun a => some a.groups) = some (("iif", i.name.toList) :: g) := by
  have hne := toList_ne i.ne
  -- whatever is after the name, its closing quote is optional
  have hname : ∀ (prev : Option Char) (t : List Char), Stops iifChar t →
      (Re.seq (.group "iif" (Re.plus iifChar)) (.opt (.lit "\""))).run ⟨prev, i.name.toList ++ t, g⟩
        (fun a => some a.groups) =
        some (("iif", i.name.toList) :: g) := by
    intro prev t ht
    refine run_plus_longest ht hne i.chars prev ?_
    rw [record_append]
    cases hlit : (Re.lit "\"").run ⟨after prev i.name.toList, t, ("iif", i.name.toList) :: g⟩
      fun a => some a.groups with
    | none => exact (congrArg (Option.or · _) hlit).trans Option.none_or
    | some m =>
      obtain ⟨t', -, hm⟩ := literal_some hlit
      exact (congrArg (Option.or · _) (hlit.trans hm.symm)).trans Option.some_or
  unfold Iface.charList
  by_cases hq : i.quoted = true
  · simp only [hq, if_true, List.cons_append, List.append_assoc]
    have hquote := hname (some '"') ('"' :: t) ((stops_cons ..).mpr (by simp [iifChar]))
    exact (congrArg (Option.or · _) hquote).trans Option.some_or
  · simp only [hq, Bool.false_eq_true, if_false]
    have hnone : ∀ k : At → Option Groups, (Re.lit "\"").run ⟨prev, i.name.toList ++ t, g⟩ k = none := by
      intro k
      obtain ⟨x, xs, hx⟩ := List.exists_cons_of_ne_nil hne
      rw [hx]
      exact literal_outside (p := iifChar) (d := '"') (by simp [iifChar]) [] prev x _
        (i.chars x (by rw [hx]; exact List.mem_cons_self))
    exact (congrArg (Option.or · _) (hnone _)).trans (Option.none_or.trans (hname prev t ht))

/-- The name's pattern succeeds where a name starts, and records one. -/
theorem nameRe_isSome (h : StartsName t) : (nameRe.run ⟨prev, t, g⟩ fun a => some a.groups).isSome := by
  have hplus : ∀ prev c cs, iifChar c = true →
      ((Re.seq (.group "iif" (Re.plus iifChar)) (.opt (.lit "\""))).run ⟨prev, c :: cs, g⟩ fun a =>
        some a.groups).isSome := by
    intro prev c cs hc
    show (if iifChar c = true then greedy iifChar g _ (some c) cs else none).isSome = true
    rw [if_pos hc]
    exact greedy_isSome [] (some c) (List.forall_mem_nil _) opt_isSome
  obtain ⟨c, cs, rfl | rfl, hc⟩ := h
  · have hopt := hplus prev c cs hc
    unfold nameRe
    simp only [Re.seqs]
    show (Option.or _ _).isSome = true
    rw [Option.isSome_or, hopt, Bool.or_true]
  · have hopt := hplus (some '"') c cs hc
    show (Option.or _ _).isSome = true
    rw [Option.isSome_or]
    exact Bool.or_eq_true_iff.mpr (.inl hopt)

theorem nameRe_some (h : nameRe.run ⟨prev, t, g⟩ (fun a => some a.groups) = some m) :
    StartsName t ∧ ∃ name, name ≠ [] ∧ m = ("iif", name) :: g := by
  have hplus : ∀ {prev t}, (Re.seq (.group "iif" (Re.plus iifChar)) (.opt (.lit "\""))).run ⟨prev, t, g⟩
      (fun a => some a.groups) = some m →
        (∃ c cs, t = c :: cs ∧ iifChar c = true) ∧ ∃ name, name ≠ [] ∧ m = ("iif", name) :: g := by
    intro prev t h
    obtain ⟨xs, t', hne, rfl, hxs, hk⟩ := run_plus_some h
    have hm : m = ("iif", xs) :: g := by
      rw [record_append] at hk
      rcases Option.or_eq_some_iff.mp hk with hk | ⟨-, hk⟩
      · obtain ⟨_, -, hk⟩ := literal_some hk
        exact (Option.some.inj hk).symm
      · exact (Option.some.inj hk).symm
    obtain ⟨x, xs', rfl⟩ := List.exists_cons_of_ne_nil hne
    exact ⟨⟨x, xs' ++ t', rfl, hxs x List.mem_cons_self⟩, _, hne, hm⟩
  rcases Option.or_eq_some_iff.mp h with h | ⟨-, h⟩
  · obtain ⟨t', rfl, h⟩ := literal_some h
    obtain ⟨⟨c, cs, rfl, hc⟩, hm⟩ := hplus h
    exact ⟨⟨c, cs, .inr rfl, hc⟩, hm⟩
  · obtain ⟨⟨c, cs, rfl, hc⟩, hm⟩ := hplus h
    exact ⟨⟨c, cs, .inl rfl, hc⟩, hm⟩

theorem boundary_run {β : Type} {k : At → Option β} {a : At} (hprev : ∀ c ∈ a.prev, U.isWord c = false)
    (hhead : a.rest.head? = some 'i') : (Re.boundary U.isWord).run a k = k a := by
  have hnone : a.prev.any U.isWord = false := by
    cases hp : a.prev with
    | none => rfl
    | some c => simpa using hprev c hp
  show (if (a.prev.any U.isWord != a.rest.head?.any U.isWord) = true then k a else none) = k a
  rw [hnone, hhead, Option.any_some, isWord_i]
  rfl

/-- The field, where `iif ` and a name are. -/
theorem fieldRe_run (hprev : ∀ c ∈ prev, U.isWord c = false) :
    fieldRe.run ⟨prev, "iif ".toList ++ t, g⟩ (fun a => some a.groups) =
    nameRe.run ⟨some ' ', t, g⟩ fun a => some a.groups := by
  have hb := boundary_run (k := fun b => (Re.seq (.lit "iif ") nameRe).run b fun a => some a.groups)
    (a := ⟨prev, "iif ".toList ++ t, g⟩) hprev rfl
  exact hb.trans (run_lit "iif " _ prev t g)

theorem fieldRe_some (h : fieldRe.run ⟨prev, t, g⟩ (fun a => some a.groups) = some m) :
    ∃ t', t = "iif ".toList ++ t' ∧ (∀ c ∈ prev, U.isWord c = false) ∧
      nameRe.run ⟨some ' ', t', g⟩ (fun a => some a.groups) = some m := by
  have hbound : ∀ {k : At → Option Groups}, (Re.boundary U.isWord).run ⟨prev, t, g⟩ k = some m →
      (prev.any U.isWord != t.head?.any U.isWord) = true ∧ k ⟨prev, t, g⟩ = some m := by
    intro k h
    simp only [Re.run] at h
    split at h
    · exact ⟨‹_›, h⟩
    · cases h
  obtain ⟨hb, h⟩ := hbound (k := fun b => (Re.seq (.lit "iif ") nameRe).run b fun a => some a.groups) h
  obtain ⟨t', rfl, h⟩ := literal_some h
  refine ⟨t', rfl, ?_, h⟩
  have hhead : ("iif ".toList ++ t').head?.any U.isWord = true := isWord_i
  intro c hc
  rw [hhead, Option.mem_def.mp hc, Option.any_some] at hb
  simpa using hb

/-- The field is read where a packet's fields start with it. -/
theorem iifRe_first (i : Iface) (ht : Stops iifChar t) :
    iifRe.run ⟨some ':', " iif ".toList ++ (i.charList ++ t), g⟩ (fun a => some a.groups) =
      some (("iif", i.name.toList) :: g) := by
  have hcolon : fieldRe.run ⟨some ':', " iif ".toList ++ (i.charList ++ t), g⟩ (fun a => some a.groups) = none := by
    refine Option.eq_none_iff_forall_ne_some.mpr ?_
    intro m hm
    obtain ⟨t', ht', -⟩ := fieldRe_some hm
    cases (List.cons.inj ht').1
  have hhere : fieldRe.run ⟨some ' ', "iif ".toList ++ (i.charList ++ t), g⟩ (fun a => some a.groups) =
      some (("iif", i.name.toList) :: g) := by
    refine (fieldRe_run ?_).trans (nameRe_run i ht)
    rintro c ⟨⟩
    exact isWord_space
  show Option.or (fieldRe.run ⟨some ':', " iif ".toList ++ (i.charList ++ t), g⟩ fun a => some a.groups) _ = _
  rw [hcolon, Option.none_or]
  exact reluctant_here (k := fun b => fieldRe.run b fun a => some a.groups) hhere

/-- The field is read somewhere exactly where `iif ` and a name are. -/
theorem iifRe_isSome (hline : ∀ c ∈ cs, dot c = true) (h : NamesIif cs) :
    (iifRe.run ⟨some ':', cs, g⟩ fun a => some a.groups).isSome := by
  obtain ⟨xs, t, rfl, hxs, ht⟩ := h
  refine reluctant_isSome (k := fun b => fieldRe.run b fun a => some a.groups) xs (some ':')
    (fun c hc => hline c (List.mem_append_left _ hc)) ?_
  rw [fieldRe_run]
  · exact nameRe_isSome ht
  · rw [after_eq]
    intro c hc
    rcases Option.or_eq_some_iff.mp hc with hc | ⟨-, hc⟩
    · exact hxs c hc
    · cases hc
      exact isWord_colon

theorem iifRe_some (h : iifRe.run ⟨some ':', cs, g⟩ (fun a => some a.groups) = some m) :
    NamesIif cs ∧ ∃ name, name ≠ [] ∧ m = ("iif", name) :: g := by
  obtain ⟨xs, t, rfl, -, h⟩ := reluctant_some (k := fun b => fieldRe.run b fun a => some a.groups) h
  obtain ⟨t', rfl, hprev, h⟩ := fieldRe_some h
  obtain ⟨hname, hm⟩ := nameRe_some h
  refine ⟨⟨xs, t', rfl, ?_, hname⟩, hm⟩
  intro c hc
  refine hprev c ?_
  rw [after_eq, Option.mem_def.mp hc]
  rfl

end Name

/-! ## The handle of a rule -/

omit U in
/-- Where one of two texts has a space, with no space before it in the other. -/
theorem split_at_space {xs ys zs ws : List Char} (hz : ' ' ∉ zs) (h : xs ++ ' ' :: ys = zs ++ ' ' :: ws) :
    xs = zs ∧ ys = ws ∨ ∃ xs', xs = zs ++ ' ' :: xs' ∧ xs' ++ ' ' :: ys = ws := by
  rcases List.append_eq_append_iff.mp h with ⟨as, rfl, has⟩ | ⟨cs, rfl, hcs⟩
  · cases as with
    | nil => exact .inl ⟨by simp, (List.cons.inj has).2⟩
    | cons a as =>
      obtain ⟨rfl, -⟩ := List.cons.inj has
      exact absurd (by simp) hz
  · cases cs with
    | nil => exact .inl ⟨by simp, (List.cons.inj hcs).2.symm⟩
    | cons c cs =>
      obtain ⟨rfl, hws⟩ := List.cons.inj hcs
      exact .inr ⟨cs, rfl, hws.symm⟩

theorem handleRe_some {β : Type} {k : At → Option β} {q : Option Char} {t : List Char} {g : Groups} {v : β}
    (h : handleRe.run ⟨q, t, g⟩ k = some v) : ∃ (n : Handle) (rest : List Char), t = n.chars ++ rest := by
  obtain ⟨t₁, rfl, h⟩ := literal_some h
  obtain ⟨ids, t₂, hids, rfl, hidchars, h⟩ := run_plus_some h
  obtain ⟨t₃, rfl, h⟩ := literal_some h
  obtain ⟨number, t₄, hnumber, rfl, hdigits, h⟩ := run_plus_some h
  obtain ⟨t₅, rfl, -⟩ := literal_some h
  have hne : ∀ {xs : List Char}, xs ≠ [] → String.ofList xs ≠ "" := by
    intro xs hxs hempty
    have := congrArg String.toList hempty
    rw [String.toList_ofList] at this
    exact hxs this
  refine ⟨⟨String.ofList ids, String.ofList number, hne hids, ?_, hne hnumber, ?_⟩, t₅, ?_⟩
  · rwa [String.toList_ofList]
  · rwa [String.toList_ofList]
  · simp only [Handle.chars, String.toList_ofList, List.append_assoc]

/-- A text that is not read as a handle, nor with the space of a verdict after it. -/
theorem handleRe_none {β : Type} {k : At → Option β} {q : Option Char} {text : List Char} {g : Groups}
    {verdict : Option (List Char)} (hno : ∀ n : Handle, ¬n.chars <+: text)
    (hclear : verdict ≠ none → ∀ n : Handle, text ++ [' '] ≠ n.chars) :
    handleRe.run ⟨q, text ++ verdict.elim [] verdictChars, g⟩ k = none := by
  refine Option.eq_none_iff_forall_ne_some.mpr ?_
  intro v hv
  obtain ⟨n, rest, hn⟩ := handleRe_some hv
  cases verdict with
  | none =>
    rw [Option.elim_none, List.append_nil] at hn
    exact hno n ⟨rest, hn.symm⟩
  | some w =>
    have hverdict : verdictChars w = ' ' :: '(' :: 'v' :: ("erdict".toList ++ ' ' :: (w ++ [')'])) := rfl
    rw [Option.elim_some, hverdict] at hn
    rcases List.append_eq_append_iff.mp hn with ⟨as, has, hrest⟩ | ⟨cs, hcs, -⟩
    · cases as with
      | nil => exact hno n ⟨[], by rw [has]; simp⟩
      | cons a as =>
        obtain ⟨rfl, hafter⟩ := List.cons.inj hrest
        -- the text ends at one of the three spaces of the handle
        have hwords :
            n.chars = ("0x".toList ++ n.ruleId.toList) ++ ' ' :: (['(', 'h', 'a', 'n', 'd', 'l', 'e'] ++ ' ' ::
            ((n.number.toList ++ [')']) ++ ' ' :: [])) := by
          simp [Handle.chars]
        have hid : ' ' ∉ "0x".toList ++ n.ruleId.toList := by
          intro hmem
          rcases List.mem_append.mp hmem with hmem | hmem
          · exact absurd hmem (by decide)
          · have := n.ruleId_chars _ hmem
            rw [ruleIdChar_space] at this
            cases this
        have hnumber : ' ' ∉ n.number.toList ++ [')'] := by
          intro hmem
          rcases List.mem_append.mp hmem with hmem | hmem
          · have := n.number_chars _ hmem
            rw [isDigit_space] at this
            cases this
          · cases List.mem_singleton.mp hmem
        rw [hwords] at has
        rcases split_at_space hid has.symm with ⟨-, rfl⟩ | ⟨text', htext, has⟩
        · cases (List.cons.inj (List.cons.inj hafter).2).1
        · rcases split_at_space (by decide) has with ⟨-, rfl⟩ | ⟨text'', htext', has⟩
          · obtain ⟨d, ds, hd⟩ := List.exists_cons_of_ne_nil (toList_ne n.number_ne)
            have hdigit := n.number_chars d (by rw [hd]; exact List.mem_cons_self)
            rw [hd] at hafter
            have hparen : '(' = d := (List.cons.inj hafter).1
            have hopen : PyStr.isDigit '(' = false := PyStr.isDigit_char (by decide)
            rw [← hparen, hopen] at hdigit
            cases hdigit
          · rcases split_at_space hnumber has with ⟨htext'', -⟩ | ⟨_, -, hnil⟩
            · refine hclear (by simp) n ?_
              rw [hwords, htext, htext', htext'']
              simp
            · simp at hnil
    · exact hno n ⟨cs, hcs.symm⟩

/-- Where it is, the verdict is taken for the text. -/
theorem handle_taken {q : Option Char} {text w : List Char} {g : Groups} {n : Handle} (h : text ++ [' '] = n.chars)
    (hw : ∀ c ∈ w, U.isWord c = true) :
    (Re.opt handleRe).run ⟨q, text ++ verdictChars w, g⟩ (fun b => textRe.run b fun a => some a.groups) =
      some (("rule_text", "(verdict".toList ++ ' ' :: (w ++ [')'])) :: ("handle", n.number.toList) ::
        ("rule_id", "0x".toList ++ n.ruleId.toList) :: g) := by
  have hsplit : text ++ verdictChars w = n.chars ++ ("(verdict".toList ++ ' ' :: (w ++ [')'])) := by
    rw [← h, List.append_assoc]
    rfl
  rw [hsplit]
  refine n.run_opt ?_
  have hdot : ∀ c ∈ "(verdict".toList ++ ' ' :: (w ++ [')']), dot c = true := by
    intro c hc
    have hne : c ≠ '\n' := by
      rintro rfl
      rcases List.mem_append.mp hc with hc | hc
      · exact absurd hc (by decide)
      · simp only [List.mem_cons, List.mem_append, List.not_mem_nil, or_false] at hc
        rcases hc with hc | hc | hc
        · cases hc
        · exact newline_not_word hw hc
        · cases hc
    simpa [dot] using hne
  have hno : ∀ xs w', (∀ c ∈ w', U.isWord c = true) → "(verdict".toList ++ ' ' :: (w ++ [')']) ≠
      xs ++ verdictChars w' := by
    intro xs w' hw' heq
    have hends : "(verdict".toList ++ ' ' :: (w ++ [')']) = (xs ++ " (verdict".toList) ++ ' ' :: (w' ++ [')']) :=
      heq.trans (List.append_assoc xs _ _).symm
    have := congrArg List.length (before_last_space hends (no_space hw) (no_space hw'))
    have hlen : "(verdict".toList.length = 8 := rfl
    have hlen' : " (verdict".toList.length = 9 := rfl
    rw [List.length_append, hlen, hlen'] at this
    omega
  have hverdict : ∀ w ∈ (none : Option (List Char)), w ≠ [] ∧ ∀ c ∈ w, U.isWord c = true := by simp
  have hrun := run_text (by simp) hdot hverdict (fun _ => hno) (some ' ')
    (("handle", n.number.toList) :: ("rule_id", "0x".toList ++ n.ruleId.toList) :: g)
  rw [Option.elim_none, Option.elim_none, List.append_nil] at hrun
  exact hrun

end TraceParser

/-! ## Back to the event -/

section Parse

variable (l : PrintedLine)

/-- A pattern of the parser on a printed line. -/
theorem PrintedLine.match_prefixed (r : Re) : (TraceParser.prefixed r).match l.text =
    r.run ⟨some ' ', l.body.charList, headerGroups l.id l.chain⟩ fun a => some a.groups :=
  match_header l.id_ne l.id_chars l.chain l.body.charList r

theorem PrintedLine.packet_none (h : ∀ iif others hno, l.body ≠ .hook iif others hno) :
    TraceParser.packetRe.match l.text = none := by
  refine (l.match_prefixed _).trans ?_
  cases hb : l.body with
  | hook iif others hno => exact absurd hb (h iif others hno)
  | rule ref verdict text => rfl
  | decision policy v => cases policy <;> rfl

theorem PrintedLine.rule_none (h : ∀ ref verdict text, l.body ≠ .rule ref verdict text) :
    TraceParser.ruleRe.match l.text = none := by
  refine (l.match_prefixed _).trans ?_
  cases hb : l.body with
  | hook iif others hno => rfl
  | rule ref verdict text => exact absurd hb (h ref verdict text)
  | decision policy v => cases policy <;> rfl

theorem PrintedLine.verdict_none (h : ∀ policy v, l.body ≠ .decision policy v) :
    TraceParser.verdictRe.match l.text = none := by
  refine (l.match_prefixed _).trans ?_
  cases hb : l.body with
  | hook iif others hno => rfl
  | rule ref verdict text => rfl
  | decision policy v => exact absurd hb (h policy v)

/-- The order in which the patterns are tried is irrelevant. -/
theorem PrintedLine.onePattern : OnePattern l.text := by
  cases hb : l.body with
  | hook iif others hno =>
    have hrule := l.rule_none (by simp [hb])
    have hverdict := l.verdict_none (by simp [hb])
    constructor <;> simp [hrule, hverdict]
  | rule ref verdict text =>
    have hpacket := l.packet_none (by simp [hb])
    have hverdict := l.verdict_none (by simp [hb])
    constructor <;> simp [hpacket, hverdict]
  | decision policy v =>
    have hpacket := l.packet_none (by simp [hb])
    have hrule := l.rule_none (by simp [hb])
    constructor <;> simp [hpacket, hrule]

omit U in
theorem fieldChars_line (fields : List Field) : ∀ c ∈ fieldChars fields, TraceParser.dot c = true := by
  intro c hc
  obtain ⟨f, -, hc⟩ := List.mem_flatMap.mp hc
  unfold Field.charList at hc
  rcases List.mem_cons.mp hc with rfl | hc
  · rfl
  · rcases List.mem_append.mp hc with hc | hc
    · exact (Bool.and_eq_true_iff.mp (f.key_chars c hc)).2
    · split at hc
      · cases hc
      · rcases List.mem_cons.mp hc with rfl | hc
        · rfl
        · exact f.value_chars c hc

theorem fieldChars_stops (fields : List Field) : Stops TraceParser.iifChar (fieldChars fields) := by
  cases fields with
  | nil => exact stops_nil _
  | cons f fields => exact (stops_cons ..).mpr TraceParser.iifChar_space

/-- The packet line: what the optional field makes of the rest. -/
theorem PrintedLine.packet_match {iif : Option Iface} {others : List Field} {hno} (hb : l.body = .hook iif others hno) :
    TraceParser.packetRe.match l.text = (Re.opt TraceParser.iifRe).run
      ⟨some ':', (iif.elim [] fun i => " iif ".toList ++ i.charList) ++ fieldChars others, headerGroups l.id l.chain⟩
        fun a => some a.groups := by
  have hmatch := l.match_prefixed (.seq (.lit "packet:") (.opt TraceParser.iifRe))
  rw [hb] at hmatch
  exact hmatch.trans (run_lit "packet:" _ _ _ _)

section Opt

omit U

variable {β : Type} {r : Re} {a : At} {k : At → Option β} {v : β}

theorem opt_some (h : r.run a k = some v) : (Re.opt r).run a k = some v :=
  (congrArg (Option.or · _) h).trans Option.some_or

theorem opt_none (h : r.run a k = none) : (Re.opt r).run a k = k a := (congrArg (Option.or · _) h).trans Option.none_or

end Opt

theorem hookEvent_iif (name : List Char) : TraceParser.hookEvent (("iif", name) :: headerGroups l.id l.chain) =
    { type := .hook, traceId := some l.id, family := some l.chain.family.name, table := some l.chain.table.name
      chain := some l.chain.chain.name, hook := some (String.ofList name) } := by
  have hown : ∀ x ∈ [("iif", name)], x.1 ∉ headerNames := by simp [headerNames]
  have hbase := baseEvent_groups l.id l.chain hown .hook
  rw [List.singleton_append] at hbase
  rw [TraceParser.hookEvent, hbase]
  simp [Groups.get]

theorem PrintedLine.parse_hook {iif : Option Iface} {others : List Field} {hno} (hb : l.body = .hook iif others hno) :
    TraceParser.parseLine false l.text = .ok (some l.event) ↔ l.Clear := by
  have hmatch := l.packet_match hb
  have hparse : ∀ {m : Groups}, TraceParser.packetRe.match l.text = some m →
      TraceParser.parseLine false l.text = .ok (some (TraceParser.hookEvent m)) := by
    intro m hm
    simp [TraceParser.parseLine, hm]
  unfold PrintedLine.event PrintedLine.Clear
  rw [hb]
  cases iif with
  | some i =>
    simp only [Option.elim_some, List.append_assoc] at hmatch ⊢
    have hfirst := TraceParser.iifRe_first (g := headerGroups l.id l.chain) i (fieldChars_stops others)
    rw [hparse (hmatch.trans (opt_some hfirst)), hookEvent_iif, String.ofList_toList]
    simp
  | none =>
    simp only [Option.elim_none, List.nil_append] at hmatch ⊢
    cases hrun : TraceParser.iifRe.run ⟨some ':', fieldChars others, headerGroups l.id l.chain⟩
      fun a => some a.groups with
    | none =>
      have hclear : ¬NamesIif (fieldChars others) := by
        intro h
        have := TraceParser.iifRe_isSome (g := headerGroups l.id l.chain) (fieldChars_line others) h
        rw [hrun] at this
        cases this
      have hown : ∀ x ∈ ([] : Groups), x.1 ∉ headerNames := by simp
      have hbase := baseEvent_groups l.id l.chain hown .hook
      rw [List.nil_append] at hbase
      rw [hparse (hmatch.trans (opt_none hrun)), TraceParser.hookEvent, hbase]
      simp [hclear, Groups.get, headerGroups]
    | some m =>
      obtain ⟨hnames, name, hne, rfl⟩ := TraceParser.iifRe_some hrun
      rw [hparse (hmatch.trans (opt_some hrun)), hookEvent_iif]
      have hname : String.ofList name ≠ "" := by
        intro hempty
        have := congrArg String.toList hempty
        rw [String.toList_ofList] at this
        exact hne this
      simp [hnames, hname]

/-- What was read of a rule line. -/
def ruleGroups (id : String) (chain : Chain) (verdict : Option (List Char)) (text : List Char)
    (n : Option Handle) : Groups :=
  (verdict.elim [] fun w => [("verdict", w)]) ++ ("rule_text", text) ::
    ((n.elim [] fun n => [("handle", n.number.toList), ("rule_id", "0x".toList ++ n.ruleId.toList)]) ++
      headerGroups id chain)

section RuleGroups

variable (id : String) (chain : Chain) (verdict : Option (List Char)) (text : List Char) (n : Option Handle)

/-- The event of a rule line, from what was read of it. -/
theorem ruleEvent_groups (handle : Option Int) : TraceParser.ruleEvent (ruleGroups id chain verdict text n) handle =
    { type := .ruleMatch, traceId := some id, family := some chain.family.name, table := some chain.table.name
      chain := some chain.chain.name, ruleHandle := handle
      ruleText := some (PyStr.strip (String.ofList text)), verdict :=
        verdict.map fun w => PyStr.upper (String.ofList w) } := by
  cases verdict <;> cases n <;>
    simp [TraceParser.ruleEvent, TraceParser.baseEvent, ruleGroups, Groups.get, headerGroups, TraceParser.unquote_text]

theorem readHandle_groups : TraceParser.readHandle (ruleGroups id chain verdict text n) =
    n.elim (.ok none) fun n => (intOf n.number).map some := by
  cases verdict <;> cases n <;> simp [TraceParser.readHandle, ruleGroups, Groups.get, headerGroups]

end RuleGroups

/-- The rule line: what the optional handle and the text make of the rest. -/
theorem PrintedLine.rule_match {ref : Option RuleRef} {verdict : Option Word} {text : FreeText ref verdict}
    (hb : l.body = .rule ref verdict text) :
    TraceParser.ruleRe.match l.text = (Re.opt TraceParser.handleRe).run
      ⟨some ' ', (ref.elim [] fun r => r.printed.chars) ++
        (text.text.toList ++ (verdict.map fun v => v.text.toList).elim [] verdictChars), headerGroups l.id l.chain⟩
          fun b => TraceParser.textRe.run b fun a => some a.groups := by
  have hmatch := l.match_prefixed (.seq (.lit "rule ") (.seq (.opt TraceParser.handleRe) TraceParser.textRe))
  rw [hb] at hmatch
  exact hmatch.trans (run_lit "rule " _ _ _ _)

/-- The text and the verdict are read as they are printed. -/
theorem FreeText.run {ref : Option RuleRef} {verdict : Option Word} (text : FreeText ref verdict) (prev : Option Char)
    (g : Groups) :
    TraceParser.textRe.run ⟨prev, text.text.toList ++ (verdict.map fun v => v.text.toList).elim [] verdictChars, g⟩
        (fun a => some a.groups) =
      some (((verdict.map fun v => v.text.toList).elim [] fun w => [("verdict", w)]) ++
        ("rule_text", text.text.toList) :: g) := by
  refine TraceParser.run_text (TraceParser.toList_ne text.ne) text.chars ?_ ?_ prev g
  · intro w hw
    obtain ⟨v, -, rfl⟩ := Option.map_eq_some_iff.mp hw
    exact ⟨TraceParser.toList_ne v.ne, v.chars⟩
  · exact fun h => text.noVerdict (Option.map_eq_none_iff.mp h)

section Rule

variable {ref : Option RuleRef} {verdict : Option Word} {text : FreeText ref verdict} {m : Groups}

theorem PrintedLine.parse_of_rule (hb : l.body = .rule ref verdict text)
    (hm : TraceParser.ruleRe.match l.text = some m) :
    TraceParser.parseLine false l.text = (TraceParser.readHandle m).map fun n => some (TraceParser.ruleEvent m n) := by
  simp [TraceParser.parseLine, l.packet_none (by simp [hb]), hm]

/-- The line is parsed to its event once the handle and the text are read as they are printed. -/
theorem PrintedLine.parse_read (hb : l.body = .rule ref verdict text)
    (hm : TraceParser.ruleRe.match l.text =
      some (ruleGroups l.id l.chain (verdict.map fun v => v.text.toList) text.text.toList (ref.map RuleRef.printed)))
    (hlimit : ∀ r, ref = some r → PyStr.withinLimit (PyStr.digitCount (toString r.handle)) = true) :
    TraceParser.parseLine false l.text = .ok (some l.event) := by
  have hhandle : (ref.map RuleRef.printed).elim (.ok none) (fun n => (intOf n.number).map some) =
      (.ok (ref.map fun r => (r.handle : Int)) : Except PyExc _) := by
    cases ref with
    | none => rfl
    | some r =>
      have hnumber : r.printed.number = toString r.handle := rfl
      rw [Option.map_some, Option.elim_some, hnumber, intOf_toString (hlimit r rfl), Option.map_some]
      rfl
  rw [l.parse_of_rule hb hm, readHandle_groups, hhandle]
  show Except.ok (some (TraceParser.ruleEvent _ _)) = _
  rw [ruleEvent_groups, String.ofList_toList, text.trimmed]
  unfold PrintedLine.event
  rw [hb]
  cases verdict <;> simp

/-- The handle and the text are read where they are printed. -/
theorem PrintedLine.match_ref {r : RuleRef} {text : FreeText (some r) verdict}
    (hb : l.body = .rule (some r) verdict text) :
    TraceParser.ruleRe.match l.text =
      some (ruleGroups l.id l.chain (verdict.map fun v => v.text.toList) text.text.toList (some r.printed)) := by
  have hrun := r.printed.run_opt (q := some ' ') (g := headerGroups l.id l.chain)
    (k := fun b => TraceParser.textRe.run b fun a => some a.groups) (text.run _ _)
  exact (l.rule_match hb).trans hrun

theorem PrintedLine.parse_overlong {r : RuleRef} {text : FreeText (some r) verdict}
    (hb : l.body = .rule (some r) verdict text)
    (hlong : PyStr.withinLimit (PyStr.digitCount (toString r.handle)) = false) :
    ∃ exc, TraceParser.parseLine false l.text = .error exc := by
  obtain ⟨exc, hexc⟩ := intOf_overlong hlong
  refine ⟨exc, ?_⟩
  rw [l.parse_of_rule hb (l.match_ref hb), readHandle_groups, Option.elim_some, show r.printed.number =
    toString r.handle from rfl,
    hexc]
  rfl

theorem PrintedLine.parse_ref {r : RuleRef} {text : FreeText (some r) verdict}
    (hb : l.body = .rule (some r) verdict text) :
    TraceParser.parseLine false l.text = .ok (some l.event) ↔
      PyStr.withinLimit (PyStr.digitCount (toString r.handle)) = true := by
  constructor
  · intro hparse
    cases hlong : PyStr.withinLimit (PyStr.digitCount (toString r.handle)) with
    | true => rfl
    | false =>
      obtain ⟨exc, hexc⟩ := l.parse_overlong hb hlong
      rw [hexc] at hparse
      cases hparse
  · intro hlimit
    refine l.parse_read hb (l.match_ref hb) ?_
    rintro _ ⟨⟩
    exact hlimit

theorem PrintedLine.parse_noRef {text : FreeText none verdict} (hb : l.body = .rule none verdict text)
    (hclear : verdict ≠ none → ∀ n : Handle, text.text.toList ++ [' '] ≠ n.chars) :
    TraceParser.parseLine false l.text = .ok (some l.event) := by
  have hwords : (verdict.map fun v => v.text.toList) ≠ none → ∀ n : Handle, text.text.toList ++ [' '] ≠ n.chars := by
    intro h
    refine hclear ?_
    rintro rfl
    exact h rfl
  have hnone :=
    TraceParser.handleRe_none (k := fun b => TraceParser.textRe.run b fun a => some a.groups) (q := some ' ')
    (g := headerGroups l.id l.chain) (text.noHandle rfl) hwords
  refine l.parse_read hb ((l.rule_match hb).trans ((opt_none hnone).trans (text.run _ _))) ?_
  rintro _ ⟨⟩

/-- A text that is a rule id and a handle is taken for them, and the verdict for the text. -/
theorem PrintedLine.parse_taken {v : Word} {text : FreeText none (some v)} (hb : l.body = .rule none (some v) text)
    {n : Handle} (h : text.text.toList ++ [' '] = n.chars) :
      TraceParser.parseLine false l.text ≠ .ok (some l.event) := by
  have htaken := TraceParser.handle_taken (q := some ' ') (g := headerGroups l.id l.chain) h v.chars
  have hm : TraceParser.ruleRe.match l.text =
      some (ruleGroups l.id l.chain none ("(verdict".toList ++ ' ' :: (v.text.toList ++ [')'])) (some n)) :=
    (l.rule_match hb).trans htaken
  intro hparse
  rw [l.parse_of_rule hb hm, readHandle_groups, Option.elim_some] at hparse
  cases hnumber : intOf n.number with
  | error exc =>
    rw [hnumber] at hparse
    cases hparse
  | ok k =>
    rw [hnumber] at hparse
    have hevent : TraceParser.ruleEvent _ (some k) = l.event := Option.some.inj (Except.ok.inj hparse)
    rw [ruleEvent_groups] at hevent
    have hverdict := congrArg TraceEvent.verdict hevent
    unfold PrintedLine.event at hverdict
    rw [hb] at hverdict
    cases hverdict

theorem PrintedLine.parse_rule (hb : l.body = .rule ref verdict text) :
    TraceParser.parseLine false l.text = .ok (some l.event) ↔ l.Clear := by
  unfold PrintedLine.Clear
  rw [hb]
  cases ref with
  | some r => exact l.parse_ref hb
  | none =>
    cases verdict with
    | none => exact iff_of_true (l.parse_noRef hb (by simp)) trivial
    | some v =>
      constructor
      · intro hparse n h
        exact l.parse_taken hb h hparse
      · intro hclear
        exact l.parse_noRef hb fun _ => hclear

end Rule

theorem PrintedLine.parse_decision {policy : Bool} {v : Word} (hb : l.body = .decision policy v) :
    TraceParser.parseLine false l.text = .ok (some l.event) := by
  have hmatch := l.match_prefixed (Re.seqs [.alt (.lit "verdict") (.lit "policy"), .lit " ",
    .group "verdict" (Re.plus U.isWord)])
  rw [hb] at hmatch
  have hword : ∀ prev, (Re.group "verdict" (Re.plus U.isWord)).run ⟨prev, v.text.toList, headerGroups l.id l.chain⟩
      (fun a => some a.groups) = some (("verdict", v.text.toList) :: headerGroups l.id l.chain) := by
    intro prev
    have hrun : (Re.group "verdict" (Re.plus U.isWord)).run ⟨prev, v.text.toList ++ [], headerGroups l.id l.chain⟩
        (fun a => some a.groups) = some (("verdict", v.text.toList) :: headerGroups l.id l.chain) := by
      refine run_plus_longest (stops_nil _) (TraceParser.toList_ne v.ne) v.chars prev ?_
      rw [record_append]
    rwa [List.append_nil] at hrun
  have hm : TraceParser.verdictRe.match l.text = some (("verdict", v.text.toList) :: headerGroups l.id l.chain) := by
    refine hmatch.trans ?_
    cases policy with
    | true => exact hword (some ' ')
    | false => exact Option.or_eq_some_iff.mpr (.inl (hword (some ' ')))
  have hown : ∀ x ∈ [("verdict", v.text.toList)], x.1 ∉ headerNames := by simp [headerNames]
  have hbase := baseEvent_groups l.id l.chain hown .verdict
  rw [List.singleton_append] at hbase
  simp only [TraceParser.parseLine, Bool.false_eq_true, if_false, l.packet_none (by simp [hb]),
    l.rule_none (by simp [hb]), hm,
    Option.map_some, TraceParser.verdictEvent, hbase, PrintedLine.event, hb]
  simp [Groups.get]

/-- A printed line is parsed back to exactly its event, by one pattern only, exactly when it
    is clear. -/
theorem parse_printed_iff :
    TraceParser.parseLine false l.text = .ok (some l.event) ∧ OnePattern l.text ↔ l.Clear := by
  rw [and_iff_left l.onePattern]
  cases hb : l.body with
  | hook iif others hno => exact l.parse_hook hb
  | rule ref verdict text => exact l.parse_rule hb
  | decision policy v =>
    refine iff_of_true (l.parse_decision hb) ?_
    unfold PrintedLine.Clear
    rw [hb]
    trivial

end Parse

end Nse

/-! ## A packet that did not come in -/

namespace Nse

attribute [local instance] PyStr.Unicode.ascii

theorem noIif_of_all {fields : List Field} (h : fields.all (fun f => f.key != "iif") = true)
    (f : Field) (hf : f ∈ fields) :
    f.key ≠ "iif" := bne_iff_ne.mp (List.all_eq_true.mp h f hf)

/-- A packet that leaves by an interface called `veth-iif`. -/
def departure : PrintedLine where
  id := "aa11"
  chain :=
    { family := ⟨"ip6", false, by decide, List.all_eq_true.mp (by decide)⟩
      table := ⟨"mangle", false, by decide, List.all_eq_true.mp (by decide)⟩
      chain := ⟨"output", false, by decide, List.all_eq_true.mp (by decide)⟩ }
  body := .hook none
    [⟨"oif", "veth-iif", List.all_eq_true.mp (by decide), List.all_eq_true.mp (by decide)⟩,
      ⟨"ip6", "saddr fd00::2", List.all_eq_true.mp (by decide), List.all_eq_true.mp (by decide)⟩]
    fun _ => noIif_of_all (by decide)
  id_ne := by decide
  id_chars := List.all_eq_true.mp (by decide)

example : departure.text = "trace id aa11 ip6 mangle output packet: oif veth-iif ip6 saddr fd00::2" := by decide

/-- It is parsed to an event of a packet that came in through an interface called `ip6`. -/
theorem an_interface_called_iif_names_another :
    ((TraceParser.eventOf false departure.text).map (·.hook) = some (some "ip6") ∧ departure.event.hook = some "") ∧
      ¬∀ l : PrintedLine, TraceParser.parseLine false l.text = .ok (some l.event) ∧ OnePattern l.text := by
  have hparsed : (TraceParser.eventOf false departure.text).map (·.hook) = some (some "ip6") := by decide +kernel
  have hevent : departure.event.hook = some "" := rfl
  refine ⟨⟨hparsed, hevent⟩, ?_⟩
  intro h
  rw [TraceParser.eventOf_of_ok (h departure).1, Option.map_some, hevent] at hparsed
  revert hparsed
  decide

end Nse
