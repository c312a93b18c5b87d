/-
  Nse.Lib.PyProgram — a part of Python's grammar: programs of imports, assignments and
  calls, with names, decimal numbers and short string literals.

  `read` accepts nothing outside this part: an indented line, a comment, a number glued to a
  name, a string with a raw line break or an unknown escape, three quotes in a row and any
  other character or statement are refused.

  Proved: how the reading of a text begins with what it begins with: a piece of program text
  (`Reads.chunk`), a string literal (`Reads.literal`), a printed number (`Reads.number`); a
  quoted text is a literal that denotes it (`quoted_literal`).
-/

import Nse.Lib.PyFields

namespace PyProgram

/-! ## Tokens -/

inductive Token where
  | name (s : String)
  | int (n : Nat)
  | str (s : String)
  | punct (c : Char)
  | newline
  deriving DecidableEq, Repr

inductive Mode where
  /-- At the beginning of a line. -/
  | line
  | between
  | word (acc : List Char)
  | number (n : Nat)
  /-- After the opening quote. -/
  | opened (q : Char)
  /-- After two quotes. -/
  | empty (q : Char)
  | text (q : Char) (acc : List Char)
  | escape (q : Char) (acc : List Char)
  | hex (q : Char) (acc : List Char) (left value : Nat)
  deriving DecidableEq, Repr

def isQuote (c : Char) : Bool := c == '\'' || c == '"'

def isNameStart (c : Char) : Bool := c.isAlpha || c == '_'

def punctuation : List Char := ['(', ')', ',', '=', '/', '.']

/-- A character that begins a token, or separates two. -/
def begin (c : Char) : Option (List Token × Mode) :=
  if c = '\n' then some ([.newline], .line)
  else if c = ' ' then some ([], .between)
  else if isQuote c then some ([], .opened c)
  else if isNameStart c then some ([], .word [c])
  else if c.isDigit then some ([], .number (c.toNat - '0'.toNat))
  else if punctuation.contains c then some ([.punct c], .between)
  else none

def after (t : Token) (r : Option (List Token × Mode)) : Option (List Token × Mode) := r.map fun r => (t :: r.1, r.2)

def inText (q : Char) (acc : List Char) (c : Char) : Option (List Token × Mode) :=
  if c = q then some ([.str (String.ofList acc.reverse)], .between)
  else if c = '\\' then some ([], .escape q acc)
  else if c = '\n' ∨ c = '\r' then none
  else some ([], .text q (c :: acc))

/-- The character after a backslash. -/
def escaped (q : Char) (acc : List Char) (c : Char) : Option (List Token × Mode) :=
  if c = '\\' ∨ isQuote c = true then some ([], .text q (c :: acc))
  else if c = 'n' then some ([], .text q ('\n' :: acc))
  else if c = 'r' then some ([], .text q ('\r' :: acc))
  else if c = 't' then some ([], .text q ('\t' :: acc))
  else if c = 'x' then some ([], .hex q acc 2 0)
  else if c = 'u' then some ([], .hex q acc 4 0)
  else if c = 'U' then some ([], .hex q acc 8 0)
  else none

def hexValue (c : Char) : Option Nat :=
  if '0' ≤ c ∧ c ≤ '9' then some (c.toNat - 48)
  else if 'a' ≤ c ∧ c ≤ 'f' then some (c.toNat - 87)
  else if 'A' ≤ c ∧ c ≤ 'F' then some (c.toNat - 55)
  else none

def hexDigit (q : Char) (acc : List Char) (left value : Nat) (c : Char) : Option (List Token × Mode) :=
  (hexValue c).bind fun d =>
    let value := 16 * value + d
    if left > 1 then some ([], .hex q acc (left - 1) value)
    else if value.isValidChar then some ([], .text q (Char.ofNat value :: acc))
    else none

def step : Mode → Char → Option (List Token × Mode)
  | .line, c => if c = ' ' ∨ c = '\t' then none else begin c
  | .between, c => begin c
  | .word acc, c =>
    if isNameStart c || c.isDigit then some ([], .word (c :: acc))
    -- a string prefix
    else if isQuote c then none
    else after (.name (String.ofList acc.reverse)) (begin c)
  | .number n, c =>
    if c.isDigit then if n = 0 then none else some ([], .number (10 * n + (c.toNat - '0'.toNat)))
    else if isNameStart c then none
    else after (.int n) (begin c)
  | .opened q, c => if c = q then some ([], .empty q) else inText q [] c
  | .empty q, c => if c = q then none else after (.str "") (begin c)
  | .text q acc, c => inText q acc c
  | .escape q acc, c => escaped q acc c
  | .hex q acc left value, c => hexDigit q acc left value c

def run : Mode → List Char → Option (List Token × Mode)
  | m, [] => some ([], m)
  | m, c :: cs => (step m c).bind fun r => (run r.2 cs).map fun r' => (r.1 ++ r'.1, r'.2)

/-- The tokens of a whole text, which ends where a line begins. -/
def tokens (s : String) : Option (List Token) :=
  match run .line s.toList with
  | some (ts, .line) => some ts
  | _ => none

/-! ## Statements -/

inductive Expr where
  | name (s : String)
  | int (n : Int)
  | str (s : String)
  | attr (e : Expr) (field : String)
  /-- A call; an argument may have a keyword. -/
  | call (f : Expr) (args : List (Option String × Expr))
  | div (a b : Expr)

inductive Statement where
  | fromImport (path names : List String)
  | assign (target value : Expr)
  | expr (e : Expr)

mutual

def expr : Nat → List Token → Option (Expr × List Token)
  | 0, _ => none
  | n + 1, ts => (term n ts).bind fun r => quotient n r.1 r.2

def quotient : Nat → Expr → List Token → Option (Expr × List Token)
  | n + 1, e, .punct '/' :: ts => (term n ts).bind fun r => quotient n (.div e r.1) r.2
  | _, e, ts => some (e, ts)

def term : Nat → List Token → Option (Expr × List Token)
  | n + 1, .name s :: ts => trailers n (.name s) ts
  | _ + 1, .int k :: ts => some (.int k, ts)
  | _ + 1, .str s :: ts => some (.str s, ts)
  | _, _ => none

def trailers : Nat → Expr → List Token → Option (Expr × List Token)
  | n + 1, e, .punct '.' :: .name field :: ts => trailers n (.attr e field) ts
  | n + 1, e, .punct '(' :: ts => (arguments n ts).bind fun r => trailers n (.call e r.1) r.2
  | _, e, ts => some (e, ts)

def arguments : Nat → List Token → Option (List (Option String × Expr) × List Token)
  | _ + 1, .punct ')' :: ts => some ([], ts)
  | n + 1, ts => (argument n ts).bind fun a => further n a.1 a.2
  | 0, _ => none

/-- What follows an argument. -/
def further : Nat → Option String × Expr → List Token → Option (List (Option String × Expr) × List Token)
  | _ + 1, a, .punct ')' :: ts => some ([a], ts)
  | n + 1, a, .punct ',' :: ts => (arguments n ts).map fun r => (a :: r.1, r.2)
  | _, _, _ => none

def argument : Nat → List Token → Option ((Option String × Expr) × List Token)
  | n + 1, .name key :: .punct '=' :: ts => (expr n ts).map fun r => ((some key, r.1), r.2)
  | n + 1, ts => (expr n ts).map fun r => ((none, r.1), r.2)
  | 0, _ => none

end

/-- Names with this character between them. -/
def names (sep : Char) : List Token → Option (List String × List Token)
  | .name s :: .punct c :: ts =>
    if c = sep then (names sep ts).map fun r => (s :: r.1, r.2) else some ([s], .punct c :: ts)
  | .name s :: ts => some ([s], ts)
  | _ => none

def isTarget : Expr → Bool
  | .name _ => true
  | .attr _ _ => true
  | _ => false

def fromImport (ts : List Token) : Option Statement :=
  match names '.' ts with
  | some (path, .name "import" :: ts) =>
    match names ',' ts with
    | some (imported, []) => some (.fromImport path imported)
    | _ => none
  | _ => none

/-- Enough for every way these tokens can nest. -/
def fuel (ts : List Token) : Nat := 8 * ts.length + 8

def simple (ts : List Token) : Option Statement :=
  match expr (fuel ts) ts with
  | some (e, []) => some (.expr e)
  | some (target, .punct '=' :: ts) =>
    match expr (fuel ts) ts with
    | some (value, []) => if isTarget target then some (.assign target value) else none
    | _ => none
  | _ => none

def statement : List Token → Option Statement
  | .name "from" :: ts => fromImport ts
  | ts => simple ts

/-- The lines that hold a token. -/
def linesFrom : List Token → List Token → List (List Token)
  | acc, [] => if acc.isEmpty then [] else [acc.reverse]
  | acc, .newline :: ts => if acc.isEmpty then linesFrom [] ts else acc.reverse :: linesFrom [] ts
  | acc, t :: ts => linesFrom (t :: acc) ts

def program (ts : List Token) : Option (List Statement) := (linesFrom [] ts).mapM statement

/-- The statements of a program text. -/
def read (s : String) : Option (List Statement) := (tokens s).bind program

/-! ## Reading piece by piece -/

/-- In mode `m` the text `cs` is read as `ts`, which leaves mode `m'`. -/
def Reads (m : Mode) (cs : List Char) (ts : List Token) (m' : Mode) : Prop := run m cs = some (ts, m')

/-- The first character is no quote, and there is one. -/
def Unquoted (cs : List Char) : Prop := ∃ c rest, cs = c :: rest ∧ isQuote c = false

theorem run_append : ∀ {xs ys : List Char} {m : Mode}, run m (xs ++ ys) =
    (run m xs).bind fun r => (run r.2 ys).map fun r' => (r.1 ++ r'.1, r'.2)
  | [], ys, m => by
    cases h : run m ys <;> simp [run, h]
  | x :: xs, ys, m => by
    rw [List.cons_append, run, run]
    cases step m x with
    | none => rfl
    | some r =>
      rw [Option.bind_some, Option.bind_some, run_append]
      cases run r.2 xs with
      | none => rfl
      | some r' =>
        simp only [Option.bind_some, Option.map_some]
        cases run r'.2 ys with
        | none => rfl
        | some r'' => simp

theorem Reads.chunk {m m' m'' : Mode} {xs ys : List Char} {ts us : List Token} (hx : run m xs = some (ts, m'))
    (hy : Reads m' ys us m'') : Reads m (xs ++ ys) (ts ++ us) m'' := by
  unfold Reads at hy ⊢
  rw [run_append, hx, Option.bind_some, hy]
  rfl

/-- Whatever is no quote follows the text `t`, `t` is a literal that denotes `s`. -/
def Literal (t s : String) : Prop :=
  ∀ cs, Unquoted cs → run .between (t.toList ++ cs) = after (.str s) (run .between cs)

theorem Reads.literal {t s : String} (h : Literal t s) {cs : List Char} (hcs : Unquoted cs) {us : List Token} {m : Mode}
    (hr : Reads .between cs us m) : Reads .between (t.toList ++ cs) (.str s :: us) m := by
  unfold Reads at hr ⊢
  rw [h cs hcs, hr]
  rfl

theorem run_digits : ∀ {ds : List Char} {n : Nat}, (∀ c ∈ ds, c.isDigit = true) → n ≠ 0 →
    run (.number n) ds = some ([], .number (Nat.ofDigitChars 10 ds n))
  | [], n, _, _ => rfl
  | d :: ds, n, h, hn => by
    have hd := h d List.mem_cons_self
    have hnext : 10 * n + (d.toNat - '0'.toNat) ≠ 0 := by omega
    have hstep : step (.number n) d = some ([], .number (10 * n + (d.toNat - '0'.toNat))) := by
      simp [step, hd, hn]
    rw [run, hstep, Option.bind_some, run_digits (fun c hc => h c (List.mem_cons_of_mem d hc)) hnext,
      Nat.ofDigitChars_cons]
    rfl

theorem begin_digit {c : Char} (h : c.isDigit = true) : begin c = some ([], .number (c.toNat - '0'.toNat)) := by
  have hnot : c ≠ '\n' ∧ c ≠ ' ' ∧ isQuote c = false ∧ isNameStart c = false := by
    simp only [Char.isDigit, Bool.and_eq_true, decide_eq_true_eq] at h
    have hlow : 48 ≤ c.toNat := h.1
    have hhigh : c.toNat ≤ 57 := h.2
    refine ⟨?_, ?_, ?_, ?_⟩
    · rintro rfl
      revert hlow
      decide
    · rintro rfl
      revert hlow
      decide
    · rw [isQuote, Bool.or_eq_false_iff]
      refine ⟨?_, ?_⟩ <;> rw [beq_eq_false_iff_ne] <;> rintro rfl <;> revert hlow <;> decide
    · rw [isNameStart, Bool.or_eq_false_iff]
      refine ⟨?_, ?_⟩
      · rw [Bool.eq_false_iff]
        intro hletter
        rcases Bool.or_eq_true_iff.mp hletter with hupper | hlower
        · have : 65 ≤ c.toNat := (decide_eq_true_eq.mp hupper).1
          omega
        · have : 97 ≤ c.toNat := decide_eq_true_eq.mp (Bool.and_eq_true_iff.mp hlower).1
          omega
      · rw [beq_eq_false_iff_ne]
        rintro rfl
        revert hhigh
        decide
  unfold begin
  simp [hnot, h]

/-- A number that is not zero is printed without a leading zero. -/
theorem toDigits_head {n : Nat} (hn : n ≠ 0) : ∃ d ds, Nat.toDigits 10 n = d :: ds ∧ d ≠ '0' := by
  induction n using Nat.strongRecOn with
  | ind n ih =>
    by_cases hsmall : n < 10
    · exact ⟨_, _, Nat.toDigits_of_lt_base hsmall, fun h => hn (Nat.digitChar_eq_zero.mp h)⟩
    · obtain ⟨d, ds, hds, hd⟩ := ih (n / 10) (by omega) (by omega)
      refine ⟨d, ds ++ [(n % 10).digitChar], ?_, hd⟩
      rw [Nat.toDigits_of_base_le (by omega) (by omega), hds, List.cons_append]

/-- The first character is neither a digit nor one a name begins with, and there is one. -/
def Apart (cs : List Char) : Prop := ∃ c rest, cs = c :: rest ∧ c.isDigit = false ∧ isNameStart c = false

/-- A number that is not zero, printed. -/
theorem Reads.number {n : Nat} (hn : n ≠ 0) {cs : List Char} (hcs : Apart cs) {us : List Token} {m : Mode}
    (hr : Reads .between cs us m) : Reads .between ((toString n).toList ++ cs) (.int n :: us) m := by
  obtain ⟨c, cs, rfl, hc⟩ := hcs
  obtain ⟨d, ds, hds, hd⟩ := toDigits_head hn
  have hdigits : ∀ x ∈ d :: ds, x.isDigit = true := by
    intro x hx
    rw [← hds, ← PyStr.toList_toString] at hx
    exact PyStr.digit_of_mem_toString hx
  have hdigit := hdigits d List.mem_cons_self
  have hfirst : d.toNat - '0'.toNat ≠ 0 := by
    intro hzero
    have hlow : 48 ≤ d.toNat := by
      simp only [Char.isDigit, Bool.and_eq_true, decide_eq_true_eq] at hdigit
      exact hdigit.1
    have h48 : '0'.toNat = 48 := rfl
    exact hd (Char.toNat_inj.mp (by omega))
  have hvalue : Nat.ofDigitChars 10 ds (d.toNat - '0'.toNat) = n := by
    have h := Nat.ofDigitChars_ten_toDigits (n := n)
    rw [hds, Nat.ofDigitChars_cons] at h
    simpa using h
  have hread : run .between (d :: ds) = some ([], .number n) := by
    rw [run, step, begin_digit hdigit, Option.bind_some,
      run_digits (fun x hx => hdigits x (List.mem_cons_of_mem d hx)) hfirst, hvalue]
    rfl
  have hafter : run (.number n) (c :: cs) = after (.int n) (run .between (c :: cs)) := by
    rw [run, run, step, step, if_neg (by simp [hc.1]), if_neg (by simp [hc.2]), after]
    cases begin c with
    | none => rfl
    | some r =>
      simp only [Option.map_some, Option.bind_some, after]
      cases run r.2 cs <;> simp
  unfold Reads at hr ⊢
  rw [PyStr.toList_toString, hds, run_append, hread, Option.bind_some, hafter, hr]
  rfl

/-! ## A quoted text -/

/-- The quote Python prefers for a text. -/
def quoteOf (s : String) : Char := if s.toList.contains '\'' && !s.toList.contains '"' then '"' else '\''

def quoteChar (q c : Char) : List Char :=
  if c = q ∨ c = '\\' then ['\\', c]
  else if c = '\n' then ['\\', 'n']
  else if c = '\r' then ['\\', 'r']
  else if c = '\t' then ['\\', 't']
  else [c]

/-- `repr` of a text, with every other character taken to be printable. -/
def quoted (s : String) : String :=
  String.ofList (quoteOf s :: s.toList.flatMap (quoteChar (quoteOf s)) ++ [quoteOf s])

theorem isQuote_quoteOf (s : String) : isQuote (quoteOf s) = true := by
  unfold quoteOf
  split <;> rfl

/-- After one step that writes no token. -/
theorem run_silent {m m' : Mode} {c : Char} {cs : List Char} (h : step m c = some ([], m')) :
    run m (c :: cs) = run m' cs := by
  rw [run, h, Option.bind_some]
  cases run m' cs with
  | none => rfl
  | some r => rfl

theorem run_quoteChar {q : Char} (hq : isQuote q = true) (c : Char) (acc cs : List Char) :
    run (.text q acc) (quoteChar q c ++ cs) = run (.text q (c :: acc)) cs := by
  have hback : '\\' ≠ q := by
    rintro rfl
    exact absurd hq (by decide)
  have hopen : ∀ rest, run (.text q acc) ('\\' :: rest) = run (.escape q acc) rest := fun rest =>
    run_silent (by simp [step, inText, hback])
  unfold quoteChar
  by_cases h1 : c = q ∨ c = '\\'
  · have hescaped : c = '\\' ∨ isQuote c = true := by
      rcases h1 with rfl | h
      · exact .inr hq
      · exact .inl h
    rw [if_pos h1, List.cons_append, hopen]
    exact run_silent (by simp [step, escaped, hescaped])
  · rw [if_neg h1]
    by_cases h2 : c = '\n'
    · subst h2
      rw [if_pos rfl, List.cons_append, hopen]
      exact run_silent rfl
    · rw [if_neg h2]
      by_cases h3 : c = '\r'
      · subst h3
        rw [if_pos rfl, List.cons_append, hopen]
        exact run_silent rfl
      · rw [if_neg h3]
        by_cases h4 : c = '\t'
        · subst h4
          rw [if_pos rfl, List.cons_append, hopen]
          exact run_silent rfl
        · rw [if_neg h4]
          rw [not_or] at h1
          exact run_silent (by simp [step, inText, h1.1, h1.2, h2, h3])

theorem run_quoteChars {q : Char} (hq : isQuote q = true) : ∀ (s acc cs : List Char),
    run (.text q acc) (s.flatMap (quoteChar q) ++ q :: cs) =
      after (.str (String.ofList (acc.reverse ++ s))) (run .between cs)
  | [], acc, cs => by
    have hstep : step (.text q acc) q = some ([.str (String.ofList acc.reverse)], .between) := by simp [step, inText]
    rw [List.flatMap_nil, List.nil_append, run, hstep, Option.bind_some, List.append_nil]
    rfl
  | c :: s, acc, cs => by
    rw [List.flatMap_cons, List.append_assoc, run_quoteChar hq, run_quoteChars hq s (c :: acc) cs, List.reverse_cons,
      List.append_assoc, List.singleton_append]

theorem quoteChar_head (q c : Char) (hq : isQuote q = true) : ∃ d ds, quoteChar q c = d :: ds ∧ d ≠ q := by
  have hback : '\\' ≠ q := by
    rintro rfl
    exact absurd hq (by decide)
  unfold quoteChar
  by_cases h1 : c = q ∨ c = '\\'
  · exact ⟨'\\', [c], if_pos h1, hback⟩
  · rw [if_neg h1]
    rw [not_or] at h1
    split
    · exact ⟨_, _, rfl, hback⟩
    · split
      · exact ⟨_, _, rfl, hback⟩
      · split
        · exact ⟨_, _, rfl, hback⟩
        · exact ⟨_, _, rfl, h1.1⟩

/-- Any text, quoted, is a literal that denotes it. -/
theorem quoted_literal (s : String) : Literal (quoted s) s := by
  intro cs hcs
  have hq := isQuote_quoteOf s
  have hopen : step .between (quoteOf s) = some ([], .opened (quoteOf s)) := by
    have hplain : quoteOf s ≠ '\n' ∧ quoteOf s ≠ ' ' := by
      constructor <;> intro h <;> rw [h] at hq <;> exact absurd hq (by decide)
    simp [step, begin, hplain, hq]
  rw [quoted, String.toList_ofList, List.append_assoc, List.cons_append, List.singleton_append, run_silent hopen]
  cases hs : s.toList with
  | nil =>
    obtain ⟨c, rest, rfl, hc⟩ := hcs
    have hne : c ≠ quoteOf s := by
      rintro rfl
      rw [hq] at hc
      exact absurd hc (by decide)
    have hempty : s = "" := String.toList_eq_nil_iff.mp hs
    have hend : step (.empty (quoteOf s)) c = after (.str s) (begin c) := by rw [step, if_neg hne, hempty]
    have hsecond : step (.opened (quoteOf s)) (quoteOf s) = some ([], .empty (quoteOf s)) := by simp [step]
    rw [List.flatMap_nil, List.nil_append, run_silent hsecond, run, hend, run, step]
    cases begin c with
    | none => rfl
    | some r =>
      simp only [after, Option.map_some, Option.bind_some]
      cases run r.2 rest <;> simp
  | cons d ds =>
    obtain ⟨e, es, he, hne⟩ := quoteChar_head (quoteOf s) d hq
    have hfirst : run (.opened (quoteOf s)) ((d :: ds).flatMap (quoteChar (quoteOf s)) ++ quoteOf s :: cs) =
        run (.text (quoteOf s) []) ((d :: ds).flatMap (quoteChar (quoteOf s)) ++ quoteOf s :: cs) := by
      rw [List.flatMap_cons, he, List.cons_append, List.cons_append, run, run, step, if_neg hne, step]
    rw [hfirst, run_quoteChars hq, List.reverse_nil, List.nil_append, ← hs, String.ofList_toList]

end PyProgram
