/-
  Nse.Lib.PyStr — Python's `str`, as far as programs that cut up command output use it.

  Which characters are spaces, word characters and digits, how case is mapped, how a string
  is quoted and how many digits a number may have come from the interpreter. `Unicode` is any
  such table that agrees with ASCII; nothing here depends on the rest of it.
-/

namespace PyStr

def asciiSpace (c : Char) : Bool :=
  c == ' ' || (9 ≤ c.toNat && c.toNat ≤ 13) || (28 ≤ c.toNat && c.toNat ≤ 31)

def asciiWord (c : Char) : Bool := c.isAlphanum || c == '_'

def asciiDigit (c : Char) : Option Nat := if c.isDigit then some (c.toNat - '0'.toNat) else none

class Unicode where
  /-- `str.isspace`, and `\s`. -/
  isSpace : Char → Bool
  /-- `\w`. -/
  isWord : Char → Bool
  /-- The value of a decimal digit, and `\d`. -/
  digit : Char → Option Nat
  /-- `str.upper` maps one character at a time. -/
  upper : Char → List Char
  /-- `str.lower`, which looks at a sigma's neighbours. -/
  lower : String → String
  /-- `repr` of a string. -/
  repr : String → String
  /-- `sys.get_int_max_str_digits()`: a number of more digits is neither written nor read; 0 is
      no limit. -/
  maxStrDigits : Nat
  maxStrDigits_large : maxStrDigits = 0 ∨ 640 ≤ maxStrDigits
  space_ascii : ∀ c, c.toNat < 128 → isSpace c = asciiSpace c
  word_ascii : ∀ c, c.toNat < 128 → isWord c = asciiWord c
  digit_ascii : ∀ c, c.toNat < 128 → digit c = asciiDigit c
  upper_ascii : ∀ c, c.toNat < 128 → upper c = [c.toUpper]
  lower_ascii : ∀ s : String, (∀ c ∈ s.toList, c.toNat < 128) → lower s = String.ofList (s.toList.map Char.toLower)

/-- The table that knows no character outside ASCII. -/
@[reducible] def Unicode.ascii : Unicode where
  isSpace := asciiSpace
  isWord := asciiWord
  digit := asciiDigit
  upper c := [c.toUpper]
  lower s := String.ofList (s.toList.map Char.toLower)
  repr s := "'" ++ s ++ "'"
  maxStrDigits := 4300
  maxStrDigits_large := .inr (by decide)
  space_ascii _ _ := rfl
  word_ascii _ _ := rfl
  digit_ascii _ _ := rfl
  upper_ascii _ _ := rfl
  lower_ascii _ _ := rfl

def startsWith (s p : String) : Bool := p.toList.isPrefixOf s.toList

def contains (c : Char) (s : String) : Bool := s.toList.contains c

def occursIn (sub : List Char) : List Char → Bool
  | [] => sub.isEmpty
  | c :: cs => sub.isPrefixOf (c :: cs) || occursIn sub cs

/-- `sub in s`. -/
def includes (sub s : String) : Bool := occursIn sub.toList s.toList

/-- `s[:n]`. -/
def take (n : Nat) (s : String) : String := String.ofList (s.toList.take n)

def fieldsFrom (sep : Char) : List Char → List Char → List String
  | acc, [] => [String.ofList acc.reverse]
  | acc, c :: cs => if c = sep then String.ofList acc.reverse :: fieldsFrom sep [] cs else fieldsFrom sep (c :: acc) cs

/-- `s.split(sep)`, for a separator of one character. -/
def splitOn (sep : Char) (s : String) : List String := fieldsFrom sep [] s.toList

/-- The line boundaries of `str.splitlines`. -/
def isLineBreak (c : Char) : Bool :=
  (10 ≤ c.toNat && c.toNat ≤ 13) || (28 ≤ c.toNat && c.toNat ≤ 30) || c.toNat == 0x85 || c.toNat == 0x2028 ||
    c.toNat == 0x2029

def linesFrom : List Char → List Char → List String
  | acc, [] => if acc.isEmpty then [] else [String.ofList acc.reverse]
  | acc, '\r' :: '\n' :: cs => String.ofList acc.reverse :: linesFrom [] cs
  | acc, c :: cs => if isLineBreak c then String.ofList acc.reverse :: linesFrom [] cs else linesFrom (c :: acc) cs

def splitlines (s : String) : List String := linesFrom [] s.toList

def join (sep : String) : List String → String
  | [] => ""
  | [s] => s
  | s :: ss => s ++ sep ++ join sep ss

variable [U : Unicode]

def isDigit (c : Char) : Bool := (U.digit c).isSome

def strip (s : String) : String :=
  String.ofList ((s.toList.dropWhile U.isSpace).reverse.dropWhile U.isSpace).reverse

def upper (s : String) : String := String.ofList (s.toList.flatMap U.upper)

theorem upper_of_ascii {s : String} (hs : s.toList.all (fun c => decide (c.toNat < 128)) = true) :
    upper s = String.ofList (s.toList.map Char.toUpper) := by
  have hupper : ∀ cs : List Char, (∀ c ∈ cs, c.toNat < 128) → cs.flatMap U.upper = cs.map Char.toUpper := by
    intro cs hcs
    induction cs with
    | nil => rfl
    | cons c cs ih =>
      rw [List.flatMap_cons, U.upper_ascii c (hcs c List.mem_cons_self), List.map_cons,
        ih fun d hd => hcs d (List.mem_cons_of_mem _ hd)]
      rfl
  exact congrArg String.ofList (hupper s.toList fun c hc => of_decide_eq_true (List.all_eq_true.mp hs c hc))

def wordsFrom : List Char → List Char → List String
  | acc, [] => if acc.isEmpty then [] else [String.ofList acc.reverse]
  | acc, c :: cs =>
    if U.isSpace c then if acc.isEmpty then wordsFrom [] cs else String.ofList acc.reverse :: wordsFrom [] cs
    else wordsFrom (c :: acc) cs

/-- `s.split()`. -/
def split (s : String) : List String := wordsFrom [] s.toList

/-- Digits with single underscores between them. -/
def digitsFrom : Nat → List Char → Option Nat
  | n, [] => some n
  | _, ['_'] => none
  | n, '_' :: c :: cs => (U.digit c).bind fun d => digitsFrom (10 * n + d) cs
  | n, c :: cs => (U.digit c).bind fun d => digitsFrom (10 * n + d) cs

def natOf : List Char → Option Nat
  | [] => none
  | c :: cs => (U.digit c).bind fun d => digitsFrom d cs

def withinLimit (digits : Nat) : Bool := U.maxStrDigits == 0 || digits ≤ U.maxStrDigits

def digitCount (s : String) : Nat := s.toList.countP isDigit

/-- `int(s)`, whatever the limit on digits; `none` where it raises `ValueError`. -/
def int (s : String) : Option Int :=
  match (strip s).toList with
  | '-' :: cs => (natOf cs).map fun n => -(n : Int)
  | '+' :: cs => (natOf cs).map fun n => (n : Int)
  | cs => (natOf cs).map fun n => (n : Int)

/-! ## ASCII -/

theorem isSpace_char {c : Char} {b : Bool} (h : c.toNat < 128 ∧ asciiSpace c = b) : U.isSpace c = b :=
  (U.space_ascii c h.1).trans h.2

theorem isWord_char {c : Char} {b : Bool} (h : c.toNat < 128 ∧ asciiWord c = b) : U.isWord c = b :=
  (U.word_ascii c h.1).trans h.2

theorem isDigit_char {c : Char} {b : Bool} (h : c.toNat < 128 ∧ c.isDigit = b) : isDigit c = b := by
  rw [isDigit, U.digit_ascii c h.1, asciiDigit, ← h.2]
  cases c.isDigit <;> rfl

theorem isSpace_blank : U.isSpace ' ' = true := isSpace_char (by decide)

theorem isSpace_visible {c : Char} (hlow : 32 < c.toNat) (hhigh : c.toNat < 128) : U.isSpace c = false := by
  have hne : c ≠ ' ' := by
    rintro rfl
    simp at hlow
  refine isSpace_char ⟨hhigh, ?_⟩
  simp only [asciiSpace, Bool.or_eq_false_iff, Bool.and_eq_false_iff, decide_eq_false_iff_not, beq_eq_false_iff_ne]
  exact ⟨⟨hne, .inr (by omega)⟩, .inr (by omega)⟩

theorem words_of_ascii {s : String} (h : s.toList.all (fun c => decide (c.toNat < 128) && asciiWord c) = true) :
    ∀ c ∈ s.toList, U.isWord c = true := by
  intro c hc
  obtain ⟨hlt, hword⟩ := Bool.and_eq_true_iff.mp (List.all_eq_true.mp h c hc)
  exact isWord_char ⟨of_decide_eq_true hlt, hword⟩

/-! ## Numbers -/

/-- Nothing is stripped where no space stands at either end. -/
theorem strip_eq {s : String} (hhead : ∀ c ∈ s.toList.head?, U.isSpace c = false)
    (hlast : ∀ c ∈ s.toList.getLast?, U.isSpace c = false) : strip s = s := by
  have hdrop : ∀ cs : List Char, (∀ c ∈ cs.head?, U.isSpace c = false) → cs.dropWhile U.isSpace = cs := by
    intro cs hcs
    cases cs with
    | nil => rfl
    | cons c cs => simp [hcs c rfl]
  unfold strip
  rw [hdrop _ hhead, hdrop, List.reverse_reverse, String.ofList_toList]
  simpa using hlast

theorem digit_of_isDigit {c : Char} (h : c.isDigit = true) : U.digit c = some (c.toNat - '0'.toNat) := by
  have hascii : c.toNat < 128 := by
    simp only [Char.isDigit, Bool.and_eq_true, decide_eq_true_eq] at h
    have : c.val.toNat ≤ 57 := h.2
    show c.val.toNat < 128
    omega
  rw [U.digit_ascii c hascii, asciiDigit, if_pos h]

theorem isDigit_ascii {c : Char} (h : c.isDigit = true) : isDigit c = true := by
  rw [isDigit, digit_of_isDigit h, Option.isSome_some]

theorem isSpace_of_isDigit {c : Char} (h : c.isDigit = true) : U.isSpace c = false := by
  simp only [Char.isDigit, Bool.and_eq_true, decide_eq_true_eq] at h
  have hlow : 48 ≤ c.toNat := h.1
  have hhigh : c.toNat ≤ 57 := h.2
  exact isSpace_visible (by omega) (by omega)

theorem digitsFrom_eq {cs : List Char} (h : ∀ c ∈ cs, c.isDigit = true) (n : Nat) :
    digitsFrom n cs = some (Nat.ofDigitChars 10 cs n) := by
  induction cs generalizing n with
  | nil => simp [digitsFrom]
  | cons c cs ih =>
    have hc := h c List.mem_cons_self
    have hne : c ≠ '_' := by
      rintro rfl
      simp [Char.isDigit] at hc
    have hstep : digitsFrom n (c :: cs) = (U.digit c).bind fun d => digitsFrom (10 * n + d) cs := by
      rw [digitsFrom.eq_def]
      split
      · rename_i heq
        cases heq
      · rename_i heq
        exact absurd (List.cons.inj heq).1 hne
      · rename_i heq
        exact absurd (List.cons.inj heq).1 hne
      · rename_i heq
        obtain ⟨rfl, rfl⟩ := List.cons.inj heq
        rfl
    rw [hstep, digit_of_isDigit hc, Option.bind_some, ih fun d hd => h d (List.mem_cons_of_mem _ hd),
      Nat.ofDigitChars_cons]

/-- `int` of digits is the number they make. -/
theorem int_digits {s : String} (hne : s.toList ≠ []) (h : ∀ c ∈ s.toList, c.isDigit = true) :
    int s = some ((Nat.ofDigitChars 10 s.toList 0 : Nat) : Int) := by
  have hstrip : strip s = s :=
    strip_eq (fun c hc => isSpace_of_isDigit (h c (List.mem_of_mem_head? hc)))
      fun c hc => isSpace_of_isDigit (h c (List.mem_of_mem_getLast? hc))
  unfold int
  rw [hstrip]
  cases hs : s.toList with
  | nil => exact absurd hs hne
  | cons c cs =>
    rw [hs] at h
    have hc := h c List.mem_cons_self
    have hnat : natOf (c :: cs) = some (Nat.ofDigitChars 10 (c :: cs) 0) := by
      rw [natOf, digit_of_isDigit hc, Option.bind_some, digitsFrom_eq fun d hd => h d (List.mem_cons_of_mem _ hd),
        Nat.ofDigitChars_cons, Nat.mul_zero, Nat.zero_add]
    split
    · rename_i heq
      obtain ⟨rfl, rfl⟩ := List.cons.inj heq
      simp [Char.isDigit] at hc
    · rename_i heq
      obtain ⟨rfl, rfl⟩ := List.cons.inj heq
      simp [Char.isDigit] at hc
    · rw [hnat]
      rfl

/-- `int` reads a number back. -/
theorem int_toString (n : Nat) : int (toString n) = some (n : Int) := by
  have hchars : (toString n).toList = Nat.toDigits 10 n := by
    rw [Nat.toString_eq_ofList_toDigits, String.toList_ofList]
  have hdigits : ∀ c ∈ (toString n).toList, c.isDigit = true := by
    rw [hchars]
    exact fun c hc => Nat.isDigit_of_mem_toDigits (by omega) (by omega) hc
  rw [int_digits (by rw [hchars]; exact Nat.toDigits_ne_nil) hdigits, hchars, Nat.ofDigitChars_ten_toDigits]

end PyStr
