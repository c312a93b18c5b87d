/-
  Nse.Lib.PyFields — cutting a string at a separator, or into words, and what the pieces say
  about it.

  - `splitOn_injective`: the pieces at a separator determine the string.
  - `split_strip`, `split_layOut`: the words of a line are those it was laid out from,
    whatever spaces stand between them and around them.
-/

import Nse.Lib.PyStr
import Mathlib.Algebra.Group.Nat.Defs
import Mathlib.Data.List.TakeWhile

namespace PyStr

variable {sep : Char}

/-- The pieces, put together again. -/
def glue (sep : Char) : List String → List Char
  | [] => []
  | [p] => p.toList
  | p :: ps => p.toList ++ sep :: glue sep ps

theorem fieldsFrom_ne_nil : ∀ (acc cs : List Char), fieldsFrom sep acc cs ≠ []
  | _, [] => by simp [fieldsFrom]
  | acc, c :: cs => by
    unfold fieldsFrom
    split
    · simp
    · exact fieldsFrom_ne_nil (c :: acc) cs

theorem glue_fieldsFrom : ∀ (acc cs : List Char), glue sep (fieldsFrom sep acc cs) = acc.reverse ++ cs
  | acc, [] => by simp [fieldsFrom, glue]
  | acc, c :: cs => by
    unfold fieldsFrom
    by_cases hc : c = sep
    · rw [if_pos hc]
      have ih := glue_fieldsFrom [] cs
      cases hf : fieldsFrom sep [] cs with
      | nil => exact absurd hf (fieldsFrom_ne_nil [] cs)
      | cons f fs =>
        rw [hf] at ih
        simp [glue, ih, hc]
    · rw [if_neg hc, glue_fieldsFrom (c :: acc) cs]
      simp

theorem glue_splitOn (s : String) : glue sep (splitOn sep s) = s.toList := glue_fieldsFrom [] s.toList

/-- The pieces determine the string. -/
theorem splitOn_injective {s t : String} (h : splitOn sep s = splitOn sep t) : s = t := by
  rw [← String.toList_inj, ← glue_splitOn s, h, glue_splitOn]

theorem mem_glue {c : Char} : ∀ {ps : List String}, c ∈ glue sep ps → c = sep ∨ ∃ p ∈ ps, c ∈ p.toList
  | [], h => by cases h
  | [p], h => .inr ⟨p, by simp, h⟩
  | p :: q :: ps, h => by
    rcases List.mem_append.mp h with h | h
    · exact .inr ⟨p, by simp, h⟩
    · rcases List.mem_cons.mp h with h | h
      · exact .inl h
      · rcases mem_glue h with h | ⟨x, hx, hc⟩
        · exact .inl h
        · exact .inr ⟨x, List.mem_cons_of_mem p hx, hc⟩

theorem mem_splitOn {c : Char} {s : String} (h : c ∈ s.toList) : c = sep ∨ ∃ p ∈ splitOn sep s, c ∈ p.toList := by
  rw [← glue_splitOn s] at h
  exact mem_glue h

theorem fieldsFrom_whole : ∀ {acc cs : List Char}, sep ∉ cs → fieldsFrom sep acc cs =
    [String.ofList (acc.reverse ++ cs)]
  | acc, [], _ => by simp [fieldsFrom]
  | acc, c :: cs, h => by
    have hc : c ≠ sep := by
      rintro rfl
      exact h List.mem_cons_self
    unfold fieldsFrom
    rw [if_neg hc, fieldsFrom_whole fun hm => h (List.mem_cons_of_mem c hm)]
    simp

/-- Without a separator there is one piece. -/
theorem splitOn_whole {s : String} (h : sep ∉ s.toList) : splitOn sep s = [s] := by
  unfold splitOn
  rw [fieldsFrom_whole h]
  simp

theorem fieldsFrom_first : ∀ {acc cs rest : List Char}, sep ∉ cs →
    fieldsFrom sep acc (cs ++ sep :: rest) = String.ofList (acc.reverse ++ cs) :: fieldsFrom sep [] rest
  | acc, [], rest, _ => by simp [fieldsFrom]
  | acc, c :: cs, rest, h => by
    have hc : c ≠ sep := by
      rintro rfl
      exact h List.mem_cons_self
    rw [List.cons_append, fieldsFrom, if_neg hc, fieldsFrom_first fun hm => h (List.mem_cons_of_mem c hm)]
    simp

/-- The first piece ends at the first separator. -/
theorem splitOn_first {s t u : String} (h : sep ∉ t.toList) (hs : s.toList = t.toList ++ sep :: u.toList) :
    splitOn sep s = t :: splitOn sep u := by
  unfold splitOn
  rw [hs, fieldsFrom_first h]
  simp

theorem contains_iff {c : Char} {s : String} : contains c s = true ↔ c ∈ s.toList := by
  simp [contains]

/-- The first piece is what stands before the first separator. -/
theorem fieldsFrom_head : ∀ {acc cs : List Char},
    (fieldsFrom sep acc cs).head? = some (String.ofList (acc.reverse ++ cs.takeWhile (· != sep)))
  | acc, [] => by simp [fieldsFrom]
  | acc, c :: cs => by
    by_cases hc : c = sep
    · simp [fieldsFrom, hc]
    · rw [fieldsFrom, if_neg hc, fieldsFrom_head]
      simp [hc]

theorem splitOn_head (s : String) : (splitOn sep s).head? = some (String.ofList (s.toList.takeWhile (· != sep))) :=
  fieldsFrom_head

/-! ## Lines -/

/-- Lines, each with its end. -/
def unlines (lines : List String) : List Char := lines.flatMap fun l => l.toList ++ ['\n']

theorem linesFrom_line : ∀ {l acc rest : List Char}, (∀ c ∈ l, isLineBreak c = false) →
    linesFrom acc (l ++ '\n' :: rest) = String.ofList (acc.reverse ++ l) :: linesFrom [] rest
  | [], acc, rest, _ => by
    rw [List.nil_append, linesFrom.eq_def]
    split
    · rename_i heq
      cases heq
    · rename_i heq
      cases heq
    · rename_i heq
      cases heq
      rw [if_pos (by decide)]
      simp
  | c :: l, acc, rest, h => by
    have hc := h c List.mem_cons_self
    have hcr : c ≠ '\r' := by
      rintro rfl
      revert hc
      decide
    rw [List.cons_append, linesFrom.eq_def]
    split
    · rename_i heq
      cases heq
    · rename_i heq
      exact absurd (List.cons.inj heq).1 hcr
    · rename_i heq
      cases heq
      rw [if_neg (by simp [hc]), linesFrom_line fun d hd => h d (List.mem_cons_of_mem _ hd)]
      simp

theorem splitlines_unlines : ∀ {lines : List String}, (∀ l ∈ lines, ∀ c ∈ l.toList, isLineBreak c = false) →
    splitlines (String.ofList (unlines lines)) = lines
  | [], _ => rfl
  | l :: lines, h => by
    have ih := splitlines_unlines fun m hm => h m (List.mem_cons_of_mem l hm)
    unfold splitlines at ih ⊢
    rw [String.toList_ofList] at ih ⊢
    rw [unlines, List.flatMap_cons, List.append_assoc, List.singleton_append, linesFrom_line (h l List.mem_cons_self),
      List.reverse_nil, List.nil_append, String.ofList_toList]
    exact congrArg (l :: ·) ih

theorem notBreak_of_digit {c : Char} (h : c.isDigit = true) : isLineBreak c = false := by
  simp only [Char.isDigit, Bool.and_eq_true, decide_eq_true_eq] at h
  have hlow : 48 ≤ c.toNat := h.1
  have hhigh : c.toNat ≤ 57 := h.2
  simp only [isLineBreak, Bool.or_eq_false_iff, Bool.and_eq_false_iff, decide_eq_false_iff_not, beq_eq_false_iff_ne]
  omega

theorem noBreak_literal {s : String} (hs : (s.toList.all fun c => !isLineBreak c) = true) :
    ∀ c ∈ s.toList, isLineBreak c = false := by
  intro c hc
  have hc' := List.all_eq_true.mp hs c hc
  rw [Bool.not_eq_true'] at hc'
  exact hc'

theorem noBreak_append {s t : String} (hs : ∀ c ∈ s.toList, isLineBreak c = false)
    (ht : ∀ c ∈ t.toList, isLineBreak c = false) : ∀ c ∈ (s ++ t).toList, isLineBreak c = false := by
  intro c hc
  rw [String.toList_append, List.mem_append] at hc
  rcases hc with hc | hc
  · exact hs c hc
  · exact ht c hc

/-- No line holds a line break. -/
theorem noBreak_of_mem_linesFrom {l : String} {c : Char} (acc cs : List Char) (hacc : ∀ d ∈ acc, isLineBreak d = false)
    (hl : l ∈ linesFrom acc cs) (hc : c ∈ l.toList) : isLineBreak c = false := by
  have hlast : ∀ {ds : List Char}, (∀ d ∈ ds, isLineBreak d = false) → l = String.ofList ds.reverse →
      isLineBreak c = false := by
    rintro ds hds rfl
    rw [String.toList_ofList] at hc
    exact hds c (List.mem_reverse.mp hc)
  fun_induction linesFrom acc cs with
  | case1 acc hnil => cases hl
  | case2 acc hnil => exact hlast hacc (List.mem_singleton.mp hl)
  | case3 acc cs ih =>
    rcases List.mem_cons.mp hl with hl | hl
    · exact hlast hacc hl
    · exact ih (List.forall_mem_nil _) hl
  | case4 acc d cs hcr hd ih =>
    rcases List.mem_cons.mp hl with hl | hl
    · exact hlast hacc hl
    · exact ih (List.forall_mem_nil _) hl
  | case5 acc d cs hcr hd ih => exact ih (List.forall_mem_cons.mpr ⟨by simpa using hd, hacc⟩) hl

/-- Every character is a line break or in a line. -/
theorem mem_linesFrom {c : Char} (acc cs : List Char) (h : c ∈ acc ∨ c ∈ cs) :
    isLineBreak c = true ∨ ∃ l ∈ linesFrom acc cs, c ∈ l.toList := by
  have hline : ∀ {ds : List Char} {rest : List String}, c ∈ ds → ∃ l ∈ String.ofList ds.reverse :: rest, c ∈ l.toList :=
    fun hd => ⟨_, List.mem_cons_self, by rwa [String.toList_ofList, List.mem_reverse]⟩
  fun_induction linesFrom acc cs with
  | case1 acc hnil =>
    rw [List.isEmpty_iff.mp hnil] at h
    simp at h
  | case2 acc hnil => exact .inr (hline (h.resolve_right (List.not_mem_nil)))
  | case3 acc cs ih =>
    rcases h with h | h
    · exact .inr (hline h)
    · rcases List.mem_cons.mp h with rfl | h
      · exact .inl (by decide)
      · rcases List.mem_cons.mp h with rfl | h
        · exact .inl (by decide)
        · exact (ih (.inr h)).imp_right fun ⟨l, hl, hc⟩ => ⟨l, List.mem_cons_of_mem _ hl, hc⟩
  | case4 acc d cs hcr hd ih =>
    rcases h with h | h
    · exact .inr (hline h)
    · rcases List.mem_cons.mp h with rfl | h
      · exact .inl hd
      · exact (ih (.inr h)).imp_right fun ⟨l, hl, hc⟩ => ⟨l, List.mem_cons_of_mem _ hl, hc⟩
  | case5 acc d cs hcr hd ih =>
    refine ih ?_
    rcases h with h | h
    · exact .inl (List.mem_cons_of_mem d h)
    · rcases List.mem_cons.mp h with rfl | h
      · exact .inl List.mem_cons_self
      · exact .inr h

/-! ## Words -/

variable [U : Unicode]

/-- A text that stands between spaces. -/
structure Word (s : String) : Prop where
  nonempty : s ≠ ""
  solid : ∀ c ∈ s.toList, U.isSpace c = false

theorem spaces_blank : ∀ c ∈ " ".toList, U.isSpace c = true := by
  simpa using isSpace_blank

theorem solid_of_ascii {s : String} (h : s.toList.all (fun c => decide (c.toNat < 128) && !asciiSpace c) = true) :
    ∀ c ∈ s.toList, U.isSpace c = false := by
  intro c hc
  have hchar := List.all_eq_true.mp h c hc
  simp only [Bool.and_eq_true, decide_eq_true_eq, Bool.not_eq_true'] at hchar
  exact isSpace_char hchar

theorem wordsFrom_space {c : Char} (hc : U.isSpace c = true) (acc cs : List Char) :
    wordsFrom acc (c :: cs) = (if acc.isEmpty then [] else [String.ofList acc.reverse]) ++ wordsFrom [] cs := by
  rw [wordsFrom, if_pos hc]
  split <;> rfl

theorem wordsFrom_word : ∀ {w acc rest : List Char}, (∀ c ∈ w, U.isSpace c = false) →
    wordsFrom acc (w ++ rest) = wordsFrom (w.reverse ++ acc) rest
  | [], acc, rest, _ => rfl
  | c :: w, acc, rest, h => by
    rw [List.cons_append, wordsFrom, if_neg (by simp [h c List.mem_cons_self]),
      wordsFrom_word fun d hd => h d (List.mem_cons_of_mem c hd)]
    simp

theorem wordsFrom_spaces : ∀ {cs acc : List Char}, (∀ c ∈ cs, U.isSpace c = true) → wordsFrom acc cs = wordsFrom acc []
  | [], acc, _ => rfl
  | c :: cs, acc, h => by
    rw [wordsFrom_space (h c List.mem_cons_self), wordsFrom_spaces fun d hd => h d (List.mem_cons_of_mem c hd)]
    simp [wordsFrom]

/-- Leading spaces separate nothing. -/
theorem wordsFrom_leading : ∀ {sp cs : List Char}, (∀ c ∈ sp, U.isSpace c = true) →
    wordsFrom [] (sp ++ cs) = wordsFrom [] cs
  | [], _, _ => rfl
  | c :: sp, cs, h => by
    rw [List.cons_append, wordsFrom_space (h c List.mem_cons_self),
      wordsFrom_leading fun d hd => h d (List.mem_cons_of_mem c hd)]
    rfl

/-- Nor do trailing spaces. -/
theorem wordsFrom_trailing {sp : List Char} (h : ∀ c ∈ sp, U.isSpace c = true) :
    ∀ {cs acc : List Char}, wordsFrom acc (cs ++ sp) = wordsFrom acc cs
  | [], acc => wordsFrom_spaces h
  | c :: cs, acc => by
    by_cases hc : U.isSpace c = true
    · rw [List.cons_append, wordsFrom_space hc, wordsFrom_space hc, wordsFrom_trailing h]
    · rw [List.cons_append, wordsFrom, wordsFrom, if_neg hc, if_neg hc, wordsFrom_trailing h]

theorem isSpace_takeWhile : ∀ {cs : List Char}, ∀ c ∈ cs.takeWhile U.isSpace, U.isSpace c = true := by
  intro cs c hc
  exact List.all_eq_true.mp List.all_takeWhile c hc

theorem wordsFrom_dropWhile (cs : List Char) : wordsFrom [] (cs.dropWhile U.isSpace) = wordsFrom [] cs := by
  have hspaces : ∀ c ∈ cs.takeWhile U.isSpace, U.isSpace c = true := isSpace_takeWhile
  calc wordsFrom [] (cs.dropWhile U.isSpace)
      = wordsFrom [] (cs.takeWhile U.isSpace ++ cs.dropWhile U.isSpace) := (wordsFrom_leading hspaces).symm
    _ = wordsFrom [] cs := by rw [List.takeWhile_append_dropWhile]

theorem wordsFrom_dropTrailing (cs : List Char) :
    wordsFrom [] (cs.reverse.dropWhile U.isSpace).reverse = wordsFrom [] cs := by
  have hsplit : (cs.reverse.dropWhile U.isSpace).reverse ++ (cs.reverse.takeWhile U.isSpace).reverse = cs := by
    rw [← List.reverse_append, List.takeWhile_append_dropWhile, List.reverse_reverse]
  have hspaces : ∀ c ∈ (cs.reverse.takeWhile U.isSpace).reverse, U.isSpace c = true :=
    fun c hc => isSpace_takeWhile c (List.mem_reverse.mp hc)
  calc wordsFrom [] (cs.reverse.dropWhile U.isSpace).reverse
      = wordsFrom [] ((cs.reverse.dropWhile U.isSpace).reverse ++ (cs.reverse.takeWhile U.isSpace).reverse) :=
        (wordsFrom_trailing hspaces).symm
    _ = wordsFrom [] cs := by rw [hsplit]

theorem split_strip (s : String) : split (strip s) = split s := by
  unfold split strip
  rw [String.toList_ofList, wordsFrom_dropTrailing, wordsFrom_dropWhile]

/-- Words, each with a number of further blanks after it. -/
def layOut : List (String × Nat) → List Char
  | [] => []
  | [(w, n)] => w.toList ++ List.replicate n ' '
  | (w, n) :: ws => w.toList ++ ' ' :: (List.replicate n ' ' ++ layOut ws)

/-- A text that does not begin with a space begins with its first word. -/
theorem split_head {s : String} {c : Char} {cs : List Char} (hs : s.toList = c :: cs) (hc : U.isSpace c = false) :
    (split s).head? = some (String.ofList (s.toList.takeWhile fun d => !U.isSpace d)) := by
  have hsplit : s.toList.takeWhile (fun d => !U.isSpace d) ++ s.toList.dropWhile (fun d => !U.isSpace d) = s.toList :=
    List.takeWhile_append_dropWhile
  have hsolid : ∀ d ∈ s.toList.takeWhile (fun d => !U.isSpace d), U.isSpace d = false := by
    intro d hd
    simpa using List.all_eq_true.mp List.all_takeWhile d hd
  have hne : s.toList.takeWhile (fun d => !U.isSpace d) ≠ [] := by simp [hs, hc]
  unfold split
  rw [← hsplit, wordsFrom_word hsolid, hsplit]
  cases hrest : s.toList.dropWhile (fun d => !U.isSpace d) with
  | nil => simp [wordsFrom, hne]
  | cons d ds =>
    have hd : U.isSpace d = true := by
      have := List.head?_dropWhile_not (fun d => !U.isSpace d) s.toList
      rw [hrest] at this
      simpa using this
    rw [wordsFrom_space hd]
    simp [hne]

theorem mem_strip {s : String} {c : Char} (h : c ∈ (strip s).toList) : c ∈ s.toList := by
  unfold strip at h
  rw [String.toList_ofList, List.mem_reverse] at h
  have h := (List.dropWhile_sublist _).subset h
  exact (List.dropWhile_sublist _).subset (List.mem_reverse.mp h)

/-- Nothing that is stripped ends in a space. -/
theorem strip_last {s : String} : ∀ c ∈ (strip s).toList.getLast?, U.isSpace c = false := by
  intro c hc
  unfold strip at hc
  rw [String.toList_ofList, List.getLast?_reverse] at hc
  have := List.head?_dropWhile_not U.isSpace (s.toList.dropWhile U.isSpace).reverse
  rw [Option.mem_def.mp hc] at this
  simpa using this

/-- Nothing is left of spaces only. -/
theorem spaces_of_strip {s : String} (h : strip s = "") : ∀ c ∈ s.toList, U.isSpace c = true := by
  have hnil : ((s.toList.dropWhile U.isSpace).reverse.dropWhile U.isSpace).reverse = [] := by
    have := congrArg String.toList h
    unfold strip at this
    rwa [String.toList_ofList, String.toList_empty] at this
  have hrest := List.dropWhile_eq_nil_iff.mp (List.reverse_eq_nil_iff.mp hnil)
  intro c hc
  rw [← List.takeWhile_append_dropWhile (p := U.isSpace) (l := s.toList)] at hc
  rcases List.mem_append.mp hc with hc | hc
  · exact isSpace_takeWhile c hc
  · exact hrest c (List.mem_reverse.mpr hc)

theorem strip_blank {w : String} (hw : Word w) : strip (String.ofList (' ' :: w.toList)) = w := by
  have hsolid := hw.solid
  cases hc : w.toList with
  | nil => exact absurd (String.toList_inj.mp hc) hw.nonempty
  | cons c cs =>
    have hhead : U.isSpace c = false := hsolid c (by simp [hc])
    have hlast : ((c :: cs).reverse.dropWhile U.isSpace).reverse = c :: cs := by
      cases hrev : (c :: cs).reverse with
      | nil => simp at hrev
      | cons d ds =>
        have hd : U.isSpace d = false := by
          refine hsolid d ?_
          rw [hc, ← List.mem_reverse, hrev]
          exact List.mem_cons_self
        rw [List.dropWhile_cons_of_neg (by simp [hd]), ← hrev, List.reverse_reverse]
    unfold strip
    rw [String.toList_ofList, List.dropWhile_cons_of_pos isSpace_blank,
      List.dropWhile_cons_of_neg (by simp [hhead]), hlast,
      ← hc, String.ofList_toList]

theorem blank_replicate {n : Nat} : ∀ c ∈ List.replicate n ' ', U.isSpace c = true := by
  intro c hc
  rw [List.eq_of_mem_replicate hc]
  exact isSpace_blank

theorem wordsFrom_layOut : ∀ {ws : List (String × Nat)}, (∀ w ∈ ws, Word w.1) → wordsFrom [] (layOut ws) = ws.map (·.1)
  | [], _ => rfl
  | [(w, n)], h => by
    have hw := h (w, n) (by simp)
    have hne : w.toList ≠ [] := by simpa using hw.nonempty
    rw [layOut, wordsFrom_word hw.solid, wordsFrom_spaces blank_replicate]
    simp [wordsFrom, hne]
  | (w, n) :: v :: ws, h => by
    have hw := h (w, n) (by simp)
    have hne : w.toList ≠ [] := by simpa using hw.nonempty
    rw [layOut, wordsFrom_word hw.solid, wordsFrom_space isSpace_blank, wordsFrom_leading blank_replicate,
      wordsFrom_layOut fun u hu => h u (List.mem_cons_of_mem _ hu)]
    · simp [hne]
    · simp

theorem split_layOut {ws : List (String × Nat)} (h : ∀ w ∈ ws, Word w.1) :
    split (String.ofList (layOut ws)) = ws.map (·.1) := by
  unfold split
  rw [String.toList_ofList]
  exact wordsFrom_layOut h

/-! ## Printed numbers -/

omit U in
theorem toList_toString (n : Nat) : (toString n).toList = Nat.toDigits 10 n := by
  rw [Nat.toString_eq_ofList_toDigits, String.toList_ofList]

omit U in
theorem digit_of_mem_toString {n : Nat} {c : Char} (h : c ∈ (toString n).toList) : c.isDigit = true := by
  rw [toList_toString] at h
  exact Nat.isDigit_of_mem_toDigits (by omega) (by omega) h

omit U in
theorem not_mem_toString {n : Nat} {c : Char} (hc : c.isDigit = false) : c ∉ (toString n).toList := by
  intro h
  rw [digit_of_mem_toString h] at hc
  cases hc

theorem word_toString (n : Nat) : Word (toString n) where
  nonempty := by
    intro h
    have hnil : Nat.toDigits 10 n = [] := by rw [← toList_toString, h, String.toList_empty]
    exact Nat.toDigits_ne_nil hnil
  solid c hc := isSpace_of_isDigit (digit_of_mem_toString hc)

omit U in
theorem digitChar_digit {c : Char} (h : c.isDigit = true) : (c.toNat - '0'.toNat).digitChar = c := by
  simp only [Char.isDigit, Bool.and_eq_true, decide_eq_true_eq] at h
  have hlow : 48 ≤ c.toNat := h.1
  have hhigh : c.toNat ≤ 57 := h.2
  have hall : ∀ n < 10, (48 + n - '0'.toNat).digitChar = Char.ofNat (48 + n) := by decide
  have hchar := hall (c.toNat - 48) (by omega)
  rwa [Nat.add_sub_cancel' hlow, Char.ofNat_toNat] at hchar

omit U in
theorem digit_lt_ten {c : Char} (h : c.isDigit = true) : c.toNat - '0'.toNat < 10 := by
  simp only [Char.isDigit, Bool.and_eq_true, decide_eq_true_eq] at h
  have hhigh : c.toNat ≤ 57 := h.2
  have hzero : '0'.toNat = 48 := rfl
  omega

omit U in
/-- Further digits of a positive number are written after it. -/
theorem toDigits_ofDigitChars : ∀ {cs : List Char} {n : Nat}, 0 < n → (∀ c ∈ cs, c.isDigit = true) →
    Nat.toDigits 10 (Nat.ofDigitChars 10 cs n) = Nat.toDigits 10 n ++ cs
  | [], n, _, _ => by rw [Nat.ofDigitChars_nil, List.append_nil]
  | c :: cs, n, hn, h => by
    have hc := h c List.mem_cons_self
    have hlt := digit_lt_ten hc
    rw [Nat.ofDigitChars_cons, toDigits_ofDigitChars (by omega) fun d hd => h d (List.mem_cons_of_mem c hd),
      ← Nat.toDigits_append_toDigits (by omega) hn hlt, Nat.toDigits_of_lt_base hlt,
        digitChar_digit hc, List.append_assoc,
      List.singleton_append]

omit U in
/-- Digits are those of the number they make, after zeros. -/
theorem digits_eq : ∀ {cs : List Char}, cs ≠ [] → (∀ c ∈ cs, c.isDigit = true) →
    ∃ zeros, cs = List.replicate zeros '0' ++ Nat.toDigits 10 (Nat.ofDigitChars 10 cs 0)
  | [], hne, _ => absurd rfl hne
  | c :: cs, _, h => by
    have hc := h c List.mem_cons_self
    have hcs : ∀ d ∈ cs, d.isDigit = true := fun d hd => h d (List.mem_cons_of_mem c hd)
    have hlt := digit_lt_ten hc
    rw [Nat.ofDigitChars_cons, Nat.mul_zero, Nat.zero_add]
    by_cases hzero : c.toNat - '0'.toNat = 0
    · have hc0 : c = '0' := by rw [← digitChar_digit hc, hzero]; rfl
      rw [hzero, hc0]
      cases cs with
      | nil => exact ⟨0, rfl⟩
      | cons d ds =>
        obtain ⟨zeros, hz⟩ := digits_eq (List.cons_ne_nil d ds) hcs
        exact ⟨zeros + 1, congrArg ('0' :: ·) hz⟩
    · refine ⟨0, ?_⟩
      rw [toDigits_ofDigitChars (Nat.pos_of_ne_zero hzero) hcs, Nat.toDigits_of_lt_base hlt, digitChar_digit hc]
      rfl

/-- A number below `10 ^ 640` is written in few enough digits. -/
theorem withinLimit_toString {n : Nat} (h : n < 10 ^ 640) : withinLimit (digitCount (toString n)) = true := by
  have hlength : (toString n).toList.length ≤ 640 := by
    rw [toList_toString]
    exact (Nat.length_toDigits_le_iff (by omega) (by omega)).mpr h
  have hcount : digitCount (toString n) ≤ 640 := Nat.le_trans List.countP_le_length hlength
  unfold withinLimit
  rcases U.maxStrDigits_large with hzero | hlarge
  · simp [hzero]
  · simp only [Bool.or_eq_true, decide_eq_true_eq]
    exact .inr (Nat.le_trans hcount hlarge)

/-- A number of more digits than the limit is not. -/
theorem overLimit_toString {n : Nat} (hlimit : U.maxStrDigits ≠ 0) (h : 10 ^ U.maxStrDigits ≤ n) :
    withinLimit (digitCount (toString n)) = false := by
  have hcount : digitCount (toString n) = (Nat.toDigits 10 n).length := by
    rw [digitCount, toList_toString]
    exact List.countP_eq_length.mpr fun c hc => isDigit_ascii (Nat.isDigit_of_mem_toDigits (by omega) (by omega) hc)
  have hlong : ¬(Nat.toDigits 10 n).length ≤ U.maxStrDigits := by
    rw [Nat.length_toDigits_le_iff (by omega) (Nat.pos_of_ne_zero hlimit)]
    exact Nat.not_lt.mpr h
  rw [hcount, withinLimit, Bool.or_eq_false_iff]
  exact ⟨beq_eq_false_iff_ne.mpr hlimit, decide_eq_false hlong⟩

end PyStr
