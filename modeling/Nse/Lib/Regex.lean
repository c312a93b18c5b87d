/-
  Nse.Lib.Regex — a backtracking matcher with named groups.

  The subset of Python's `re` whose repetitions range over one character class. A
  pattern runs with a continuation: an alternative is given up only when everything
  after it has failed, and the first success is the match. Repetitions are greedy or
  lazy; `opt` is the greedy `(?:…)?`.

  Proved:
  - what a literal, a class and an identifier do on a text that starts with them
    (`run_lit`, `run_many`, `run_plus`), whatever comes after;
  - `reluctant_skip`: a lazy repetition moves past the positions at which the rest fails;
  - what a run that succeeds has read (`literal_some`, `greedy_some`, `reluctant_some`), and
    that it keeps the groups it had and adds only its own (`run_some`);
  - `run_field`, `field_some`: a recorded word and its separator, both ways.
-/

namespace Backtrack

/-- Where a match stands: the character before, the text ahead, the groups so far. -/
structure At where
  prev : Option Char
  rest : List Char
  groups : List (String × List Char)

inductive Re where
  | lit (s : String)
  | one (p : Char → Bool)
  | many (p : Char → Bool)
  | manyLazy (p : Char → Bool)
  | seq (r s : Re)
  | alt (r s : Re)
  | opt (r : Re)
  | group (name : String) (r : Re)
  /-- `$`: at the end, or before a newline that ends the text. -/
  | atEnd
  /-- `\b`, for the word characters `w`. -/
  | boundary (w : Char → Bool)

variable {β : Type}

def literal : List Char → At → (At → Option β) → Option β
  | [], a, k => k a
  | c :: cs, ⟨_, d :: ds, g⟩, k => if c = d then literal cs ⟨some d, ds, g⟩ k else none
  | _ :: _, ⟨_, [], _⟩, _ => none

def greedy (p : Char → Bool) (g : List (String × List Char)) (k : At → Option β) : Option Char → List Char → Option β
  | prev, [] => k ⟨prev, [], g⟩
  | prev, c :: cs => if p c then (greedy p g k (some c) cs).or (k ⟨prev, c :: cs, g⟩) else k ⟨prev, c :: cs, g⟩

def reluctant (p : Char → Bool) (g : List (String × List Char)) (k : At → Option β) :
    Option Char → List Char → Option β
  | prev, [] => k ⟨prev, [], g⟩
  | prev, c :: cs => (k ⟨prev, c :: cs, g⟩).or (if p c then reluctant p g k (some c) cs else none)

/-- What the text between two positions is, recorded under a name. -/
def At.record (name : String) (start a : At) : At :=
  { a with groups := (name, start.rest.take (start.rest.length - a.rest.length)) :: a.groups }

def Re.run : Re → At → (At → Option β) → Option β
  | .lit s, a, k => literal s.toList a k
  | .one _, ⟨_, [], _⟩, _ => none
  | .one p, ⟨_, c :: cs, g⟩, k => if p c then k ⟨some c, cs, g⟩ else none
  | .many p, a, k => greedy p a.groups k a.prev a.rest
  | .manyLazy p, a, k => reluctant p a.groups k a.prev a.rest
  | .seq r s, a, k => r.run a fun b => s.run b k
  | .alt r s, a, k => (r.run a k).or (s.run a k)
  | .opt r, a, k => (r.run a k).or (k a)
  | .group n r, a, k => r.run a fun b => k (At.record n a b)
  | .atEnd, a, k => if a.rest = [] ∨ a.rest = ['\n'] then k a else none
  | .boundary w, a, k => if a.prev.any w != a.rest.head?.any w then k a else none

/-- One or more. -/
def Re.plus (p : Char → Bool) : Re := .seq (.one p) (.many p)
def Re.plusLazy (p : Char → Bool) : Re := .seq (.one p) (.manyLazy p)

/-- `{n}`. -/
def Re.times (p : Char → Bool) : Nat → Re
  | 0 => .lit ""
  | n + 1 => .seq (.one p) (Re.times p n)

def Re.seqs : List Re → Re
  | [] => .lit ""
  | [r] => r
  | r :: rs => .seq r (Re.seqs rs)

/-- The groups of a successful match. -/
abbrev Groups := List (String × List Char)

def Groups.get (g : Groups) (name : String) : Option String := (g.find? (·.1 == name)).map (String.ofList ·.2)

/-- `re.match`: at the start of the text. -/
def Re.match (r : Re) (s : String) : Option Groups := r.run ⟨none, s.toList, []⟩ fun a => some a.groups

def searchFrom (r : Re) : Option Char → List Char → Option Groups
  | prev, [] => r.run ⟨prev, [], []⟩ fun a => some a.groups
  | prev, c :: cs => (r.run ⟨prev, c :: cs, []⟩ fun a => some a.groups).or (searchFrom r (some c) cs)

/-- `re.search`: at the first position where it matches. -/
def Re.search (r : Re) (s : String) : Option Groups := searchFrom r none s.toList

/-! ## Running over a known text -/

/-- The character before, once `cs` has been read. -/
def after : Option Char → List Char → Option Char
  | prev, [] => prev
  | _, c :: cs => after (some c) cs

@[simp] theorem after_nil (prev : Option Char) : after prev [] = prev := rfl
@[simp] theorem after_cons (prev : Option Char) (c : Char) (cs : List Char) :
    after prev (c :: cs) = after (some c) cs := rfl

theorem after_eq (xs : List Char) : ∀ prev, after prev xs = xs.getLast?.or prev := by
  induction xs with
  | nil => simp
  | cons x xs ih =>
    intro prev
    rw [after_cons, ih, List.getLast?_cons]
    cases xs.getLast? <;> simp

/-- The text starts with no character of the class. -/
def Stops (p : Char → Bool) (t : List Char) : Prop := ∀ c ∈ t.head?, p c = false

@[simp] theorem stops_nil (p : Char → Bool) : Stops p [] := by simp [Stops]
@[simp] theorem stops_cons (p : Char → Bool) (c : Char) (t : List Char) : Stops p (c :: t) ↔ p c = false := by
  simp [Stops]

theorem literal_append (k : At → Option β) (g : Groups) (t : List Char) :
    ∀ (s : List Char) (prev : Option Char), literal s ⟨prev, s ++ t, g⟩ k = k ⟨after prev s, t, g⟩
  | [], _ => rfl
  | c :: s, _ => by simp only [literal, List.cons_append, if_true, literal_append k g t s, after_cons]

theorem run_lit (s : String) (k : At → Option β) (prev : Option Char) (t : List Char) (g : Groups) :
    (Re.lit s).run ⟨prev, s.toList ++ t, g⟩ k = k ⟨after prev s.toList, t, g⟩ :=
  literal_append k g t s.toList prev

/-- A literal fails on a text whose first character differs. -/
theorem literal_head_ne {c d : Char} (h : c ≠ d) (s t : List Char) (prev : Option Char) (g : Groups)
    (k : At → Option β) : literal (c :: s) ⟨prev, d :: t, g⟩ k = none := by
  simp [literal, h]

/-- It cannot start inside a class without its first character. -/
theorem literal_outside {p : Char → Bool} {d : Char} (hd : p d = false) (s : List Char) (prev : Option Char) (c : Char)
    (cs : List Char) (hc : p c = true) {g : Groups} {k : At → Option β} :
      literal (d :: s) ⟨prev, c :: cs, g⟩ k = none := by
  refine literal_head_ne (fun hcd => ?_) _ _ _ _ _
  rw [hcd, hc] at hd
  cases hd

@[simp] theorem literal_nil_rest (c : Char) (s : List Char) (prev : Option Char) (g : Groups) (k : At → Option β) :
    literal (c :: s) ⟨prev, [], g⟩ k = none := rfl

/-- Where what follows a greedy repetition cannot start inside the class, it starts
    right after the longest run of the class. -/
theorem greedy_append {p : Char → Bool} {g : Groups} {k : At → Option β} {t : List Char} (ht : Stops p t)
    (hk : ∀ prev c cs, p c = true → k ⟨prev, c :: cs, g⟩ = none) :
    ∀ (xs : List Char) (prev : Option Char), (∀ c ∈ xs, p c = true) →
      greedy p g k prev (xs ++ t) = k ⟨after prev xs, t, g⟩
  | [], prev, _ => by
    cases t with
    | nil => rfl
    | cons c cs =>
      have : p c = false := (stops_cons p c cs).mp ht
      simp [greedy, this]
  | x :: xs, prev, hx => by
    have hpx : p x = true := hx x List.mem_cons_self
    simp only [List.cons_append, greedy, hpx, if_true, hk prev x _ hpx, Option.or_none, after_cons]
    exact greedy_append ht hk xs (some x) fun c hc => hx c (List.mem_cons_of_mem _ hc)

/-- A greedy repetition that succeeds on the longest run of the class does so there. -/
theorem greedy_longest {p : Char → Bool} {g : Groups} {k : At → Option β} {t : List Char} {v : β} (ht : Stops p t) :
    ∀ (xs : List Char) (prev : Option Char), (∀ c ∈ xs, p c = true) → k ⟨after prev xs, t, g⟩ = some v →
      greedy p g k prev (xs ++ t) = some v
  | [], prev, _, hv => by
    cases t with
    | nil => exact hv
    | cons c cs =>
      have : p c = false := (stops_cons p c cs).mp ht
      simpa [greedy, this] using hv
  | x :: xs, prev, hx, hv => by
    have hpx : p x = true := hx x List.mem_cons_self
    have := greedy_longest ht xs (some x) (fun c hc => hx c (List.mem_cons_of_mem _ hc)) hv
    simp [greedy, hpx, this]

theorem run_plus {p : Char → Bool} {g : Groups} {k : At → Option β} {t : List Char} (ht : Stops p t)
    (hk : ∀ prev c cs, p c = true → k ⟨prev, c :: cs, g⟩ = none) {xs : List Char} (hne : xs ≠ [])
    (hx : ∀ c ∈ xs, p c = true) (prev : Option Char) :
    (Re.plus p).run ⟨prev, xs ++ t, g⟩ k = k ⟨after prev xs, t, g⟩ := by
  cases xs with
  | nil => exact absurd rfl hne
  | cons x xs =>
    have hpx : p x = true := hx x List.mem_cons_self
    simp only [Re.plus, Re.run, List.cons_append, hpx, if_true, after_cons]
    exact greedy_append ht hk xs (some x) fun c hc => hx c (List.mem_cons_of_mem _ hc)

theorem run_plus_longest {p : Char → Bool} {g : Groups} {k : At → Option β} {t : List Char} {v : β} (ht : Stops p t)
    {xs : List Char} (hne : xs ≠ []) (hx : ∀ c ∈ xs, p c = true) (prev : Option Char)
    (hv : k ⟨after prev xs, t, g⟩ = some v) : (Re.plus p).run ⟨prev, xs ++ t, g⟩ k = some v := by
  cases xs with
  | nil => exact absurd rfl hne
  | cons x xs =>
    have hpx : p x = true := hx x List.mem_cons_self
    simp only [Re.plus, Re.run, List.cons_append, hpx, if_true]
    exact greedy_longest ht xs (some x) (fun c hc => hx c (List.mem_cons_of_mem _ hc)) hv

/-- A lazy repetition moves past the positions at which what follows fails. -/
theorem reluctant_skip {p : Char → Bool} {g : Groups} {k : At → Option β} {t : List Char} :
    ∀ (xs : List Char) (prev : Option Char), (∀ c ∈ xs, p c = true) →
      (∀ ys z zs, xs = ys ++ z :: zs → k ⟨after prev ys, z :: zs ++ t, g⟩ = none) →
      reluctant p g k prev (xs ++ t) = reluctant p g k (after prev xs) t
  | [], _, _, _ => rfl
  | x :: xs, prev, hx, hk => by
    have hpx : p x = true := hx x List.mem_cons_self
    have h0 : k ⟨prev, x :: (xs ++ t), g⟩ = none := hk [] x xs rfl
    simp only [List.cons_append, reluctant, hpx, if_true, h0, Option.none_or, after_cons]
    refine reluctant_skip xs (some x) (fun c hc => hx c (List.mem_cons_of_mem _ hc)) fun ys z zs h => ?_
    simpa using hk (x :: ys) z zs (by simp [h])

/-- A lazy repetition stops where what follows succeeds. -/
theorem reluctant_here {p : Char → Bool} {g : Groups} {k : At → Option β} {t : List Char} {prev : Option Char} {v : β}
    (h : k ⟨prev, t, g⟩ = some v) : reluctant p g k prev t = some v := by
  cases t <;> simp [reluctant, h]

/-- A lazy repetition finds a position where what follows succeeds. -/
theorem reluctant_isSome {p : Char → Bool} {g : Groups} {k : At → Option β} {t : List Char} :
    ∀ (xs : List Char) (prev : Option Char), (∀ c ∈ xs, p c = true) → (k ⟨after prev xs, t, g⟩).isSome →
      (reluctant p g k prev (xs ++ t)).isSome
  | [], prev, _, hk => by
    obtain ⟨v, hv⟩ := Option.isSome_iff_exists.mp hk
    rw [after_nil] at hv
    rw [List.nil_append, reluctant_here hv, Option.isSome_some]
  | x :: xs, prev, hx, hk => by
    have hrest := reluctant_isSome xs (some x) (fun c hc => hx c (List.mem_cons_of_mem _ hc)) hk
    simp only [List.cons_append, reluctant, hx x List.mem_cons_self, if_true, Option.isSome_or, hrest, Bool.or_true]

/-- A greedy repetition finds one too. -/
theorem greedy_isSome {p : Char → Bool} {g : Groups} {k : At → Option β} {t : List Char} :
    ∀ (xs : List Char) (prev : Option Char), (∀ c ∈ xs, p c = true) → (k ⟨after prev xs, t, g⟩).isSome →
      (greedy p g k prev (xs ++ t)).isSome
  | [], prev, _, hk => by
    rw [after_nil] at hk
    cases t with
    | nil => exact hk
    | cons c cs =>
      rw [List.nil_append, greedy]
      split
      · rw [Option.isSome_or, hk, Bool.or_true]
      · exact hk
  | x :: xs, prev, hx, hk => by
    have hrest := greedy_isSome xs (some x) (fun c hc => hx c (List.mem_cons_of_mem _ hc)) hk
    simp only [List.cons_append, greedy, hx x List.mem_cons_self, if_true, Option.isSome_or, hrest, Bool.true_or]

/-! ## A run that succeeds -/

theorem literal_some {k : At → Option β} {g : Groups} {v : β} :
    ∀ {s cs : List Char} {prev : Option Char}, literal s ⟨prev, cs, g⟩ k = some v →
      ∃ t, cs = s ++ t ∧ k ⟨after prev s, t, g⟩ = some v
  | [], cs, prev, h => ⟨cs, rfl, h⟩
  | _ :: _, [], _, h => by cases h
  | c :: s, d :: cs, prev, h => by
    simp only [literal] at h
    split at h
    · rename_i hcd
      obtain ⟨t, rfl, hk⟩ := literal_some h
      exact ⟨t, by rw [hcd]; rfl, by rw [after_cons, hcd]; exact hk⟩
    · cases h

theorem greedy_some {p : Char → Bool} {k : At → Option β} {g : Groups} {v : β} :
    ∀ {cs : List Char} {prev : Option Char}, greedy p g k prev cs = some v →
      ∃ xs t, cs = xs ++ t ∧ (∀ c ∈ xs, p c = true) ∧ k ⟨after prev xs, t, g⟩ = some v
  | [], prev, h => ⟨[], [], rfl, by simp, h⟩
  | c :: cs, prev, h => by
    simp only [greedy] at h
    split at h
    · rename_i hpc
      rcases Option.or_eq_some_iff.mp h with h | ⟨-, h⟩
      · obtain ⟨xs, t, rfl, hxs, hk⟩ := greedy_some h
        exact ⟨c :: xs, t, rfl, by simpa [hpc] using hxs, hk⟩
      · exact ⟨[], c :: cs, rfl, by simp, h⟩
    · exact ⟨[], c :: cs, rfl, by simp, h⟩

theorem reluctant_some {p : Char → Bool} {k : At → Option β} {g : Groups} {v : β} :
    ∀ {cs : List Char} {prev : Option Char}, reluctant p g k prev cs = some v →
      ∃ xs t, cs = xs ++ t ∧ (∀ c ∈ xs, p c = true) ∧ k ⟨after prev xs, t, g⟩ = some v
  | [], prev, h => ⟨[], [], rfl, by simp, h⟩
  | c :: cs, prev, h => by
    simp only [reluctant] at h
    rcases Option.or_eq_some_iff.mp h with h | ⟨-, h⟩
    · exact ⟨[], c :: cs, rfl, by simp, h⟩
    · split at h
      · rename_i hpc
        obtain ⟨xs, t, rfl, hxs, hk⟩ := reluctant_some h
        exact ⟨c :: xs, t, rfl, by simpa [hpc] using hxs, hk⟩
      · cases h

theorem run_plus_some {p : Char → Bool} {k : At → Option β} {a : At} {v : β} (h : (Re.plus p).run a k = some v) :
    ∃ xs t, xs ≠ [] ∧ a.rest = xs ++ t ∧ (∀ c ∈ xs, p c = true) ∧ k ⟨after a.prev xs, t, a.groups⟩ = some v := by
  obtain ⟨prev, cs, g⟩ := a
  cases cs with
  | nil => cases h
  | cons c cs =>
    simp only [Re.plus, Re.run] at h
    split at h
    · rename_i hpc
      obtain ⟨xs, t, rfl, hxs, hk⟩ := greedy_some h
      exact ⟨c :: xs, t, nofun, rfl, by simpa [hpc] using hxs, hk⟩
    · cases h

/-- The names of a pattern's groups. -/
def Re.names : Re → List String
  | .seq r s | .alt r s => r.names ++ s.names
  | .opt r => r.names
  | .group n r => n :: r.names
  | .lit _ | .one _ | .many _ | .manyLazy _ | .atEnd | .boundary _ => []

/-- A run that succeeds hands on the groups it had, with some of its own before them. -/
theorem run_some {r : Re} {a : At} {k : At → Option β} {v : β} (h : r.run a k = some v) :
    ∃ b, k b = some v ∧ ∃ own : Groups, b.groups = own ++ a.groups ∧ ∀ x ∈ own, x.1 ∈ r.names := by
  induction r generalizing a k with
  | lit s =>
    obtain ⟨t, -, hk⟩ := literal_some h
    exact ⟨_, hk, [], rfl, by simp⟩
  | one p =>
    obtain ⟨prev, cs, g⟩ := a
    cases cs with
    | nil => cases h
    | cons c cs =>
      simp only [Re.run] at h
      split at h
      · exact ⟨_, h, [], rfl, by simp⟩
      · cases h
  | many p =>
    obtain ⟨xs, t, -, -, hk⟩ := greedy_some h
    exact ⟨_, hk, [], rfl, by simp⟩
  | manyLazy p =>
    obtain ⟨xs, t, -, -, hk⟩ := reluctant_some h
    exact ⟨_, hk, [], rfl, by simp⟩
  | seq r s ihr ihs =>
    obtain ⟨b, hb, own, hown, hnames⟩ := ihr h
    obtain ⟨c, hc, own', hown', hnames'⟩ := ihs hb
    refine ⟨c, hc, own' ++ own, by rw [hown', hown, List.append_assoc], fun x hx => ?_⟩
    rcases List.mem_append.mp hx with hx | hx
    · exact List.mem_append_right _ (hnames' x hx)
    · exact List.mem_append_left _ (hnames x hx)
  | alt r s ihr ihs =>
    rcases Option.or_eq_some_iff.mp h with h | ⟨-, h⟩
    · obtain ⟨b, hb, own, hown, hnames⟩ := ihr h
      exact ⟨b, hb, own, hown, fun x hx => List.mem_append_left _ (hnames x hx)⟩
    · obtain ⟨b, hb, own, hown, hnames⟩ := ihs h
      exact ⟨b, hb, own, hown, fun x hx => List.mem_append_right _ (hnames x hx)⟩
  | opt r ih =>
    rcases Option.or_eq_some_iff.mp h with h | ⟨-, h⟩
    · exact ih h
    · exact ⟨a, h, [], rfl, by simp⟩
  | group n r ih =>
    obtain ⟨b, hb, own, hown, hnames⟩ := ih h
    refine ⟨At.record n a b, hb, _ :: own, by rw [At.record, hown]; rfl, fun x hx => ?_⟩
    rcases List.mem_cons.mp hx with rfl | hx
    · exact List.mem_cons_self
    · exact List.mem_cons_of_mem _ (hnames x hx)
  | atEnd =>
    simp only [Re.run] at h
    split at h
    · exact ⟨a, h, [], rfl, by simp⟩
    · cases h
  | boundary w =>
    simp only [Re.run] at h
    split at h
    · exact ⟨a, h, [], rfl, by simp⟩
    · cases h

/-- What a group holds is not changed by groups of other names. -/
theorem get_append {own g : Groups} {name : String} (h : ∀ x ∈ own, x.1 ≠ name) :
    Groups.get (own ++ g) name = Groups.get g name := by
  have hnone : own.find? (fun x => x.1 == name) = none :=
    List.find?_eq_none.mpr fun x hx => by simpa using h x hx
  unfold Groups.get
  rw [List.find?_append, hnone, Option.none_or]

/-- The text of a group that has just been read. -/
theorem record_append (name : String) (prev prev' : Option Char) (xs t : List Char) (g g' : Groups) :
    At.record name ⟨prev, xs ++ t, g⟩ ⟨prev', t, g'⟩ = ⟨prev', t, (name, xs) :: g'⟩ := by
  simp [At.record]

/-! ## A word, recorded, and what separates it from the rest -/

section Field

variable {p : Char → Bool} {name sep : String} {r : Re} {k : At → Option β} {prev : Option Char}
    {cs : List Char} {g : Groups}

theorem run_field {xs t : List Char} {d : Char} {ds : List Char} (hsep : sep.toList = d :: ds) (hp : p d = false)
    (hne : xs ≠ []) (hx : ∀ c ∈ xs, p c = true) :
    (Re.seq (.group name (Re.plus p)) (.seq (.lit sep) r)).run ⟨prev, xs ++ (sep.toList ++ t), g⟩ k =
      r.run ⟨after (after prev xs) sep.toList, t, (name, xs) :: g⟩ k := by
  have hstop : Stops p (sep.toList ++ t) := by
    rw [hsep]
    exact (stops_cons ..).mpr hp
  refine (run_plus hstop (fun prev' c cs hc => ?_) hne hx prev).trans ?_
  · show literal sep.toList _ _ = none
    rw [hsep]
    exact literal_outside hp ds prev' c _ hc
  · rw [record_append]
    exact run_lit _ _ _ _ _

theorem field_some {v : β} (h : (Re.seq (.group name (Re.plus p)) (.seq (.lit sep) r)).run ⟨prev, cs, g⟩ k = some v) :
    ∃ xs t, xs ≠ [] ∧ cs = xs ++ (sep.toList ++ t) ∧ (∀ c ∈ xs, p c = true) ∧
      r.run ⟨after (after prev xs) sep.toList, t, (name, xs) :: g⟩ k = some v := by
  obtain ⟨xs, t, hne, rfl, hxs, h⟩ := run_plus_some h
  rw [record_append] at h
  obtain ⟨t, rfl, h⟩ := literal_some h
  exact ⟨xs, t, hne, rfl, hxs, h⟩

end Field

end Backtrack
