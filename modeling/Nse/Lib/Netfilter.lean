/-
  Nse.Lib.Netfilter — what the chains of a packet filter do to a packet, and the steps a
  tracer sees of it.

  A rule looks at the packet, may change it, and either does not match or does what it says:
  it goes on, leaves the chain, decides, or enters another chain, which comes back to the
  rule after it (jump) or to nobody (goto). A base chain that nothing decided falls to its
  policy. A packet goes through the base chains on its way one after another; an accept
  only ends one of them, a drop ends the way. A step is traced when the packet's trace bit
  is set, and a rule may set or clear it.

  Proved: a drop is shown of no packet that came through (`traverse_drop`); and where no rule
  clears the bit, a packet whose bit is set in the end has shown what became of it, after
  nothing but accepts (`traverse_shown`).
-/

import Mathlib.Data.List.Basic

namespace Netfilter

inductive Fate where
  | accept
  | drop
  deriving DecidableEq, Repr

/-- A packet, with all that goes along with it. -/
structure Pkt (S : Type) where
  data : S
  traced : Bool := false

/-- What the rule does that matches. -/
inductive Action where
  | continue
  | return
  | decide (f : Fate)
  deriving DecidableEq, Repr

/-- The rules of a chain from here on. A statement changes the packet and says whether the
    rule matches. A chain that is entered stands in the place it is entered from. -/
inductive Rules (S C R : Type) where
  | done
  | rule (r : R) (stmt : Pkt S → Pkt S × Bool) (a : Action) (rest : Rules S C R)
  | enter (r : R) (stmt : Pkt S → Pkt S × Bool) (jump : Bool) (c : C) (body rest : Rules S C R)

/-- What there is to see, and in which chain. -/
inductive Step (C R : Type) where
  | packet (c : C)
  | rule (c : C) (r : R) (f : Option Fate)
  | leave (c : C)
  | policy (c : C) (f : Fate)
  deriving DecidableEq, Repr

structure Base (S C R : Type) where
  chain : C
  rules : Rules S C R
  policy : Fate

variable {S C R : Type}

namespace Step

def chain : Step C R → C
  | packet c | rule c _ _ | leave c | policy c _ => c

def decides : Step C R → Option Fate
  | rule _ _ f => f
  | policy _ f => some f
  | _ => none

end Step

/-! ## What becomes of a packet -/

/-- The step, if it is traced. -/
def Pkt.shows (p : Pkt S) (x : Step C R) : List (Step C R) := if p.traced then [x] else []

/-- What was decided, the packet afterwards, and what was shown. -/
structure Outcome (S C R F : Type) where
  fate : F
  pkt : Pkt S
  steps : List (Step C R)

/-- After these steps. -/
def Outcome.after {F : Type} (xs : List (Step C R)) (o : Outcome S C R F) : Outcome S C R F :=
  { o with steps := xs ++ o.steps }

/-- Of the chain `c`; nothing is decided where its end is reached. -/
def Rules.eval (c : C) : Rules S C R → Pkt S → Outcome S C R (Option Fate)
  | .done, p => ⟨none, p, p.shows (.leave c)⟩
  | .rule r stmt a rest, p =>
    let q := (stmt p).1
    if (stmt p).2 then
      match a with
      | .continue => (rest.eval c q).after (q.shows (.rule c r none))
      | .return => ⟨none, q, q.shows (.rule c r none)⟩
      | .decide f => ⟨some f, q, q.shows (.rule c r (some f))⟩
    else rest.eval c q
  | .enter r stmt jump c' body rest, p =>
    let q := (stmt p).1
    if (stmt p).2 then
      let o := (body.eval c' q).after (q.shows (.rule c r none))
      if jump ∧ o.fate = none then (rest.eval c o.pkt).after o.steps else o
    else rest.eval c q

/-- The policy, where the rules decided nothing. -/
def Base.fallback (b : Base S C R) (o : Outcome S C R (Option Fate)) : List (Step C R) :=
  if o.fate = none then o.pkt.shows (.policy b.chain b.policy) else []

/-- The packet itself is shown with the first step of a base chain. -/
def headed (c : C) : List (Step C R) → List (Step C R)
  | [] => []
  | x :: xs => .packet c :: x :: xs

def Base.run (b : Base S C R) (p : Pkt S) : Outcome S C R Fate :=
  let o := b.rules.eval b.chain p
  ⟨o.fate.getD b.policy, o.pkt, headed b.chain (o.steps ++ b.fallback o)⟩

def traverse : List (Base S C R) → Pkt S → Outcome S C R Fate
  | [], p => ⟨.accept, p, []⟩
  | b :: bs, p => if (b.run p).fate = .accept then (traverse bs (b.run p).pkt).after (b.run p).steps else b.run p

/-- What the steps decide, in order. -/
def decided (xs : List (Step C R)) : List Fate := xs.filterMap Step.decides

theorem decided_append (xs ys : List (Step C R)) : decided (xs ++ ys) = decided xs ++ decided ys :=
  List.filterMap_append

theorem decided_shows_none {p : Pkt S} {x : Step C R} (hx : x.decides = none) : decided (p.shows x) = [] := by
  unfold Pkt.shows
  split
  · simp [decided, hx]
  · rfl

theorem decided_shows {p : Pkt S} {x : Step C R} {f : Fate} (hp : p.traced = true) (hx : x.decides = some f) :
    decided (p.shows x) = [f] := by
  simp [Pkt.shows, decided, hp, hx]

theorem shows_untraced {p : Pkt S} (hp : p.traced = false) (x : Step C R) : p.shows x = [] := by
  simp [Pkt.shows, hp]

/-! ## The trace bit -/

/-- No rule clears the trace bit. -/
def Rules.Keeps : Rules S C R → Prop
  | .done => True
  | .rule _ stmt _ rest => (∀ p : Pkt S, p.traced = true → (stmt p).1.traced = true) ∧ rest.Keeps
  | .enter _ stmt _ _ body rest => (∀ p : Pkt S, p.traced = true → (stmt p).1.traced = true) ∧ body.Keeps ∧ rest.Keeps

/-- What is shown on the way to a packet with this bit: what was decided, or nothing at all. -/
structure Shown (f : Option Fate) (p : Pkt S) (xs : List (Step C R)) : Prop where
  traced : p.traced = true → decided xs = f.toList
  untraced : p.traced = false → xs = []

theorem shown_step (p : Pkt S) (x : Step C R) : Shown x.decides p (p.shows x) where
  traced := fun hp => by
    cases hx : x.decides with
    | none => exact decided_shows_none hx
    | some f => exact decided_shows hp hx
  untraced := fun hp => shows_untraced hp x

/-- Where nothing was decided yet, the rest is added. -/
theorem Shown.append {f : Option Fate} {p q : Pkt S} {xs ys : List (Step C R)} (hxs : Shown none p xs)
    (hpq : p.traced = true → q.traced = true) (hys : Shown f q ys) : Shown f q (xs ++ ys) := by
  constructor
  · intro hq
    have hnone : decided xs = [] := by
      cases hp : p.traced with
      | true => exact hxs.traced hp
      | false => rw [hxs.untraced hp]; rfl
    rw [decided_append, hnone, List.nil_append]
    exact hys.traced hq
  · intro hq
    have hp : p.traced = false := by
      cases hp : p.traced with
      | false => rfl
      | true => rw [hpq hp] at hq; exact hq
    rw [hxs.untraced hp, hys.untraced hq]
    rfl

theorem Shown.headed {f : Option Fate} {p : Pkt S} {xs : List (Step C R)} (h : Shown f p xs) (c : C) :
    Shown f p (headed c xs) := by
  constructor
  · intro hp
    cases xs with
    | nil => exact h.traced hp
    | cons x xs => exact h.traced hp
  · intro hp
    rw [h.untraced hp]
    rfl

/-- Of one chain, entered with any packet. -/
theorem eval_shown {rs : Rules S C R} (hrs : rs.Keeps) (c : C) (p : Pkt S) :
    (p.traced = true → (rs.eval c p).pkt.traced = true) ∧
      Shown (rs.eval c p).fate (rs.eval c p).pkt (rs.eval c p).steps := by
  induction rs generalizing c p with
  | done => exact ⟨id, shown_step p (.leave c)⟩
  | rule r stmt a rest ih =>
    obtain ⟨hstmt, hrest⟩ := hrs
    obtain ⟨hbit, hshown⟩ := ih hrest c (stmt p).1
    have hnone : Shown none (stmt p).1 ((stmt p).1.shows (Step.rule c r none)) := shown_step _ (.rule c r none)
    unfold Rules.eval
    by_cases hm : (stmt p).2 = true
    · simp only [hm, if_true]
      cases a with
      | «continue» => exact ⟨fun hp => hbit (hstmt p hp), hnone.append hbit hshown⟩
      | «return» => exact ⟨hstmt p, hnone⟩
      | decide f => exact ⟨hstmt p, shown_step _ (.rule c r (some f))⟩
    · simp only [hm]
      exact ⟨fun hp => hbit (hstmt p hp), hshown⟩
  | enter r stmt jump c' body rest ihb ihr =>
    obtain ⟨hstmt, hbody, hrest⟩ := hrs
    obtain ⟨hbit, hshown⟩ := ihb hbody c' (stmt p).1
    unfold Rules.eval
    by_cases hm : (stmt p).2 = true
    · simp only [hm, if_true]
      have hinside := (shown_step (stmt p).1 (Step.rule c r none)).append hbit hshown
      by_cases hback : jump = true ∧ (body.eval c' (stmt p).1).fate = none
      · obtain ⟨hbit', hshown'⟩ := ihr hrest c (body.eval c' (stmt p).1).pkt
        simp only [Outcome.after, hback, and_self, if_true]
        rw [hback.2] at hinside
        exact ⟨fun hp => hbit' (hbit (hstmt p hp)), hinside.append hbit' hshown'⟩
      · simp only [Outcome.after, hback, if_false]
        exact ⟨fun hp => hbit (hstmt p hp), hinside⟩
    · obtain ⟨hbit', hshown'⟩ := ihr hrest c (stmt p).1
      simp only [hm]
      exact ⟨fun hp => hbit' (hstmt p hp), hshown'⟩

/-- Of one base chain. -/
theorem run_shown {b : Base S C R} (hb : b.rules.Keeps) (p : Pkt S) :
    (p.traced = true → (b.run p).pkt.traced = true) ∧ Shown (some (b.run p).fate) (b.run p).pkt (b.run p).steps := by
  obtain ⟨hbit, hshown⟩ := eval_shown hb b.chain p
  refine ⟨hbit, Shown.headed ?_ b.chain⟩
  show Shown (some ((b.rules.eval b.chain p).fate.getD b.policy)) (b.rules.eval b.chain p).pkt _
  unfold Base.fallback
  cases hf : (b.rules.eval b.chain p).fate with
  | some f =>
    rw [hf] at hshown
    simpa using hshown
  | none =>
    rw [hf] at hshown
    exact hshown.append id (shown_step _ (.policy b.chain b.policy))

/-! ## The way of a packet -/

/-- Every base chain that shows something but the last one shows an accept, and the last one
    what became of the packet. -/
structure Ends (f : Fate) (p : Pkt S) (xs : List (Step C R)) : Prop where
  traced : p.traced = true → ∃ n, decided xs = List.replicate n .accept ++ [f]
  untraced : p.traced = false → xs = []

theorem traverse_on {b : Base S C R} {p : Pkt S} (h : (b.run p).fate = .accept) (bs : List (Base S C R)) :
    traverse (b :: bs) p = (traverse bs (b.run p).pkt).after (b.run p).steps := if_pos h

theorem traverse_stop {b : Base S C R} {p : Pkt S} (h : (b.run p).fate = .drop) (bs : List (Base S C R)) :
    traverse (b :: bs) p = b.run p := if_neg (by simp [h])

theorem traverse_append (bs bs' : List (Base S C R)) (p : Pkt S) :
    traverse (bs ++ bs') p =
      if (traverse bs p).fate = .accept then (traverse bs' (traverse bs p).pkt).after (traverse bs p).steps
      else traverse bs p := by
  induction bs generalizing p with
  | nil => rfl
  | cons b bs ih =>
    rw [List.cons_append]
    cases hf : (b.run p).fate with
    | drop => simp [traverse_stop hf, hf]
    | accept =>
      rw [traverse_on hf, traverse_on hf, ih]
      by_cases hrest : (traverse bs (b.run p).pkt).fate = .accept
      · simp [hrest, Outcome.after]
      · simp [hrest, Outcome.after]

theorem traverse_keeps {bs : List (Base S C R)} (hbs : ∀ b ∈ bs, b.rules.Keeps) {p : Pkt S} (hp : p.traced = true) :
    (traverse bs p).pkt.traced = true := by
  induction bs generalizing p with
  | nil => exact hp
  | cons b bs ih =>
    have hb := (run_shown (hbs b List.mem_cons_self) p).1 hp
    cases hf : (b.run p).fate with
    | drop => rwa [traverse_stop hf]
    | accept =>
      rw [traverse_on hf]
      exact ih (fun b' hb' => hbs b' (List.mem_cons_of_mem _ hb')) hb

theorem traverse_shown {bs : List (Base S C R)} (hbs : ∀ b ∈ bs, b.rules.Keeps) (hne : bs ≠ []) (p : Pkt S) :
    Ends (traverse bs p).fate (traverse bs p).pkt (traverse bs p).steps := by
  induction bs generalizing p with
  | nil => exact absurd rfl hne
  | cons b bs ih =>
    have hrest : ∀ b' ∈ bs, b'.rules.Keeps := fun b' hb' => hbs b' (List.mem_cons_of_mem _ hb')
    have hb := (run_shown (hbs b List.mem_cons_self) p).2
    have hlast : Ends (b.run p).fate (b.run p).pkt (b.run p).steps := ⟨fun hp => ⟨0, hb.traced hp⟩, hb.untraced⟩
    cases hf : (b.run p).fate with
    | drop => rwa [traverse_stop hf]
    | accept =>
      rw [traverse_on hf]
      by_cases hnil : bs = []
      · subst hnil
        rw [hf] at hlast
        simpa [traverse, Outcome.after] using hlast
      · obtain ⟨htraced, huntraced⟩ := ih hrest hnil (b.run p).pkt
        rw [hf] at hb
        constructor
        · intro hp
          obtain ⟨n, hn⟩ := htraced hp
          cases hbit : (b.run p).pkt.traced with
          | true =>
            refine ⟨n + 1, ?_⟩
            simp only [Outcome.after, decided_append, hb.traced hbit, hn, List.replicate_succ]
            rfl
          | false => exact ⟨n, by simp only [Outcome.after, hb.untraced hbit, List.nil_append, hn]⟩
        · intro hp
          have hbit : (b.run p).pkt.traced = false := by
            cases hbit : (b.run p).pkt.traced with
            | false => rfl
            | true =>
              have hkept := traverse_keeps hrest hbit
              have hp' : (traverse bs (b.run p).pkt).pkt.traced = false := hp
              rw [hp'] at hkept
              exact hkept.symm
          simp only [Outcome.after, hb.untraced hbit, huntraced hp, List.append_nil]

/-! ## Any rules -/

theorem decided_shows_mem {p : Pkt S} {x : Step C R} {f : Fate} (h : f ∈ decided (p.shows x)) : x.decides = some f := by
  obtain ⟨y, hy, hf⟩ := List.mem_filterMap.mp h
  unfold Pkt.shows at hy
  split at hy
  · rwa [List.mem_singleton.mp hy] at hf
  · cases hy

/-- Nothing is shown that was not decided. -/
theorem eval_decided {rs : Rules S C R} {c : C} {p : Pkt S} {f : Fate} (h : f ∈ decided (rs.eval c p).steps) :
    (rs.eval c p).fate = some f := by
  induction rs generalizing c p with
  | done => cases decided_shows_mem h
  | rule r stmt a rest ih =>
    unfold Rules.eval at h ⊢
    by_cases hm : (stmt p).2 = true
    · simp only [hm, if_true] at h ⊢
      cases a with
      | «continue» =>
        rcases List.mem_append.mp (decided_append _ _ ▸ h) with h | h
        · cases decided_shows_mem h
        · exact ih h
      | «return» => cases decided_shows_mem h
      | decide g => exact decided_shows_mem h
    · simp only [hm] at h ⊢
      exact ih h
  | enter r stmt jump c' body rest ihb ihr =>
    unfold Rules.eval at h ⊢
    by_cases hm : (stmt p).2 = true
    · simp only [hm, if_true] at h ⊢
      have hinside : f ∈ decided ((stmt p).1.shows (Step.rule c r none) ++ (body.eval c' (stmt p).1).steps) →
          (body.eval c' (stmt p).1).fate = some f := by
        intro h
        rcases List.mem_append.mp (decided_append _ _ ▸ h) with h | h
        · cases decided_shows_mem h
        · exact ihb h
      by_cases hback : jump = true ∧ (body.eval c' (stmt p).1).fate = none
      · simp only [Outcome.after, hback, and_self, if_true] at h ⊢
        rcases List.mem_append.mp (decided_append _ _ ▸ h) with h | h
        · rw [hback.2] at hinside
          cases hinside h
        · exact ihr h
      · simp only [Outcome.after, hback, if_false] at h ⊢
        exact hinside h
    · simp only [hm] at h ⊢
      exact ihr h

theorem decided_headed (c : C) (xs : List (Step C R)) : decided (headed c xs) = decided xs := by
  cases xs with
  | nil => rfl
  | cons x xs => rfl

theorem run_decided {b : Base S C R} {p : Pkt S} {f : Fate} (h : f ∈ decided (b.run p).steps) : (b.run p).fate = f := by
  have h : f ∈ decided ((b.rules.eval b.chain p).steps ++ b.fallback (b.rules.eval b.chain p)) :=
    decided_headed b.chain _ ▸ h
  show (b.rules.eval b.chain p).fate.getD b.policy = f
  rcases List.mem_append.mp (decided_append _ _ ▸ h) with h | h
  · rw [eval_decided h]
    rfl
  · unfold Base.fallback at h
    split at h
    · rename_i hf
      rw [hf]
      exact Option.some.inj (decided_shows_mem h)
    · cases h

/-- A drop is shown of no packet that came through. -/
theorem traverse_drop {bs : List (Base S C R)} {p : Pkt S} (h : Fate.drop ∈ decided (traverse bs p).steps) :
    (traverse bs p).fate = .drop := by
  induction bs generalizing p with
  | nil => cases h
  | cons b bs ih =>
    cases hf : (b.run p).fate with
    | drop => rwa [traverse_stop hf]
    | accept =>
      rw [traverse_on hf] at h ⊢
      rcases List.mem_append.mp (decided_append _ _ ▸ h) with h | h
      · rw [run_decided h] at hf
        cases hf
      · exact ih h

/-! ## Where a step is -/

/-- The chains that are entered. -/
def Rules.chains : Rules S C R → List C
  | .done => []
  | .rule _ _ _ rest => rest.chains
  | .enter _ _ _ c body rest => c :: (body.chains ++ rest.chains)

def Base.chains (b : Base S C R) : List C := b.chain :: b.rules.chains

theorem shows_chain {p : Pkt S} {x y : Step C R} (h : y ∈ p.shows x) : y.chain = x.chain := by
  unfold Pkt.shows at h
  split at h
  · rw [List.mem_singleton.mp h]
  · cases h

theorem eval_chain {rs : Rules S C R} {c : C} {p : Pkt S} {x : Step C R} (h : x ∈ (rs.eval c p).steps) :
    x.chain = c ∨ x.chain ∈ rs.chains := by
  induction rs generalizing c p with
  | done => exact .inl (shows_chain h)
  | rule r stmt a rest ih =>
    unfold Rules.eval at h
    by_cases hm : (stmt p).2 = true
    · simp only [hm, if_true] at h
      cases a with
      | «continue» =>
        rcases List.mem_append.mp h with h | h
        · exact .inl (shows_chain h)
        · exact ih h
      | «return» => exact .inl (shows_chain h)
      | decide g => exact .inl (shows_chain h)
    · simp only [hm] at h
      exact ih h
  | enter r stmt jump c' body rest ihb ihr =>
    unfold Rules.eval at h
    have hinside : x ∈ (stmt p).1.shows (Step.rule c r none) ++ (body.eval c' (stmt p).1).steps →
        x.chain = c ∨ x.chain ∈ (Rules.enter r stmt jump c' body rest).chains := by
      intro h
      rcases List.mem_append.mp h with h | h
      · exact .inl (shows_chain h)
      · rcases ihb h with heq | hmem
        · exact .inr (by simp [Rules.chains, heq])
        · exact .inr (by simp [Rules.chains, hmem])
    have hrest : ∀ {q : Pkt S}, x ∈ (rest.eval c q).steps → x.chain = c ∨ x.chain ∈
        (Rules.enter r stmt jump c' body rest).chains := by
      intro q h
      rcases ihr h with heq | hmem
      · exact .inl heq
      · exact .inr (by simp [Rules.chains, hmem])
    by_cases hm : (stmt p).2 = true
    · simp only [hm, if_true] at h
      by_cases hback : jump = true ∧ (body.eval c' (stmt p).1).fate = none
      · simp only [Outcome.after, hback, and_self, if_true] at h
        rcases List.mem_append.mp h with h | h
        · exact hinside h
        · exact hrest h
      · simp only [Outcome.after, hback, if_false] at h
        exact hinside h
    · simp only [hm] at h
      exact hrest h

theorem run_chain {b : Base S C R} {p : Pkt S} {x : Step C R} (h : x ∈ (b.run p).steps) : x.chain ∈ b.chains := by
  have hmem : x = .packet b.chain ∨ x ∈ (b.rules.eval b.chain p).steps ++ b.fallback (b.rules.eval b.chain p) := by
    have h : x ∈ headed b.chain ((b.rules.eval b.chain p).steps ++ b.fallback (b.rules.eval b.chain p)) := h
    cases hxs : (b.rules.eval b.chain p).steps ++ b.fallback (b.rules.eval b.chain p) with
    | nil => rw [hxs] at h; cases h
    | cons y ys =>
      rw [hxs] at h
      exact List.mem_cons.mp h
  rcases hmem with rfl | h
  · exact List.mem_cons_self
  · rcases List.mem_append.mp h with h | h
    · rcases eval_chain h with heq | hmem
      · exact heq ▸ List.mem_cons_self
      · exact List.mem_cons_of_mem _ hmem
    · unfold Base.fallback at h
      split at h
      · exact shows_chain h ▸ List.mem_cons_self
      · cases h

theorem traverse_chain {bs : List (Base S C R)} {p : Pkt S} {x : Step C R} (h : x ∈ (traverse bs p).steps) :
    ∃ b ∈ bs, x.chain ∈ b.chains := by
  induction bs generalizing p with
  | nil => cases h
  | cons b bs ih =>
    have hrest : (∃ b' ∈ bs, x.chain ∈ b'.chains) → ∃ b' ∈ b :: bs, x.chain ∈ b'.chains := fun ⟨b', hb', hx⟩ =>
      ⟨b', List.mem_cons_of_mem _ hb', hx⟩
    cases hf : (b.run p).fate with
    | drop =>
      rw [traverse_stop hf] at h
      exact ⟨b, List.mem_cons_self, run_chain h⟩
    | accept =>
      rw [traverse_on hf] at h
      rcases List.mem_append.mp h with h | h
      · exact ⟨b, List.mem_cons_self, run_chain h⟩
      · exact hrest (ih h)

end Netfilter
