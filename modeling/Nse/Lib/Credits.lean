/-
  Nse.Lib.Credits — what a coroutine can spend.

  A request has a price, or may not be made at all. `Suffices left n c`: with `n` in hand the
  coroutine can pay for whatever it asks, on every path, and ends with at least `left r` of it
  over, where `r` is how it ends. What is over may depend on the outcome, so that a path that
  was cheap pays for what only follows it.

  A world `metered` keeps the bill. `suffices_steps`: in every run, what was paid and what is
  still in hand add up to what there was.
-/

import Nse.Lib.Coroutine

namespace Coroutine

variable {A : Type} {R : A → Type} {E S Ev α β : Type}

section Suffices

variable (w : A → Option Nat) (ok : (a : A) → Except E (R a) → Prop)

/-- As long as the answers are `ok`. -/
def Suffices (left : Except E α → Nat) : Nat → Co A R E α → Prop
  | n, .ret v => left (.ok v) ≤ n
  | n, .throw e => left (.error e) ≤ n
  | n, .ask a k => ∃ p, w a = some p ∧ p ≤ n ∧ ∀ r, ok a r → Suffices left (n - p) (k r)

variable {w ok} {left left' : Except E α → Nat} {n n' : Nat}

theorem suffices_mono (hleft : ∀ r, left' r ≤ left r) : ∀ {c : Co A R E α} {n n' : Nat}, n ≤ n' →
    Suffices w ok left n c →
    Suffices w ok left' n' c
  | .ret v, n, n', hn, h => by
    have hlast : left (.ok v) ≤ n := h
    have := hleft (.ok v)
    show left' (.ok v) ≤ n'
    omega
  | .throw e, n, n', hn, h => by
    have hlast : left (.error e) ≤ n := h
    have := hleft (.error e)
    show left' (.error e) ≤ n'
    omega
  | .ask a k, n, n', hn, ⟨p, hp, hle, h⟩ => ⟨p, hp, by omega, fun r hr => suffices_mono hleft (by omega) (h r hr)⟩

/-- What is not needed stays. -/
theorem suffices_frame (d : Nat) : ∀ {c : Co A R E α} {n : Nat}, Suffices w ok left n c →
    Suffices w ok (fun r => left r + d) (n + d) c
  | .ret v, n, h => Nat.add_le_add_right h d
  | .throw e, n, h => Nat.add_le_add_right h d
  | .ask a k, n, ⟨p, hp, hle, h⟩ => by
    refine ⟨p, hp, by omega, fun r hr => ?_⟩
    rw [show n + d - p = n - p + d by omega]
    exact suffices_frame d (h r hr)

/-- What must be over before a continuation. -/
def before (m : α → Nat) (x : E → Nat) : Except E α → Nat
  | .ok v => m v
  | .error e => x e

theorem suffices_bind {left : Except E β → Nat} {m : α → Nat} {f : α → Co A R E β}
    (hf : ∀ v, Suffices w ok left (m v) (f v)) :
    ∀ {x : Co A R E α} {n : Nat}, Suffices w ok (before m fun e => left (.error e)) n x →
      Suffices w ok left n (x.bind f)
  | .ret v, _, h => suffices_mono (fun _ => Nat.le_refl _) h (hf v)
  | .throw _, _, h => h
  | .ask _ _, _, ⟨p, hp, hle, h⟩ => ⟨p, hp, hle, fun r hr => suffices_bind hf (h r hr)⟩

theorem suffices_tryCatch {m : E → Nat} {h : E → Co A R E α} (hh : ∀ e, Suffices w ok left (m e) (h e)) :
    ∀ {x : Co A R E α} {n : Nat}, Suffices w ok (before (fun v => left (.ok v)) m) n x →
      Suffices w ok left n (x.tryCatch h)
  | .ret _, _, hx => hx
  | .throw e, _, hx => suffices_mono (fun _ => Nat.le_refl _) hx (hh e)
  | .ask _ _, _, ⟨p, hp, hle, hx⟩ => ⟨p, hp, hle, fun r hr => suffices_tryCatch hh (hx r hr)⟩

end Suffices

section Total

variable {w : A → Option Nat} {ok : (a : A) → Except E (R a) → Prop} {n m : Nat}

/-- `n` is enough, whatever is over. -/
abbrev Enough (w : A → Option Nat) (ok : (a : A) → Except E (R a) → Prop) (n : Nat) (c : Co A R E α) : Prop :=
  Suffices w ok (fun _ => 0) n c

theorem enough_mono {c : Co A R E α} (hn : n ≤ m) (h : Enough w ok n c) : Enough w ok m c :=
  suffices_mono (fun _ => Nat.le_refl _) hn h

theorem enough_ret {v : α} : Enough w ok n (.ret v : Co A R E α) := Nat.zero_le n

theorem enough_throw {e : E} : Enough w ok n (.throw e : Co A R E α) := Nat.zero_le n

/-- A bill that is paid leaves the rest. -/
theorem enough_leaves {c : Co A R E α} {left : Except E α → Nat} (h : Enough w ok n c) (hleft : ∀ r, left r ≤ m) :
    Suffices w ok left (n + m) c :=
  suffices_mono (fun r => by have := hleft r; omega) (Nat.le_refl _) (suffices_frame m h)

theorem enough_bind {f : α → Co A R E β} {x : Co A R E α} (hx : Enough w ok n x) (hf : ∀ v, Enough w ok m (f v)) :
    Enough w ok (n + m) (x.bind f) := by
  refine suffices_bind hf (enough_leaves hx fun r => ?_)
  cases r with
  | ok v => exact Nat.le_refl _
  | error e => exact Nat.zero_le _

theorem enough_tryCatch {h : E → Co A R E α} {x : Co A R E α} (hx : Enough w ok n x) (hh : ∀ e, Enough w ok m (h e)) :
    Enough w ok (n + m) (x.tryCatch h) := by
  refine suffices_tryCatch hh (enough_leaves hx fun r => ?_)
  cases r with
  | ok v => exact Nat.zero_le _
  | error e => exact Nat.le_refl _

theorem enough_tryFinally {fin : Co A R E Unit} (hfin : Enough w ok m fin) :
    ∀ {x : Co A R E α} {n : Nat}, Enough w ok n x → Enough w ok (n + m) (x.tryFinally fin)
  | .ret v, n, _ => enough_mono (Nat.le_add_left m n) (enough_bind (m := 0) hfin fun _ => enough_ret)
  | .throw e, n, _ => enough_mono (Nat.le_add_left m n) (enough_bind (m := 0) hfin fun _ => enough_throw)
  | .ask a k, n, ⟨p, hp, hle, hx⟩ => by
    refine ⟨p, hp, by omega, fun r hr => ?_⟩
    rw [show n + m - p = n - p + m by omega]
    exact enough_tryFinally hfin (hx r hr)

theorem enough_forEach {f : β → Co A R E Unit} : ∀ {xs : List β}, (∀ x ∈ xs, Enough w ok n (f x)) →
    Enough w ok (xs.length * n) (Co.forEach xs f)
  | [], _ => Nat.zero_le _
  | x :: xs, h => by
    have hrest : Enough w ok (xs.length * n) (Co.forEach xs f) :=
      enough_forEach fun y hy => h y (List.mem_cons_of_mem _ hy)
    refine enough_mono ?_ (enough_bind (h x List.mem_cons_self) fun _ => hrest)
    simp only [List.length_cons, Nat.add_mul, Nat.one_mul]
    omega

theorem enough_request {a : A} (ha : w a = some n) : Enough w ok n (Co.request a : Co A R E (R a)) := by
  refine ⟨n, ha, Nat.le_refl n, fun r _ => ?_⟩
  cases r with
  | ok v => exact Nat.zero_le _
  | error e => exact Nat.zero_le _

/-- A request that is free. -/
theorem enough_free {a : A} (ha : w a = some 0) {f : R a → Co A R E β} (hf : ∀ v, Enough w ok n (f v)) :
    Enough w ok n ((Co.request a : Co A R E (R a)).bind f) :=
  enough_mono (Nat.le_of_eq (Nat.zero_add n)) (enough_bind (enough_request ha) hf)

/-- What follows a request may rely on its answer. -/
theorem enough_answered {a : A} (ha : w a = some 0) {f : R a → Co A R E β}
    (hf : ∀ v, ok a (.ok v) → Enough w ok n (f v)) :
    Enough w ok n ((Co.request a : Co A R E (R a)).bind f) := by
  refine ⟨0, ha, Nat.zero_le n, fun r hr => ?_⟩
  cases r with
  | ok v => exact hf v hr
  | error e => exact Nat.zero_le _

theorem enough_of_only : ∀ {c : Co A R E α}, Only (fun a => w a = some 0) c → Enough w ok 0 c
  | .ret _, _ => enough_ret
  | .throw _, _ => enough_throw
  | .ask _ _, h => ⟨0, h.1, Nat.le_refl 0, fun r _ => enough_of_only (h.2 r)⟩

end Total

/-! ## The bill -/

/-- The same world, with the prices of the requests answered so far added up. -/
def World.metered (W : World A R E S Ev) (w : A → Option Nat) : World A R E (S × Nat) Ev where
  answer s a r s' := W.answer s.1 a r s'.1 ∧ s'.2 = s.2 + (w a).getD 0
  event s e s' := W.event s.1 e s'.1 ∧ s'.2 = s.2
  parked s a := W.parked s.1 a

section Metered

variable {W : World A R E S Ev} {w : A → Option Nat} {ok : (a : A) → Except E (R a) → Prop}

theorem projects_metered : Projects (W.metered w) W Prod.fst where
  answer _ _ _ _ h := h.1
  event _ e _ h := .inr ⟨e, h.1⟩
  parked _ _ h := h

/-- Every run has its bill. -/
theorem metered_steps {c c' : Co A R E α} {s s' : S} (h : Steps W (c, s) (c', s')) (m : Nat) :
    ∃ m', Steps (W.metered w) (c, (s, m)) (c', (s', m')) := by
  suffices ∀ x : Co A R E α × S, Steps W (c, s) x → ∃ m', Steps (W.metered w) (c, (s, m)) (x.1, (x.2, m')) from this _ h
  intro x hx
  induction hx with
  | refl => exact ⟨m, .refl⟩
  | tail _ hstep ih =>
    obtain ⟨m', hrun⟩ := ih
    cases hstep with
    | answer r hr => exact ⟨_, hrun.tail (.answer r ⟨hr, rfl⟩)⟩
    | event e hp he => exact ⟨m', hrun.tail (.event e hp ⟨he, rfl⟩)⟩

theorem suffices_steps {left : Except E α → Nat} {n : Nat} {c c' : Co A R E α} {s s' : S}
    {m m' : Nat} {P : S × Nat → Prop}
    (hok : ∀ t a r t', P t → (W.metered w).answer t a r t' → ok a r)
      (hreach : ∀ x, Steps (W.metered w) (c, (s, m)) x → P x.2)
    (hc : Suffices w ok left n c) (h : Steps (W.metered w) (c, (s, m)) (c', (s', m'))) :
    ∃ n', m' + n' = m + n ∧ Suffices w ok left n' c' := by
  suffices ∀ x : Co A R E α × (S × Nat), Steps (W.metered w) (c, (s, m)) x → ∃ n', x.2.2 + n' = m + n ∧
      Suffices w ok left n' x.1 from this _ h
  intro x hx
  induction hx with
  | refl => exact ⟨n, rfl, hc⟩
  | tail hrun hstep ih =>
    obtain ⟨n', hsum, hrest⟩ := ih
    cases hstep with
    | @answer t t' a k r hr =>
      obtain ⟨p, hprice, hle, hnext⟩ := hrest
      have hpaid : t'.2 = t.2 + p := by rw [hr.2, hprice, Option.getD_some]
      refine ⟨n' - p, ?_, hnext r (hok t a r t' (hreach _ hrun) hr)⟩
      dsimp only at hsum ⊢
      omega
    | event e hp he =>
      refine ⟨n', ?_, hrest⟩
      dsimp only at hsum ⊢
      rw [he.2]
      exact hsum

end Metered

end Coroutine
