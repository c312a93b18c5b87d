/-
  Nse.Lib.Coroutine — coroutines that run among others on one event loop.

  A coroutine is the tree of what it may still do: it has returned, it has raised, or it
  waits for the answer to one request, which is a value or an exception. A world answers
  requests and moves on its own. It moves only while the coroutine is parked on its
  request: between two requests that do not park, the coroutine keeps the loop.

  Proved:
  - `wp_steps`: the weakest precondition is preserved by every step, so it speaks of
    every run (`wp_result`, `wp_throws`, `wp_pending`).
  - the rules `wp_bind`, `wp_tryCatch`, `wp_tryFinally`, `wp_forEach`, `wp_request`.
  - `Only`: which requests a coroutine can make at all, on every path; what every such
    request keeps, the coroutine keeps (`wp_of_only`).
  - `Obeys`: which requests it can make after which answers.
  - `Raises`: which exceptions it can raise, given those of its requests (`wp_raises`).
  - `Settles`: how it ends when every answer is good (`wp_settles`).
  - `Projects`: a world whose steps are steps of another one, and its runs (`Projects.steps`).
  - `Follows`: what the steps of several coroutines are for one of them, and what it keeps over
    them (`wp_follows`, `obeys_follows`).
  - `play_steps`: a scripted run is a run.
-/

import Mathlib.Logic.Relation

namespace Coroutine

open Relation (ReflTransGen)

inductive Co (A : Type) (R : A → Type) (E α : Type) : Type where
  | ret (v : α)
  | throw (e : E)
  | ask (a : A) (k : Except E (R a) → Co A R E α)

variable {A : Type} {R : A → Type} {E S Ev α β : Type}

namespace Co

def bind : Co A R E α → (α → Co A R E β) → Co A R E β
  | .ret v, f => f v
  | .throw e, _ => .throw e
  | .ask a k, f => .ask a fun r => (k r).bind f

instance : Monad (Co A R E) where
  pure := .ret
  bind := Co.bind

/-- Ask `a`; an exceptional answer is raised here. -/
def request (a : A) : Co A R E (R a) :=
  .ask a fun
    | .ok v => .ret v
    | .error e => .throw e

/-- `try: x except: h`. -/
def tryCatch : Co A R E α → (E → Co A R E α) → Co A R E α
  | .ret v, _ => .ret v
  | .throw e, h => h e
  | .ask a k, h => .ask a fun r => (k r).tryCatch h

/-- `try: x finally: fin`. What `fin` raises replaces what `x` did. -/
def tryFinally : Co A R E α → Co A R E Unit → Co A R E α
  | .ret v, fin => fin.bind fun _ => .ret v
  | .throw e, fin => fin.bind fun _ => .throw e
  | .ask a k, fin => .ask a fun r => (k r).tryFinally fin

def forEach : List β → (β → Co A R E Unit) → Co A R E Unit
  | [], _ => .ret ()
  | x :: xs, f => (f x).bind fun _ => forEach xs f

@[simp] theorem pure_eq (v : α) : (pure v : Co A R E α) = .ret v := rfl
@[simp] theorem bind_eq (x : Co A R E α) (f : α → Co A R E β) : (x >>= f) = x.bind f := rfl
@[simp] theorem ret_bind (v : α) (f : α → Co A R E β) : (Co.ret v : Co A R E α).bind f = f v := rfl
@[simp] theorem throw_bind (e : E) (f : α → Co A R E β) : (Co.throw e : Co A R E α).bind f = .throw e := rfl

end Co

structure World (A : Type) (R : A → Type) (E S Ev : Type) where
  /-- `answer s a r s'`: in `s` the request `a` may be answered by `r`, which leaves `s'`. -/
  answer : S → (a : A) → Except E (R a) → S → Prop
  event : S → Ev → S → Prop
  /-- The coroutine is suspended on `a`, so that events may come before its answer. -/
  parked : S → A → Prop

/-- The same world, allowed only some answers and some events. -/
def World.restrict (W : World A R E S Ev) (ans : S → (a : A) → Except E (R a) → Prop) (ev : S → Ev → Prop) :
    World A R E S Ev where
  answer s a r s' := W.answer s a r s' ∧ ans s a r
  event s e s' := W.event s e s' ∧ ev s e
  parked := W.parked

variable (W : World A R E S Ev)

inductive Step : Co A R E α × S → Co A R E α × S → Prop
  | answer {s s' : S} {a : A} {k : Except E (R a) → Co A R E α} (r : Except E (R a)) :
      W.answer s a r s' → Step (.ask a k, s) (k r, s')
  | event {s s' : S} {a : A} {k : Except E (R a) → Co A R E α} (e : Ev) :
      W.parked s a → W.event s e s' → Step (.ask a k, s) (.ask a k, s')

abbrev Steps : Co A R E α × S → Co A R E α × S → Prop := ReflTransGen (Step W)

/-- What can happen while the coroutine is parked on `a`. -/
abbrev Meanwhile (a : A) : S → S → Prop := ReflTransGen fun s s' => W.parked s a ∧ ∃ e, W.event s e s'

/-- What can happen once the coroutine has ended. -/
abbrev After : S → S → Prop := ReflTransGen fun s s' => ∃ e, W.event s e s'

/-- `P` is kept by every event of the world. -/
def Stable (P : S → Prop) : Prop := ∀ s e s', P s → W.event s e s' → P s'

variable {W}

theorem Stable.meanwhile {P : S → Prop} (hP : Stable W P) {a : A} {s s' : S} (h : Meanwhile W a s s') (hs : P s) :
    P s' := by
  induction h with
  | refl => exact hs
  | tail _ hstep ih =>
    obtain ⟨-, e, he⟩ := hstep
    exact hP _ e _ ih he

theorem Stable.after {P : S → Prop} (hP : Stable W P) {s s' : S} (h : After W s s') (hs : P s) : P s' := by
  induction h with
  | refl => exact hs
  | tail _ hstep ih =>
    obtain ⟨e, he⟩ := hstep
    exact hP _ e _ ih he

theorem Stable.and {P Q : S → Prop} (hP : Stable W P) (hQ : Stable W Q) : Stable W fun s => P s ∧ Q s :=
  fun s e s' h he => ⟨hP s e s' h.1 he, hQ s e s' h.2 he⟩

/-! ## Weakest preconditions -/

section WP

variable (W) (I : S → A → Prop)

/-- Whatever happens from here, `I` holds whenever a request is pending, and `Q` of the
    outcome if the coroutine ends. -/
def wp (Q : Except E α → S → Prop) : Co A R E α → S → Prop
  | .ret v, s => Q (.ok v) s
  | .throw e, s => Q (.error e) s
  | .ask a k, s => ∀ s', Meanwhile W a s s' → I s' a ∧ ∀ r s'', W.answer s' a r s'' → wp Q (k r) s''

variable {W I} {Q Q' : Except E α → S → Prop}

theorem wp_step {c c' : Co A R E α} {s s' : S} (h : Step W (c, s) (c', s')) (hw : wp W I Q c s) : wp W I Q c' s' := by
  cases h with
  | answer r hr => exact (hw _ .refl).2 r _ hr
  | event e hp he =>
    intro t ht
    exact hw t (ReflTransGen.head ⟨hp, e, he⟩ ht)

theorem wp_steps {c c' : Co A R E α} {s s' : S} (h : Steps W (c, s) (c', s')) (hw : wp W I Q c s) :
    wp W I Q c' s' := by
  suffices ∀ x : Co A R E α × S, Steps W (c, s) x → wp W I Q x.1 x.2 from this _ h
  intro x hx
  induction hx with
  | refl => exact hw
  | tail _ hstep ih => exact wp_step hstep ih

theorem wp_result {c : Co A R E α} {v : α} {s s' : S} (hw : wp W I Q c s) (h : Steps W (c, s) (.ret v, s')) :
    Q (.ok v) s' :=
  wp_steps h hw

theorem wp_throws {c : Co A R E α} {e : E} {s s' : S} (hw : wp W I Q c s) (h : Steps W (c, s) (.throw e, s')) :
    Q (.error e) s' :=
  wp_steps h hw

theorem wp_mono (hQ : ∀ r s, Q r s → Q' r s) : ∀ (c : Co A R E α) (s : S), wp W I Q c s → wp W I Q' c s
  | .ret v, s, h => hQ (.ok v) s h
  | .throw e, s, h => hQ (.error e) s h
  | .ask _ k, _, h => fun s' hs' => ⟨(h s' hs').1, fun r s'' hr => wp_mono hQ (k r) s'' ((h s' hs').2 r s'' hr)⟩

/-- The outcome of `x` handed to what follows it: raised, or continued with `f`. -/
def andThen (W : World A R E S Ev) (I : S → A → Prop) (Q : Except E β → S → Prop) (f : α → Co A R E β) :
    Except E α → S → Prop
  | .ok v, s => wp W I Q (f v) s
  | .error e, s => Q (.error e) s

theorem wp_bind {Q : Except E β → S → Prop} (f : α → Co A R E β) :
    ∀ (x : Co A R E α) (s : S), wp W I (andThen W I Q f) x s → wp W I Q (x.bind f) s
  | .ret _, _, h => h
  | .throw _, _, h => h
  | .ask _ k, _, h => fun s' hs' => ⟨(h s' hs').1, fun r s'' hr => wp_bind f (k r) s'' ((h s' hs').2 r s'' hr)⟩

/-- The outcome of `x` handed to an exception handler. -/
def orElse (W : World A R E S Ev) (I : S → A → Prop) (Q : Except E α → S → Prop) (h : E → Co A R E α) :
    Except E α → S → Prop
  | .ok v, s => Q (.ok v) s
  | .error e, s => wp W I Q (h e) s

theorem wp_tryCatch (h : E → Co A R E α) :
    ∀ (x : Co A R E α) (s : S), wp W I (orElse W I Q h) x s → wp W I Q (x.tryCatch h) s
  | .ret _, _, hw => hw
  | .throw _, _, hw => hw
  | .ask _ k, _, hw => fun s' hs' =>
    ⟨(hw s' hs').1, fun r s'' hr => wp_tryCatch h (k r) s'' ((hw s' hs').2 r s'' hr)⟩

/-- The outcome of `x` kept over a `finally` block, unless the block raises. -/
def afterFinally (Q : Except E α → S → Prop) (r : Except E α) : Except E Unit → S → Prop
  | .ok _, s => Q r s
  | .error e, s => Q (.error e) s

theorem wp_tryFinally (fin : Co A R E Unit) :
    ∀ (x : Co A R E α) (s : S), wp W I (fun r s => wp W I (afterFinally Q r) fin s) x s →
      wp W I Q (x.tryFinally fin) s
  | .ret v, s, hw => wp_bind _ fin s (wp_mono (fun r t h => by cases r <;> exact h) fin s hw)
  | .throw e, s, hw => wp_bind _ fin s (wp_mono (fun r t h => by cases r <;> exact h) fin s hw)
  | .ask _ k, _, hw => fun s' hs' =>
    ⟨(hw s' hs').1, fun r s'' hr => wp_tryFinally fin (k r) s'' ((hw s' hs').2 r s'' hr)⟩

theorem wp_and {I' : S → A → Prop} : ∀ (c : Co A R E α) (s : S), wp W I Q c s → wp W I' Q' c s →
    wp W (fun s a => I s a ∧ I' s a) (fun r s => Q r s ∧ Q' r s) c s
  | .ret _, _, h, h' => ⟨h, h'⟩
  | .throw _, _, h, h' => ⟨h, h'⟩
  | .ask _ k, _, h, h' => fun s' hs' =>
    ⟨⟨(h s' hs').1, (h' s' hs').1⟩, fun r s'' hr => wp_and (k r) s'' ((h s' hs').2 r s'' hr) ((h' s' hs').2 r s'' hr)⟩

theorem wp_mono_pending {I' : S → A → Prop} (hI : ∀ s a, I s a → I' s a) :
    ∀ (c : Co A R E α) (s : S), wp W I Q c s → wp W I' Q c s
  | .ret _, _, h => h
  | .throw _, _, h => h
  | .ask a k, _, h => fun s' hs' =>
    ⟨hI s' a (h s' hs').1, fun r s'' hr => wp_mono_pending hI (k r) s'' ((h s' hs').2 r s'' hr)⟩

/-- One condition on the value returned, another on the exception raised. -/
def Post (V : α → S → Prop) (X : E → S → Prop) : Except E α → S → Prop
  | .ok v, s => V v s
  | .error e, s => X e s

section Post

variable {V : α → S → Prop} {X : E → S → Prop} {s : S}

theorem post_mono {V' : α → S → Prop} {X' : E → S → Prop} {c : Co A R E α} (h : wp W I (Post V X) c s)
    (hv : ∀ v t, V v t → V' v t) (hx : ∀ e t, X e t → X' e t) : wp W I (Post V' X') c s := by
  refine wp_mono (fun r t hr => ?_) c s h
  cases r with
  | ok v => exact hv v t hr
  | error e => exact hx e t hr

theorem wp_seq {Q : Except E β → S → Prop} {x : Co A R E α} {f : α → Co A R E β} (hx : wp W I (Post V X) x s)
    (hv : ∀ v t, V v t → wp W I Q (f v) t) (he : ∀ e t, X e t → Q (.error e) t) : wp W I Q (x.bind f) s := by
  refine wp_bind f x s (wp_mono (fun r t h => ?_) x s hx)
  cases r with
  | ok v => exact hv v t h
  | error e => exact he e t h

theorem wp_try {x : Co A R E α} {h : E → Co A R E α} (hx : wp W I (Post V X) x s)
    (hv : ∀ v t, V v t → Q (.ok v) t) (he : ∀ e t, X e t → wp W I Q (h e) t) : wp W I Q (x.tryCatch h) s := by
  refine wp_tryCatch h x s (wp_mono (fun r t hr => ?_) x s hx)
  cases r with
  | ok v => exact hv v t hr
  | error e => exact he e t hr

theorem wp_finally {x : Co A R E α} {fin : Co A R E Unit} (hx : wp W I (Post V X) x s)
    (hv : ∀ v t, V v t → wp W I (Post (fun _ => Q (.ok v)) fun e => Q (.error e)) fin t)
    (he : ∀ e t, X e t → wp W I (Post (fun _ => Q (.error e)) fun e => Q (.error e)) fin t) :
    wp W I Q (x.tryFinally fin) s := by
  have hpost : ∀ (r : Except E α) (r' : Except E Unit) (t : S),
      Post (fun _ => Q r) (fun e => Q (.error e)) r' t → afterFinally Q r r' t := by
    intro r r' t h
    cases r' <;> exact h
  refine wp_tryFinally fin x s (wp_mono (fun r t hr => ?_) x s hx)
  cases r with
  | ok v => exact wp_mono (hpost (.ok v)) fin t (hv v t hr)
  | error e => exact wp_mono (hpost (.error e)) fin t (he e t hr)

/-- A loop keeps an invariant that may name the items still to come. -/
theorem wp_forEach {Q : Except E Unit → S → Prop} {f : β → Co A R E Unit} {P : List β → S → Prop}
    (hbody : ∀ x xs s, P (x :: xs) s → wp W I (Post (fun _ t => P xs t) X) (f x) s)
    (hend : ∀ s, P [] s → Q (.ok ()) s) (he : ∀ e s, X e s → Q (.error e) s) :
    ∀ {xs : List β} {s : S}, P xs s → wp W I Q (Co.forEach xs f) s
  | [], s, h => hend s h
  | x :: xs, s, h => wp_seq (hbody x xs s h) (fun _ _ ht => wp_forEach hbody hend he ht) he

end Post

/-- A request made in a state where something stable holds. -/
theorem wp_ask {P : S → Prop} (hP : Stable W P) {a : A} {k : Except E (R a) → Co A R E α} {s : S} (hs : P s)
    (hI : ∀ t, P t → I t a) (h : ∀ t r t', P t → W.answer t a r t' → wp W I Q (k r) t') :
    wp W I Q (.ask a k) s :=
  fun _ hs' => ⟨hI _ (hP.meanwhile hs' hs), fun r t' hr => h _ r t' (hP.meanwhile hs' hs) hr⟩

theorem wp_request {P : S → Prop} (hP : Stable W P) {a : A} {Q : Except E (R a) → S → Prop} {s : S} (hs : P s)
    (hI : ∀ t, P t → I t a) (h : ∀ t r t', P t → W.answer t a r t' → Q r t') :
    wp W I Q (Co.request a) s := by
  refine wp_ask hP hs hI fun t r t' ht hr => ?_
  cases r <;> exact h t _ t' ht hr

/-- A request that does not park is answered at once. -/
theorem wp_request_now {a : A} {Q : Except E (R a) → S → Prop} {s : S} (hn : ¬ W.parked s a) (hI : I s a)
    (h : ∀ r t, W.answer s a r t → Q r t) : wp W I Q (Co.request a) s := by
  intro s' hs'
  rcases ReflTransGen.cases_head hs' with rfl | ⟨_, ⟨hp, -⟩, -⟩
  · refine ⟨hI, fun r t hr => ?_⟩
    cases r <;> exact h _ t hr
  · exact absurd hp hn

end WP

section Restrict

variable {ans : S → (a : A) → Except E (R a) → Prop} {ev : S → Ev → Prop}

theorem Stable.restrict {P : S → Prop} (hP : Stable W P) : Stable (W.restrict ans ev) P :=
  fun s e s' hs he => hP s e s' hs he.1

theorem meanwhile_restrict {a : A} {s s' : S} (h : Meanwhile (W.restrict ans ev) a s s') : Meanwhile W a s s' :=
  ReflTransGen.mono (fun _ _ ⟨hp, e, he⟩ => ⟨hp, e, he.1⟩) _ _ h

/-- What holds in every behaviour holds in those that are allowed. -/
theorem wp_restrict {I : S → A → Prop} {Q : Except E α → S → Prop} :
    ∀ {c : Co A R E α} {s : S}, wp W I Q c s → wp (W.restrict ans ev) I Q c s
  | .ret _, _, h => h
  | .throw _, _, h => h
  | .ask _ _, _, h => fun s' hs' =>
    have h' := h s' (meanwhile_restrict hs')
    ⟨h'.1, fun r s'' hr => wp_restrict (h'.2 r s'' hr.1)⟩

/-- What holds of every pending request may be asked of its answer. -/
theorem restrict_steps {ans' : S → (a : A) → Except E (R a) → Prop} {I : S → A → Prop} {Q : Except E α → S → Prop}
    {c c' : Co A R E α} {s s' : S} (hw : wp (W.restrict ans ev) I Q c s)
      (hans : ∀ s a r, I s a → ans s a r → ans' s a r)
    (hrun : Steps (W.restrict ans ev) (c, s) (c', s')) : Steps (W.restrict ans' ev) (c, s) (c', s') := by
  suffices ∀ x : Co A R E α × S, Steps (W.restrict ans ev) (c, s) x →
      wp (W.restrict ans ev) I Q x.1 x.2 ∧ Steps (W.restrict ans' ev) (c, s) x from (this _ hrun).2
  intro x hx
  induction hx with
  | refl => exact ⟨hw, .refl⟩
  | tail _ hstep ih =>
    obtain ⟨hw', hsteps⟩ := ih
    refine ⟨wp_step hstep hw', hsteps.tail ?_⟩
    cases hstep with
    | answer r hr => exact .answer r ⟨hr.1, hans _ _ r (hw' _ .refl).1 hr.2⟩
    | event e hp he => exact .event e hp he

end Restrict

/-! ## Worlds within worlds -/

/-- Through `f`, what `W` does is something `W'` can do, or nothing. -/
structure Projects {S' Ev' : Type} (W : World A R E S Ev) (W' : World A R E S' Ev') (f : S → S') : Prop where
  answer : ∀ s a r s', W.answer s a r s' → W'.answer (f s) a r (f s')
  event : ∀ s e s', W.event s e s' → f s' = f s ∨ ∃ e', W'.event (f s) e' (f s')
  parked : ∀ s a, W.parked s a → W'.parked (f s) a

section Projects

variable {S' Ev' : Type} {W' : World A R E S' Ev'} {f : S → S'}

theorem Projects.steps (h : Projects W W' f) {c c' : Co A R E α} {s s' : S} (hrun : Steps W (c, s) (c', s')) :
    Steps W' (c, f s) (c', f s') := by
  suffices ∀ x : Co A R E α × S, Steps W (c, s) x → Steps W' (c, f s) (x.1, f x.2) from this _ hrun
  intro x hx
  induction hx with
  | refl => exact .refl
  | tail _ hstep ih =>
    cases hstep with
    | answer r hr => exact ih.tail (.answer r (h.answer _ _ r _ hr))
    | event e hp he =>
      rcases h.event _ e _ he with heq | ⟨e', he'⟩
      · dsimp only at ih ⊢
        rwa [heq]
      · exact ih.tail (.event e' (h.parked _ _ hp) he')

theorem Projects.after (h : Projects W W' f) {s s' : S} (hafter : After W s s') : After W' (f s) (f s') := by
  induction hafter with
  | refl => exact .refl
  | tail _ hstep ih =>
    obtain ⟨e, he⟩ := hstep
    rcases h.event _ e _ he with heq | hsome
    · rwa [heq]
    · exact ih.tail hsome

theorem projects_restrict {ans ans' : S → (a : A) → Except E (R a) → Prop} {ev ev' : S → Ev → Prop}
    (hans : ∀ s a r, ans s a r → ans' s a r) (hev : ∀ s e, ev s e → ev' s e) :
    Projects (W.restrict ans ev) (W.restrict ans' ev') id where
  answer s a r _ h := ⟨h.1, hans s a r h.2⟩
  event s e _ h := .inr ⟨e, h.1, hev s e h.2⟩
  parked _ _ h := h

/-- A world that is allowed less does nothing new. -/
theorem projects_unrestricted {ans : S → (a : A) → Except E (R a) → Prop} {ev : S → Ev → Prop} :
    Projects (W.restrict ans ev) W id where
  answer _ _ _ _ h := h.1
  event _ e _ h := .inr ⟨e, h.1⟩
  parked _ _ h := h

end Projects

/-! ## The requests a coroutine can make -/

/-- Every request the coroutine makes, on every path, satisfies `p`. -/
def Only (p : A → Prop) : Co A R E α → Prop
  | .ret _ => True
  | .throw _ => True
  | .ask a k => p a ∧ ∀ r, Only p (k r)

section Only

variable {p : A → Prop}

theorem only_ret {v : α} : Only p (.ret v : Co A R E α) := trivial

theorem only_bind {f : α → Co A R E β} (hf : ∀ v, Only p (f v)) : ∀ {x : Co A R E α}, Only p x → Only p (x.bind f)
  | .ret v, _ => hf v
  | .throw _, _ => trivial
  | .ask _ _, h => ⟨h.1, fun r => only_bind hf (h.2 r)⟩

theorem only_tryCatch {h : E → Co A R E α} (hh : ∀ e, Only p (h e)) :
    ∀ {x : Co A R E α}, Only p x → Only p (x.tryCatch h)
  | .ret _, _ => trivial
  | .throw e, _ => hh e
  | .ask _ _, hx => ⟨hx.1, fun r => only_tryCatch hh (hx.2 r)⟩

theorem only_tryFinally {fin : Co A R E Unit} (hfin : Only p fin) :
    ∀ {x : Co A R E α}, Only p x → Only p (x.tryFinally fin)
  | .ret v, _ => only_bind (f := fun _ => .ret v) (fun _ => trivial) hfin
  | .throw e, _ => only_bind (f := fun _ => .throw e) (fun _ => trivial) hfin
  | .ask _ _, hx => ⟨hx.1, fun r => only_tryFinally hfin (hx.2 r)⟩

theorem only_forEach {f : β → Co A R E Unit} : ∀ {xs : List β}, (∀ x ∈ xs, Only p (f x)) → Only p (Co.forEach xs f)
  | [], _ => trivial
  | x :: _, h => only_bind (fun _ => only_forEach fun y hy => h y (List.mem_cons_of_mem _ hy)) (h x List.mem_cons_self)

theorem only_request {a : A} (ha : p a) : Only p (Co.request a : Co A R E (R a)) :=
  ⟨ha, fun r => by cases r <;> trivial⟩

theorem only_anything : ∀ x : Co A R E α, Only (fun _ => True) x
  | .ret _ => trivial
  | .throw _ => trivial
  | .ask _ k => ⟨trivial, fun r => only_anything (k r)⟩

theorem only_mono {q : A → Prop} (hpq : ∀ a, p a → q a) : ∀ {x : Co A R E α}, Only p x → Only q x
  | .ret _, _ => trivial
  | .throw _, _ => trivial
  | .ask a _, h => ⟨hpq a h.1, fun r => only_mono hpq (h.2 r)⟩

/-- On some path the coroutine returns this value. -/
def CanReturn : Co A R E α → α → Prop
  | .ret v, w => v = w
  | .throw _, _ => False
  | .ask _ k, w => ∃ r, CanReturn (k r) w

theorem canReturn_bind {f : α → Co A R E β} {v : α} {w : β} (hf : CanReturn (f v) w) :
    ∀ {x : Co A R E α}, CanReturn x v → CanReturn (x.bind f) w
  | .ret _, h => by
    cases h
    exact hf
  | .ask _ _, ⟨r, h⟩ => ⟨r, canReturn_bind hf h⟩

theorem canReturn_tryCatch {h : E → Co A R E α} {v : α} :
    ∀ {x : Co A R E α}, CanReturn x v → CanReturn (x.tryCatch h) v
  | .ret _, hx => hx
  | .ask _ _, ⟨r, hx⟩ => ⟨r, canReturn_tryCatch hx⟩

theorem Only.left {f : α → Co A R E β} : ∀ {x : Co A R E α}, Only p (x.bind f) → Only p x
  | .ret _, _ => trivial
  | .throw _, _ => trivial
  | .ask _ _, h => ⟨h.1, fun r => Only.left (h.2 r)⟩

theorem Only.right {f : α → Co A R E β} {v : α} :
    ∀ {x : Co A R E α}, Only p (x.bind f) → CanReturn x v → Only p (f v)
  | .ret _, h, hv => by
    cases hv
    exact h
  | .ask _ _, h, ⟨r, hv⟩ => Only.right (h.2 r) hv

theorem Only.attempt {h : E → Co A R E α} : ∀ {x : Co A R E α}, Only p (x.tryCatch h) → Only p x
  | .ret _, _ => trivial
  | .throw _, _ => trivial
  | .ask _ _, hx => ⟨hx.1, fun r => Only.attempt (hx.2 r)⟩

theorem only_step {c c' : Co A R E α} {s s' : S} (h : Step W (c, s) (c', s')) (hc : Only p c) : Only p c' := by
  cases h with
  | answer r _ => exact hc.2 r
  | event _ _ _ => exact hc

/-- A stable property kept by the answers to the requests a coroutine can make holds
    throughout it and after it. -/
theorem wp_of_only {I : S → A → Prop} {P : S → Prop} (hP : Stable W P) (hI : ∀ s a, p a → P s → I s a)
    (hans : ∀ s a r s', p a → P s → W.answer s a r s' → P s') :
    ∀ (c : Co A R E α) (s : S), Only p c → P s → wp W I (fun _ s => P s) c s
  | .ret _, _, _, h => h
  | .throw _, _, _, h => h
  | .ask a k, _, hc, h => fun s' hs' => by
    have h' := hP.meanwhile hs' h
    exact ⟨hI s' a hc.1 h', fun r s'' hr => wp_of_only hP hI hans (k r) s'' (hc.2 r) (hans s' a r s'' hc.1 h' hr)⟩

/-- What the requests a coroutine can make and every event keep, its runs keep. -/
theorem only_steps {P : S → Prop} (hP : Stable W P) (hans : ∀ s a r s', p a → P s → W.answer s a r s' → P s')
    {c c' : Co A R E α} {s s' : S} (hc : Only p c) (hs : P s) (h : Steps W (c, s) (c', s')) : Only p c' ∧ P s' := by
  suffices ∀ x : Co A R E α × S, Steps W (c, s) x → Only p x.1 ∧ P x.2 from this _ h
  intro x hx
  induction hx with
  | refl => exact ⟨hc, hs⟩
  | tail _ hstep ih =>
    refine ⟨only_step hstep ih.1, ?_⟩
    cases hstep with
    | answer r hr => exact hans _ _ _ _ ih.1.1 ih.2 hr
    | event e _ he => exact hP _ _ _ ih.2 he

end Only

/-! ## Requests whose order matters -/

/-- Every request is allowed in the state that the answers before it have led to. -/
def Obeys {σ : Type} (allowed : σ → A → Prop) (next : σ → (a : A) → Except E (R a) → σ) : σ → Co A R E α → Prop
  | _, .ret _ => True
  | _, .throw _ => True
  | t, .ask a k => allowed t a ∧ ∀ r, Obeys allowed next (next t a r) (k r)

section Obeys

variable {σ : Type} {allowed : σ → A → Prop} {next : σ → (a : A) → Except E (R a) → σ}

/-- What is allowed in every state is made in any order. -/
theorem obeys_of_only {p : A → Prop} (hp : ∀ t a, p a → allowed t a) :
    ∀ {x : Co A R E α} (t : σ), Only p x → Obeys allowed next t x
  | .ret _, _, _ => trivial
  | .throw _, _, _ => trivial
  | .ask a _, t, h => ⟨hp t a h.1, fun r => obeys_of_only hp _ (h.2 r)⟩

theorem obeys_bind {f : α → Co A R E β} (hf : ∀ t v, Obeys allowed next t (f v)) :
    ∀ {x : Co A R E α} {t : σ}, Obeys allowed next t x → Obeys allowed next t (x.bind f)
  | .ret v, t, _ => hf t v
  | .throw _, _, _ => trivial
  | .ask _ _, _, h => ⟨h.1, fun r => obeys_bind hf (h.2 r)⟩

theorem obeys_tryCatch {h : E → Co A R E α} (hh : ∀ t e, Obeys allowed next t (h e)) :
    ∀ {x : Co A R E α} {t : σ}, Obeys allowed next t x → Obeys allowed next t (x.tryCatch h)
  | .ret _, _, _ => trivial
  | .throw e, t, _ => hh t e
  | .ask _ _, _, hx => ⟨hx.1, fun r => obeys_tryCatch hh (hx.2 r)⟩

theorem obeys_tryFinally {fin : Co A R E Unit} (hfin : ∀ t, Obeys allowed next t fin) :
    ∀ {x : Co A R E α} {t : σ}, Obeys allowed next t x → Obeys allowed next t (x.tryFinally fin)
  | .ret v, t, _ => obeys_bind (f := fun _ => .ret v) (fun _ _ => trivial) (hfin t)
  | .throw e, t, _ => obeys_bind (f := fun _ => .throw e) (fun _ _ => trivial) (hfin t)
  | .ask _ _, _, hx => ⟨hx.1, fun r => obeys_tryFinally hfin (hx.2 r)⟩

/-- The order of requests that are of one kind besides. -/
theorem obeys_and_only {p : A → Prop} : ∀ {x : Co A R E α} {t : σ}, Obeys allowed next t x → Only p x →
    Obeys (fun t a => allowed t a ∧ p a) next t x
  | .ret _, _, _, _ => trivial
  | .throw _, _, _, _ => trivial
  | .ask _ _, _, h, hp => ⟨⟨h.1, hp.1⟩, fun r => obeys_and_only (h.2 r) (hp.2 r)⟩

/-- What every event keeps, and every answer to an allowed request hands on, holds throughout. -/
theorem obeys_steps {J : σ → S → Prop} (hJ : ∀ t, Stable W (J t))
    (hans : ∀ t s a r s', allowed t a → J t s → W.answer s a r s' → J (next t a r) s')
      {c c' : Co A R E α} {t : σ} {s s' : S}
    (hc : Obeys allowed next t c) (hs : J t s) (h : Steps W (c, s) (c', s')) :
      ∃ t', Obeys allowed next t' c' ∧ J t' s' := by
  suffices ∀ x : Co A R E α × S, Steps W (c, s) x → ∃ t', Obeys allowed next t' x.1 ∧ J t' x.2 from this _ h
  intro x hx
  induction hx with
  | refl => exact ⟨t, hc, hs⟩
  | tail _ hstep ih =>
    obtain ⟨t', hobeys, hholds⟩ := ih
    cases hstep with
    | answer r hr => exact ⟨_, hobeys.2 r, hans t' _ _ r _ hobeys.1 hholds hr⟩
    | event e _ he => exact ⟨t', hobeys, hJ t' _ e _ hholds he⟩

theorem wp_of_obeys {I : S → A → Prop} {J : σ → S → Prop} (hI : ∀ t s a, J t s → I s a) (hJ : ∀ t, Stable W (J t))
    (hans : ∀ t s a r s', allowed t a → J t s → W.answer s a r s' → J (next t a r) s') :
    ∀ {c : Co A R E α} {t : σ} {s : S}, Obeys allowed next t c → J t s → wp W I (fun _ s => ∃ t, J t s) c s
  | .ret _, t, _, _, hs => ⟨t, hs⟩
  | .throw _, t, _, _, hs => ⟨t, hs⟩
  | .ask a k, t, _, hc, hs => fun s' hs' => by
    have h' := (hJ t).meanwhile hs' hs
    exact ⟨hI t s' a h', fun r s'' hr => wp_of_obeys hI hJ hans (hc.2 r) (hans t s' a r s'' hc.1 h' hr)⟩

end Obeys

/-! ## Coroutines beside each other -/

/-- What a step of many coroutines is for one of them: a step of its own, or an event that finds
    it parked or ended, or nothing. -/
inductive Follows (W : World A R E S Ev) : Co A R E α × S → Co A R E α × S → Prop
  | step {x y : Co A R E α × S} : Step W x y → Follows W x y
  | after {c : Co A R E α} {s s' : S} (e : Ev) : (∀ a k, c ≠ .ask a k) → W.event s e s' → Follows W (c, s) (c, s')
  | idle {x : Co A R E α × S} : Follows W x x

section Follows

variable {I : S → A → Prop} {Q : Except E α → S → Prop} {c c' : Co A R E α} {s s' : S}

theorem wp_follows (hQ : ∀ r, Stable W (Q r)) (h : Follows W (c, s) (c', s')) (hw : wp W I Q c s) : wp W I Q c' s' := by
  cases h with
  | step hstep => exact wp_step hstep hw
  | after e hended he =>
    cases c with
    | ret v => exact hQ _ _ e _ hw he
    | throw e' => exact hQ _ _ e _ hw he
    | ask a k => exact absurd rfl (hended a k)
  | idle => exact hw

theorem obeys_follows {σ : Type} {allowed : σ → A → Prop} {next : σ → (a : A) → Except E (R a) → σ} {J : σ → S → Prop}
    (hJ : ∀ t, Stable W (J t))
    (hans : ∀ t s a r s', allowed t a → J t s → W.answer s a r s' → J (next t a r) s') {t : σ}
      (h : Follows W (c, s) (c', s'))
    (hc : Obeys allowed next t c) (hs : J t s) : ∃ t', Obeys allowed next t' c' ∧ J t' s' := by
  cases h with
  | step hstep => exact obeys_steps hJ hans hc hs (.single hstep)
  | after e hended he => exact ⟨t, hc, hJ t _ e _ hs he⟩
  | idle => exact ⟨t, hc, hs⟩

end Follows

/-! ## The exceptions a coroutine can raise -/

/-- As long as the answer to each request raises only what `ok` allows, the coroutine raises
    only what satisfies `x`. -/
def Raises (ok : A → E → Prop) (x : E → Prop) : Co A R E α → Prop
  | .ret _ => True
  | .throw e => x e
  | .ask a k => ∀ r, (∀ e, r = .error e → ok a e) → Raises ok x (k r)

section Raises

variable {ok : A → E → Prop} {x y : E → Prop}

theorem raises_ret {v : α} : Raises ok x (.ret v : Co A R E α) := trivial

theorem raises_mono {ok' : A → E → Prop} (hok : ∀ a e, ok a e → ok' a e) (hxy : ∀ e, x e → y e) :
    ∀ {c : Co A R E α}, Raises ok' x c → Raises ok y c
  | .ret _, _ => trivial
  | .throw e, h => hxy e h
  | .ask a _, h => fun r hr => raises_mono hok hxy (h r fun e he => hok a e (hr e he))

theorem raises_anything : ∀ c : Co A R E α, Raises ok (fun _ => True) c
  | .ret _ => trivial
  | .throw _ => trivial
  | .ask _ k => fun r _ => raises_anything (k r)

theorem raises_bind {f : α → Co A R E β} (hf : ∀ v, Raises ok x (f v)) :
    ∀ {c : Co A R E α}, Raises ok x c → Raises ok x (c.bind f)
  | .ret v, _ => hf v
  | .throw _, h => h
  | .ask _ _, h => fun r hr => raises_bind hf (h r hr)

theorem raises_tryCatch {h : E → Co A R E α} (hh : ∀ e, y e → Raises ok x (h e)) :
    ∀ {c : Co A R E α}, Raises ok y c → Raises ok x (c.tryCatch h)
  | .ret _, _ => trivial
  | .throw e, hc => hh e hc
  | .ask _ _, hc => fun r hr => raises_tryCatch hh (hc r hr)

theorem raises_tryFinally {fin : Co A R E Unit} (hfin : Raises ok x fin) :
    ∀ {c : Co A R E α}, Raises ok x c → Raises ok x (c.tryFinally fin)
  | .ret v, _ => raises_bind (f := fun _ => .ret v) (fun _ => trivial) hfin
  | .throw e, hc => raises_bind (f := fun _ => .throw e) (fun _ => hc) hfin
  | .ask _ _, hc => fun r hr => raises_tryFinally hfin (hc r hr)

theorem raises_forEach {f : β → Co A R E Unit} (hf : ∀ v, Raises ok x (f v)) :
    ∀ {vs : List β}, Raises ok x (Co.forEach vs f)
  | [] => trivial
  | v :: _ => raises_bind (fun _ => raises_forEach hf) (hf v)

theorem raises_request {a : A} (ha : ∀ e, ok a e → x e) : Raises ok x (Co.request a : Co A R E (R a)) := by
  intro r hr
  cases r with
  | ok v => trivial
  | error e => exact ha e (hr e rfl)

/-- In a world whose answers raise only what is allowed, it raises nothing else. -/
theorem wp_raises (hok : ∀ s a e s', W.answer s a (.error e) s' → ok a e) :
    ∀ {c : Co A R E α} {s : S}, Raises ok x c → wp W (fun _ _ => True) (Post (fun _ _ => True) fun e _ => x e) c s
  | .ret _, _, _ => trivial
  | .throw _, _, h => h
  | .ask _ _, _, h => fun _ _ =>
    ⟨trivial, fun r _ hr => wp_raises hok (h r fun e he => hok _ _ e _ (he ▸ hr))⟩

/-- What its requests keep holds throughout, and it raises what they let it raise. -/
theorem wp_only_raises {p : A → Prop} {P : S → Prop} (hP : Stable W P)
    (hans : ∀ s a r s', p a → P s → W.answer s a r s' → P s') (hok : ∀ s a e s', p a →
      W.answer s a (.error e) s' → ok a e) :
    ∀ {c : Co A R E α} {s : S}, Only p c → Raises ok x c → P s →
      wp W (fun _ _ => True) (Post (fun _ t => P t) fun e t => P t ∧ x e) c s
  | .ret _, _, _, _, hs => hs
  | .throw _, _, _, hx, hs => ⟨hs, hx⟩
  | .ask a k, _, hc, hx, hs => fun s' hs' => by
    have h' := hP.meanwhile hs' hs
    refine ⟨trivial, fun r s'' hr => wp_only_raises hP hans hok (hc.2 r) (hx r fun e he => ?_)
      (hans s' a r s'' hc.1 h' hr)⟩
    exact hok s' a e s'' hc.1 (he ▸ hr)

end Raises

/-! ## Coroutines that settle -/

/-- As long as every answer is good, the coroutine returns a value that satisfies `V`, or raises
    what satisfies `X`. -/
def Settles (good : (a : A) → Except E (R a) → Prop) (V : α → Prop) (X : E → Prop) : Co A R E α → Prop
  | .ret v => V v
  | .throw e => X e
  | .ask a k => ∀ r, good a r → Settles good V X (k r)

section Settles

variable {good : (a : A) → Except E (R a) → Prop} {V : α → Prop} {V' : β → Prop} {X Y : E → Prop}

theorem settles_mono {V' : α → Prop} (hV : ∀ v, V v → V' v) (hX : ∀ e, X e → Y e) :
    ∀ {c : Co A R E α}, Settles good V X c → Settles good V' Y c
  | .ret v, h => hV v h
  | .throw e, h => hX e h
  | .ask _ _, h => fun r hr => settles_mono hV hX (h r hr)

theorem settles_bind {f : α → Co A R E β} (hf : ∀ v, V v → Settles good V' X (f v)) :
    ∀ {c : Co A R E α}, Settles good V X c → Settles good V' X (c.bind f)
  | .ret v, h => hf v h
  | .throw _, h => h
  | .ask _ _, h => fun r hr => settles_bind hf (h r hr)

theorem settles_tryCatch {h : E → Co A R E α} (hh : ∀ e, X e → Settles good V Y (h e)) :
    ∀ {c : Co A R E α}, Settles good V X c → Settles good V Y (c.tryCatch h)
  | .ret _, hc => hc
  | .throw e, hc => hh e hc
  | .ask _ _, hc => fun r hr => settles_tryCatch hh (hc r hr)

theorem settles_request {a : A} : Settles good (fun v => good a (.ok v)) (fun e => good a (.error e))
    (Co.request a : Co A R E (R a)) := by
  intro r hr
  cases r with
  | ok v => exact hr
  | error e => exact hr

/-- Where the answers are good it settles, and what its requests keep it keeps. -/
theorem wp_settles {I : S → A → Prop} {p : A → Prop} {P : S → Prop} (hP : Stable W P) (hI : ∀ s a, p a → P s → I s a)
    (hgood : ∀ s a r s', P s → W.answer s a r s' → good a r) (hans : ∀ s a r s', p a → P s → W.answer s a r s' → P s') :
    ∀ {c : Co A R E α} {s : S}, Only p c → Settles good V X c → P s →
      wp W I (Post (fun v t => V v ∧ P t) fun e t => X e ∧ P t) c s
  | .ret _, _, _, h, hs => ⟨h, hs⟩
  | .throw _, _, _, h, hs => ⟨h, hs⟩
  | .ask a k, _, hc, h, hs => fun s' hs' => by
    have h' := hP.meanwhile hs' hs
    refine ⟨hI s' a hc.1 h', fun r s'' hr => ?_⟩
    exact wp_settles hP hI hgood hans (hc.2 r) (h r (hgood _ _ r _ h' hr)) (hans s' a r s'' hc.1 h' hr)

end Settles

/-! ## Scripted runs -/

/-- One schedule of a world: what it answers and which events come before the answer. -/
structure Script (A : Type) (R : A → Type) (E S Ev : Type) where
  answer : S → (a : A) → Except E (R a) → Option S
  event : S → Ev → Option S
  parked : S → A → Bool
  reply : S → (a : A) → Except E (R a)
  before : S → A → List Ev

namespace Script

variable (P : Script A R E S Ev)

def events (a : A) : List Ev → S → Option S
  | [], s => some s
  | e :: es, s => if P.parked s a then (P.event s e).bind (events a es) else none

/-- At most `n` answers, each after its events. -/
def play : Nat → Co A R E α → S → Option (Co A R E α × S)
  | 0, c, s => some (c, s)
  | n + 1, .ask a k, s =>
    (P.events a (P.before s a) s).bind fun t =>
      (P.answer t a (P.reply t a)).bind fun t' => play n (k (P.reply t a)) t'
  | _ + 1, .ret v, s => some (.ret v, s)
  | _ + 1, .throw e, s => some (.throw e, s)

/-- The script stays within what the world allows. -/
structure Fits (W : World A R E S Ev) : Prop where
  answer : ∀ s a r s', P.answer s a r = some s' → W.answer s a r s'
  event : ∀ s e s', P.event s e = some s' → W.event s e s'
  parked : ∀ s a, P.parked s a = true → W.parked s a

variable {P}

theorem events_steps (h : P.Fits W) {a : A} {k : Except E (R a) → Co A R E α} :
    ∀ (es : List Ev) {s s' : S}, P.events a es s = some s' → Steps W (.ask a k, s) (.ask a k, s')
  | [], s, s', he => by
    cases he
    exact .refl
  | e :: es, s, s', he => by
    simp only [events] at he
    split at he
    · rename_i hp
      obtain ⟨t, ht, hrest⟩ := Option.bind_eq_some_iff.mp he
      exact ReflTransGen.head (.event e (h.parked _ _ hp) (h.event _ _ _ ht)) (events_steps h es hrest)
    · cases he

theorem play_steps (h : P.Fits W) :
    ∀ (n : Nat) {c c' : Co A R E α} {s s' : S}, P.play n c s = some (c', s') → Steps W (c, s) (c', s')
  | 0, c, c', s, s', he => by
    cases he
    exact .refl
  | n + 1, .ret v, c', s, s', he => by
    cases he
    exact .refl
  | n + 1, .throw e, c', s, s', he => by
    cases he
    exact .refl
  | n + 1, .ask a k, c', s, s', he => by
    obtain ⟨t, ht, he⟩ := Option.bind_eq_some_iff.mp he
    obtain ⟨t', ht', he⟩ := Option.bind_eq_some_iff.mp he
    exact (events_steps h _ ht).trans (ReflTransGen.head (.answer _ (h.answer _ _ _ _ ht')) (play_steps h n he))

/-- The coroutine has returned, and `p` holds then. -/
def returned (p : α → S → Bool) : Option (Co A R E α × S) → Bool
  | some (.ret v, s) => p v s
  | _ => false

theorem returned_steps (h : P.Fits W) {n : Nat} {c : Co A R E α} {s : S} {p : α → S → Bool}
    (hp : returned p (P.play n c s) = true) : ∃ v s', Steps W (c, s) (.ret v, s') ∧ p v s' = true := by
  unfold returned at hp
  split at hp
  · rename_i v s' hplay
    exact ⟨v, s', play_steps h n hplay, hp⟩
  · cases hp

/-- A request is pending, and `p` holds then. -/
def waiting (p : A → S → Bool) : Option (Co A R E α × S) → Bool
  | some (.ask a _, s) => p a s
  | _ => false

theorem waiting_steps (h : P.Fits W) {n : Nat} {c : Co A R E α} {s : S} {p : A → S → Bool}
    (hp : waiting p (P.play n c s) = true) : ∃ a k s', Steps W (c, s) (.ask a k, s') ∧ p a s' = true := by
  unfold waiting at hp
  split at hp
  · rename_i a k s' hplay
    exact ⟨a, k, s', play_steps h n hplay, hp⟩
  · cases hp

/-- The same schedule, stopped before a step that is not wanted. -/
def guarded (P : Script A R E S Ev) (ans : S → (a : A) → Except E (R a) → Bool) (ev : S → Ev → Bool) :
    Script A R E S Ev :=
  { P with
    answer := fun s a r => if ans s a r then P.answer s a r else none
    event := fun s e => if ev s e then P.event s e else none }

theorem Fits.guarded {ans : S → (a : A) → Except E (R a) → Bool} {ev : S → Ev → Bool}
    {ans' : S → (a : A) → Except E (R a) → Prop} {ev' : S → Ev → Prop} (h : P.Fits W)
    (hans : ∀ s a r, ans s a r = true → ans' s a r) (hev : ∀ s e, ev s e = true → ev' s e) :
    (P.guarded ans ev).Fits (W.restrict ans' ev') where
  answer s a r s' hs := by
    simp only [Script.guarded] at hs
    split at hs
    · exact ⟨h.answer s a r s' hs, hans s a r ‹_›⟩
    · cases hs
  event s e s' hs := by
    simp only [Script.guarded] at hs
    split at hs
    · exact ⟨h.event s e s' hs, hev s e ‹_›⟩
    · cases hs
  parked s a hs := h.parked s a hs

end Script

end Coroutine
