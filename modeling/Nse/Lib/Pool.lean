/-
  Nse.Lib.Pool — coroutines that share a state and take turns.

  One of them runs at a time, from one wait to the next: a request that does not park is
  answered before anybody else moves. Events come while all of them wait, and new ones
  start then.

  Two rules for what holds in every pool: `pool_only`, from what each request and each
  event keeps; and `pool_sound`, from a precondition of each coroutine against whatever
  the others guarantee (`World.relying`).
-/

import Nse.Lib.Coroutine

namespace Coroutine

open Relation (ReflTransGen)

variable {A : Type} {R : A → Type} {E S Ev α : Type}

/-- Lets the others move: it waits, or has ended. -/
def Waiting (W : World A R E S Ev) (s : S) : Co A R E α → Prop
  | .ask a _ => W.parked s a
  | _ => True

inductive PoolStep (W : World A R E S Ev) (starts : Co A R E α → Prop) :
    List (Co A R E α) × S → List (Co A R E α) × S → Prop
  | answer {before after : List (Co A R E α)} {a : A} {k : Except E (R a) → Co A R E α}
    {s s' : S} (r : Except E (R a)) :
      (∀ c ∈ before ++ after, Waiting W s c) → W.answer s a r s' →
      PoolStep W starts (before ++ .ask a k :: after, s) (before ++ k r :: after, s')
  | event {cs : List (Co A R E α)} {s s' : S} (e : Ev) :
      (∀ c ∈ cs, Waiting W s c) → W.event s e s' → PoolStep W starts (cs, s) (cs, s')
  | start {cs : List (Co A R E α)} {s : S} (c : Co A R E α) :
      starts c → (∀ c ∈ cs, Waiting W s c) → PoolStep W starts (cs, s) (c :: cs, s)

abbrev PoolSteps (W : World A R E S Ev) (starts : Co A R E α → Prop) :
    List (Co A R E α) × S → List (Co A R E α) × S → Prop :=
  ReflTransGen (PoolStep W starts)

/-- A step by which one of the coroutines returns. -/
inductive PoolReturns (W : World A R E S Ev) : List (Co A R E α) × S → α → S → Prop
  | mk {before after : List (Co A R E α)} {a : A} {k : Except E (R a) → Co A R E α} {s s' : S}
    {v : α} (r : Except E (R a)) :
      (∀ c ∈ before ++ after, Waiting W s c) → W.answer s a r s' → k r = .ret v →
      PoolReturns W (before ++ .ask a k :: after, s) v s'

variable {W : World A R E S Ev} {starts : Co A R E α → Prop}

/-- A coroutine alone is a pool of one. -/
theorem pool_of_step {c c' : Co A R E α} {s s' : S} (h : Step W (c, s) (c', s')) :
    PoolStep W starts ([c], s) ([c'], s') := by
  cases h with
  | @answer _ _ a k r hr =>
    show PoolStep W starts ([] ++ .ask a k :: [], s) ([] ++ k r :: [], s')
    exact .answer r (fun c hc => by cases hc) hr
  | event e hp he =>
    refine .event e ?_ he
    intro c hc
    cases List.mem_singleton.mp hc
    exact hp

theorem pool_of_steps {c c' : Co A R E α} {s s' : S} (h : Steps W (c, s) (c', s')) :
    PoolSteps W starts ([c], s) ([c'], s') := by
  suffices ∀ x : Co A R E α × S, Steps W (c, s) x → PoolSteps W starts ([c], s) ([x.1], x.2) from this _ h
  intro x hx
  induction hx with
  | refl => exact .refl
  | tail _ hstep ih => exact ih.tail (pool_of_step hstep)

/-- A coroutine alone that returns does so by a last answer. -/
theorem returns_of_steps {c : Co A R E α} {v : α} {s s' : S} (h : Steps W (c, s) (.ret v, s')) (hc : ∀ w, c ≠ .ret w) :
    ∃ x, PoolSteps W starts ([c], s) x ∧ PoolReturns W x v s' := by
  rcases ReflTransGen.cases_tail h with heq | ⟨⟨d, t⟩, hsteps, hlast⟩
  · cases heq
    exact absurd rfl (hc v)
  · generalize hv : (Co.ret v : Co A R E α) = d' at hlast
    cases hlast with
    | @answer _ _ a k r hr =>
      refine ⟨_, pool_of_steps hsteps, ?_⟩
      show PoolReturns W ([] ++ .ask a k :: [], t) v s'
      exact .mk r (fun c hc => by cases hc) hr hv.symm
    | event e _ _ => cases hv

/-- Events, one after the other. -/
def Script.happen (P : Script A R E S Ev) : List Ev → S → Option S
  | [], s => some s
  | e :: es, s => (P.event s e).bind (P.happen es)

theorem happen_steps {P : Script A R E S Ev} (h : P.Fits W) : ∀ {es : List Ev} {s s' : S}, P.happen es s = some s' →
    PoolSteps W starts ([], s) ([], s')
  | [], s, s', he => by
    cases he
    exact .refl
  | e :: es, s, s', he => by
    obtain ⟨t, ht, hrest⟩ := Option.bind_eq_some_iff.mp he
    exact ReflTransGen.head (.event e (fun c hc => by cases hc) (h.event s e t ht)) (happen_steps h hrest)

/-- Events, and then a coroutine that is played until it returns. -/
theorem returns_of_play {P : Script A R E S Ev} (h : P.Fits W) {es : List Ev} {n : Nat} {c : Co A R E α} {s : S}
    {check : α → S → Bool} (hstarts : starts c) (hc : ∀ w, c ≠ .ret w)
    (hplay : ((P.happen es s).any fun t => Script.returned check (P.play n c t)) = true) :
    ∃ x v t, PoolSteps W starts ([], s) x ∧ PoolReturns W x v t ∧ check v t = true := by
  obtain ⟨t, ht, hreturned⟩ := (Option.any_eq_true _ _).mp hplay
  obtain ⟨v, u, hsteps, hcheck⟩ := Script.returned_steps h hreturned
  obtain ⟨x, hx, hreturns⟩ : ∃ x, PoolSteps W starts ([c], t) x ∧ PoolReturns W x v u := returns_of_steps hsteps hc
  have hstarted : PoolStep W starts ([], t) ([c], t) := .start c hstarts fun c hc => by cases hc
  exact ⟨x, v, u, ((happen_steps h ht).tail hstarted).trans hx, hreturns, hcheck⟩

/-! ## What every request and every event keeps -/

section Only

variable {p : A → Prop} {P : S → Prop}

theorem only_all (hp : ∀ a, p a) : ∀ c : Co A R E α, Only p c
  | .ret _ => trivial
  | .throw _ => trivial
  | .ask a k => ⟨hp a, fun r => only_all hp (k r)⟩

theorem pool_only_step (hevent : Stable W P) (hanswer : ∀ s a r s', p a → P s → W.answer s a r s' → P s')
    (hstart : ∀ c, starts c → Only p c) {x y : List (Co A R E α) × S} (h : PoolStep W starts x y)
    (hx : (∀ c ∈ x.1, Only p c) ∧ P x.2) : (∀ c ∈ y.1, Only p c) ∧ P y.2 := by
  obtain ⟨honly, hP⟩ := hx
  cases h with
  | @answer before after a k s s' r _ hr =>
    have hask : Only p (.ask a k) := honly _ (List.mem_append_right _ List.mem_cons_self)
    refine ⟨?_, hanswer _ _ r _ hask.1 hP hr⟩
    intro c hc
    rcases List.mem_append.mp hc with hc | hc
    · exact honly c (List.mem_append_left _ hc)
    · rcases List.mem_cons.mp hc with rfl | hc
      · exact hask.2 r
      · exact honly c (List.mem_append_right _ (List.mem_cons_of_mem _ hc))
  | event e _ he => exact ⟨honly, hevent _ e _ hP he⟩
  | start c hc _ =>
    refine ⟨?_, hP⟩
    intro c' hc'
    rcases List.mem_cons.mp hc' with rfl | hc'
    · exact hstart _ hc
    · exact honly c' hc'

theorem pool_only (hevent : Stable W P) (hanswer : ∀ s a r s', p a → P s → W.answer s a r s' → P s')
    (hstart : ∀ c, starts c → Only p c) {x y : List (Co A R E α) × S} (h : PoolSteps W starts x y)
    (hx : (∀ c ∈ x.1, Only p c) ∧ P x.2) : (∀ c ∈ y.1, Only p c) ∧ P y.2 := by
  induction h with
  | refl => exact hx
  | tail _ hstep ih => exact pool_only_step hevent hanswer hstart hstep ih

end Only

/-! ## What each coroutine relies on -/

/-- The world as one coroutine sees it that knows nothing of the others but `G`. -/
def World.relying (W : World A R E S Ev) (G : S → S → Prop) : World A R E S Unit where
  answer := W.answer
  event s _ s' := G s s'
  parked := W.parked

section Sound

variable {G : S → S → Prop} {I : S → A → Prop} {Q : Except E α → S → Prop}

/-- The precondition of a coroutine that has not ended. -/
def Sound (W : World A R E S Ev) (G : S → S → Prop) (I : S → A → Prop) (Q : Except E α → S → Prop) (s : S) :
    Co A R E α → Prop
  | .ask a k => wp (W.relying G) I Q (.ask a k) s
  | _ => True

theorem sound_of_wp {c : Co A R E α} {s : S} (h : wp (W.relying G) I Q c s) : Sound W G I Q s c := by
  cases c with
  | ask a k => exact h
  | _ => trivial

/-- A coroutine that waits stays sound whatever the others do. -/
theorem Sound.waiting {c : Co A R E α} {s s' : S} (h : Sound W G I Q s c) (hw : Waiting W s c) (hG : G s s') :
    Sound W G I Q s' c := by
  cases c with
  | ask a k =>
    intro t ht
    exact h t (ReflTransGen.head ⟨hw, (), hG⟩ ht)
  | _ => trivial

theorem Sound.answer {a : A} {k : Except E (R a) → Co A R E α} {s s' : S} (h : Sound W G I Q s (.ask a k))
    (r : Except E (R a))
    (hr : W.answer s a r s') : I s a ∧ wp (W.relying G) I Q (k r) s' := by
  obtain ⟨hI, hrest⟩ := h s .refl
  exact ⟨hI, hrest r s' hr⟩

variable {P : S → Prop}

theorem pool_sound_step (hevent : ∀ s e s', W.event s e s' → G s s')
    (hanswer : ∀ s a r s', I s a → W.answer s a r s' → G s s')
    (hP : ∀ s s', P s → G s s' → P s') (hstart : ∀ c s, starts c → P s → wp (W.relying G) I Q c s)
    {x y : List (Co A R E α) × S} (h : PoolStep W starts x y) (hx : (∀ c ∈ x.1, Sound W G I Q x.2 c) ∧ P x.2) :
    (∀ c ∈ y.1, Sound W G I Q y.2 c) ∧ P y.2 := by
  obtain ⟨hsound, hPx⟩ := hx
  cases h with
  | @answer before after a k s s' r hw hr =>
    obtain ⟨hI, hnext⟩ := (hsound _ (List.mem_append_right _ List.mem_cons_self)).answer r hr
    have hG : G s s' := hanswer _ _ r _ hI hr
    have hothers : ∀ c ∈ before ++ after, Sound W G I Q s c → Sound W G I Q s' c := fun c hc h => h.waiting (hw c hc) hG
    refine ⟨?_, hP _ _ hPx hG⟩
    intro c hc
    rcases List.mem_append.mp hc with hc | hc
    · exact hothers c (List.mem_append_left _ hc) (hsound c (List.mem_append_left _ hc))
    · rcases List.mem_cons.mp hc with rfl | hc
      · exact sound_of_wp hnext
      · exact hothers c (List.mem_append_right _ hc) (hsound c (List.mem_append_right _ (List.mem_cons_of_mem _ hc)))
  | event e hw he =>
    have hG := hevent _ e _ he
    exact ⟨fun c hc => (hsound c hc).waiting (hw c hc) hG, hP _ _ hPx hG⟩
  | start c hc _ =>
    refine ⟨?_, hPx⟩
    intro c' hc'
    rcases List.mem_cons.mp hc' with rfl | hc'
    · exact sound_of_wp (hstart _ _ hc hPx)
    · exact hsound c' hc'

/-- If every event and every answer a coroutine may get is what the others rely on, each
    coroutine stays sound, and what that keeps holds throughout. -/
theorem pool_sound (hevent : ∀ s e s', W.event s e s' → G s s')
    (hanswer : ∀ s a r s', I s a → W.answer s a r s' → G s s')
    (hP : ∀ s s', P s → G s s' → P s') (hstart : ∀ c s, starts c → P s → wp (W.relying G) I Q c s)
    {x y : List (Co A R E α) × S} (h : PoolSteps W starts x y) (hx : (∀ c ∈ x.1, Sound W G I Q x.2 c) ∧ P x.2) :
    (∀ c ∈ y.1, Sound W G I Q y.2 c) ∧ P y.2 := by
  induction h with
  | refl => exact hx
  | tail _ hstep ih => exact pool_sound_step hevent hanswer hP hstart hstep ih

/-- What a sound coroutine returns. -/
theorem sound_returns {x : List (Co A R E α) × S} {v : α} {s : S} (h : PoolReturns W x v s)
    (hx : ∀ c ∈ x.1, Sound W G I Q x.2 c) : Q (.ok v) s := by
  cases h with
  | mk r _ hr hv =>
    obtain ⟨-, hnext⟩ := (hx _ (List.mem_append_right _ List.mem_cons_self)).answer r hr
    rw [hv] at hnext
    exact hnext

end Sound

end Coroutine
