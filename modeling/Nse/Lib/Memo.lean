/-
  Nse.Lib.Memo — a function of the world whose answers are remembered.

  A call is answered from the cache when its key is there. Otherwise the function is asked,
  and its answer remembered, unless it is an exception. Meanwhile the world moves, and the
  cache does not know. It can be emptied.

  Proved: `run_plain`, a run gets from the cache what the function would have answered each
  time, as long as no call comes after a move that takes a good answer away with the cache
  not emptied since.
-/

import Mathlib.Data.List.Basic

namespace Memo

variable {W K V E M A : Type}

structure Cached (W K V : Type) where
  world : W
  cache : List (K × V) := []

inductive Ev (K V E M A : Type) where
  /-- Ask for `k`, and make this of the answer. -/
  | call (k : K) (use : Except E V → A)
  | clear
  | move (m : M)

section Run

variable [DecidableEq K] (f : W → K → Except E V) (act : M → W → W)

def ask (s : Cached W K V) (k : K) : Except E V × Cached W K V :=
  match s.cache.lookup k with
  | some v => (.ok v, s)
  | none =>
    match f s.world k with
    | .ok v => (.ok v, { s with cache := (k, v) :: s.cache })
    | .error e => (.error e, s)

/-- What the calls get. -/
def run : Cached W K V → List (Ev K V E M A) → List A
  | _, [] => []
  | s, .call k use :: es => use (ask f s k).1 :: run (ask f s k).2 es
  | s, .clear :: es => run { s with cache := [] } es
  | s, .move m :: es => run { s with world := act m s.world } es

/-- What they would get of the function itself. -/
def plain : W → List (Ev K V E M A) → List A
  | _, [] => []
  | w, .call k use :: es => use (f w k) :: plain w es
  | w, .clear :: es => plain w es
  | w, .move m :: es => plain (act m w) es

end Run

/-! ## What the cache holds -/

/-- The answers to these keys that are no exceptions are the same afterwards. -/
def Keeps (keys : K → Prop) (f : W → K → Except E V) (w w' : W) : Prop :=
  ∀ k, keys k → ∀ v, f w k = .ok v → f w' k = .ok v

/-- A run that asks for these keys; no call comes while the cache may be wrong. -/
def Fresh (keys : K → Prop) (f : W → K → Except E V) (act : M → W → W) : Prop → W → List (Ev K V E M A) → Prop
  | _, _, [] => True
  | fresh, w, .call k _ :: es => fresh ∧ keys k ∧ Fresh keys f act fresh w es
  | _, w, .clear :: es => Fresh keys f act True w es
  | fresh, w, .move m :: es => Fresh keys f act (fresh ∧ Keeps keys f w (act m w)) (act m w) es

section Valid

variable [DecidableEq K] {keys : K → Prop} {f : W → K → Except E V} {act : M → W → W} {s : Cached W K V} {k : K}

/-- Everything in the cache is what the function answers now. -/
def Valid (keys : K → Prop) (f : W → K → Except E V) (s : Cached W K V) : Prop :=
  ∀ k v, s.cache.lookup k = some v → keys k ∧ f s.world k = .ok v

theorem valid_empty (w : W) : Valid keys f { world := w } := fun _ _ h => by cases h

theorem Valid.answer (h : Valid keys f s) : (ask f s k).1 = f s.world k := by
  unfold ask
  cases hk : s.cache.lookup k with
  | some v => exact (h k v hk).2.symm
  | none => cases f s.world k <;> rfl

theorem ask_world : (ask f s k).2.world = s.world := by
  unfold ask
  cases s.cache.lookup k with
  | some v => rfl
  | none => cases f s.world k <;> rfl

theorem Valid.ask (h : Valid keys f s) (hk : keys k) : Valid keys f (Memo.ask f s k).2 := by
  unfold Memo.ask
  cases hl : s.cache.lookup k with
  | some v => exact h
  | none =>
    cases hf : f s.world k with
    | error e => exact h
    | ok v =>
      intro k' v' hl'
      simp only [List.lookup_cons] at hl'
      by_cases hkk : k' = k
      · simp only [hkk, beq_self_eq_true] at hl' ⊢
        exact ⟨hk, hf.trans (congrArg _ (Option.some.inj hl'))⟩
      · simp only [beq_eq_false_iff_ne.mpr hkk] at hl'
        exact h k' v' hl'

theorem Valid.move (h : Valid keys f s) {w : W} (hw : Keeps keys f s.world w) : Valid keys f { s with world := w } := by
  intro k v hk
  obtain ⟨hkey, hv⟩ := h k v hk
  exact ⟨hkey, hw k hkey v hv⟩

/-- A run on a cache gets what the function answers. -/
theorem run_plain {fresh : Prop} {es : List (Ev K V E M A)} (hs : fresh → Valid keys f s)
    (h : Fresh keys f act fresh s.world es) :
    run f act s es = plain f act s.world es := by
  induction es generalizing s fresh with
  | nil => rfl
  | cons e es ih =>
    cases e with
    | call k use =>
      obtain ⟨hfresh, hk, hrest⟩ := h
      have hvalid := hs hfresh
      have hworld : (ask f s k).2.world = s.world := ask_world
      unfold run plain
      rw [hvalid.answer, ih (fun _ => hvalid.ask hk) (by rw [hworld]; exact hrest), hworld]
    | clear => exact ih (s := { s with cache := [] }) (fun _ => valid_empty s.world) h
    | move m => exact ih (s := { s with world := act m s.world }) (fun hfresh => (hs hfresh.1).move hfresh.2) h

end Valid

end Memo
