/-
  Nse.Lib.Handler — a coroutine run to its end by a handler that answers every request.

  `handle_bind`, `handle_tryCatch`, `handle_tryFinally`, `handle_forEach` take a run apart;
  `handle_keeps` is the invariant rule, for the requests a coroutine can make.
-/

import Nse.Lib.Coroutine

namespace Coroutine

variable {A : Type} {R : A → Type} {E S α β : Type}

/-- `h` answers each request in a state that it may change. -/
def handle (h : S → (a : A) → Except E (R a) × S) : Co A R E α → S → Except E α × S
  | .ret v, s => (.ok v, s)
  | .throw e, s => (.error e, s)
  | .ask a k, s => handle h (k (h s a).1) (h s a).2

def onValue (f : α → S → Except E β × S) : Except E α × S → Except E β × S
  | (.ok v, s) => f v s
  | (.error e, s) => (.error e, s)

def onError (f : E → S → Except E α × S) : Except E α × S → Except E α × S
  | (.ok v, s) => (.ok v, s)
  | (.error e, s) => f e s

/-- The outcome `r` kept over what a `finally` block came to. -/
def keeping (r : Except E α) : Except E Unit × S → Except E α × S
  | (.ok _, s) => (r, s)
  | (.error e, s) => (.error e, s)

variable {h : S → (a : A) → Except E (R a) × S}

@[simp] theorem handle_ret (v : α) (s : S) : handle h (.ret v) s = (.ok v, s) := rfl

@[simp] theorem handle_throw (e : E) (s : S) : handle h (.throw e : Co A R E α) s = (.error e, s) := rfl

@[simp] theorem onValue_ok (f : α → S → Except E β × S) (v : α) (s : S) : onValue f (.ok v, s) = f v s := rfl

@[simp] theorem onValue_error (f : α → S → Except E β × S) (e : E) (s : S) :
    onValue f (.error e, s) = (.error e, s) := rfl

@[simp] theorem onError_ok (f : E → S → Except E α × S) (v : α) (s : S) : onError f (.ok v, s) = (.ok v, s) := rfl

@[simp] theorem onError_error (f : E → S → Except E α × S) (e : E) (s : S) : onError f (.error e, s) = f e s := rfl

@[simp] theorem keeping_ok (r : Except E α) (s : S) : keeping r (.ok (), s) = (r, s) := rfl

@[simp] theorem keeping_error (r : Except E α) (e : E) (s : S) : keeping r (.error e, s) = (.error e, s) := rfl

theorem handle_bind (f : α → Co A R E β) : ∀ (x : Co A R E α) (s : S),
    handle h (x.bind f) s = onValue (fun v t => handle h (f v) t) (handle h x s)
  | .ret _, _ => rfl
  | .throw _, _ => rfl
  | .ask _ k, _ => handle_bind f (k _) _

theorem handle_tryCatch (c : E → Co A R E α) : ∀ (x : Co A R E α) (s : S),
    handle h (x.tryCatch c) s = onError (fun e t => handle h (c e) t) (handle h x s)
  | .ret _, _ => rfl
  | .throw _, _ => rfl
  | .ask _ k, _ => handle_tryCatch c (k _) _

theorem handle_tryFinally (fin : Co A R E Unit) : ∀ (x : Co A R E α) (s : S),
    handle h (x.tryFinally fin) s = keeping (handle h x s).1 (handle h fin (handle h x s).2)
  | .ret v, s => by
    show handle h (fin.bind fun _ => .ret v) s = _
    rw [handle_bind]
    simp only [handle_ret]
    rcases handle h fin s with ⟨r | r, t⟩ <;> rfl
  | .throw e, s => by
    show handle h (fin.bind fun _ => .throw e) s = _
    rw [handle_bind]
    simp only [handle_throw]
    rcases handle h fin s with ⟨r | r, t⟩ <;> rfl
  | .ask _ k, _ => handle_tryFinally fin (k _) _

theorem handle_request (a : A) (s : S) : handle h (Co.request a) s = h s a := by
  show handle h _ (h s a).2 = h s a
  rcases h s a with ⟨r | r, t⟩ <;> rfl

theorem handle_forEach (f : β → Co A R E Unit) (x : β) (xs : List β) (s : S) :
    handle h (Co.forEach (x :: xs) f) s = onValue (fun _ t => handle h (Co.forEach xs f) t) (handle h (f x) s) :=
  handle_bind _ _ _

/-- What every answer to the requests of a coroutine keeps, the coroutine keeps. -/
theorem handle_keeps {p : A → Prop} {P : S → Prop} (hP : ∀ s a, p a → P s → P (h s a).2) :
    ∀ {x : Co A R E α} {s : S}, Only p x → P s → P (handle h x s).2
  | .ret _, _, _, hs => hs
  | .throw _, _, _, hs => hs
  | .ask a k, s, hx, hs => handle_keeps (x := k (h s a).1) hP (hx.2 _) (hP s a hx.1 hs)

end Coroutine
