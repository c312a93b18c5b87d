/-
  Nse.Lib.PyLoop — a loop over a list whose body can raise.

  - `loop_cons`, `loop_append`: a loop that gets through, taken apart.
  - `loop_total`: a loop gets through when every turn does, and keeps what every turn keeps.
  - `loop_related`: a relation that composes holds across the loop if it does across a turn.
  - `loop_raises`: a loop raises only what a turn raises.
-/

namespace PyLoop

variable {α β ε : Type} {f : β → α → Except ε β}

theorem loop_cons {x : α} {xs : List α} {b d : β} :
    (x :: xs).foldlM f b = .ok d ↔ ∃ c, f b x = .ok c ∧ xs.foldlM f c = .ok d := by
  rw [List.foldlM_cons]
  cases f b x with
  | error e =>
    refine iff_of_false nofun ?_
    rintro ⟨c, hc, -⟩
    cases hc
  | ok c =>
    constructor
    · intro h
      exact ⟨c, rfl, h⟩
    · rintro ⟨c', hc, h⟩
      cases hc
      exact h

theorem loop_append : ∀ {xs ys : List α} {b d : β},
    (xs ++ ys).foldlM f b = .ok d ↔ ∃ c, xs.foldlM f b = .ok c ∧ ys.foldlM f c = .ok d
  | [], ys, b, d => by
    constructor
    · intro h
      exact ⟨b, rfl, h⟩
    · rintro ⟨c, hc, h⟩
      cases hc
      exact h
  | x :: xs, ys, b, d => by
    rw [List.cons_append, loop_cons]
    constructor
    · rintro ⟨c, hc, h⟩
      obtain ⟨c', hc', h'⟩ := loop_append.mp h
      exact ⟨c', loop_cons.mpr ⟨c, hc, hc'⟩, h'⟩
    · rintro ⟨c, hc, h⟩
      obtain ⟨c', hc', hrest⟩ := loop_cons.mp hc
      exact ⟨c', hc', loop_append.mpr ⟨c, hrest, h⟩⟩

/-- What holds of the accumulator and the turns so far, when every turn keeps it. -/
theorem loop_total {P : List α → β → Prop} : ∀ {xs done : List α} {b : β},
    (∀ x ∈ xs, ∀ done b, P done b → ∃ c, f b x = .ok c ∧ P (done ++ [x]) c) → P done b →
      ∃ d, xs.foldlM f b = .ok d ∧ P (done ++ xs) d
  | [], done, b, _, hb => ⟨b, rfl, by rwa [List.append_nil]⟩
  | x :: xs, done, b, hturn, hb => by
    obtain ⟨c, hc, hP⟩ := hturn x List.mem_cons_self done b hb
    obtain ⟨d, hd, hP⟩ := loop_total (fun y hy => hturn y (List.mem_cons_of_mem x hy)) hP
    refine ⟨d, loop_cons.mpr ⟨c, hc, hd⟩, ?_⟩
    rwa [List.append_assoc, List.singleton_append] at hP

theorem loop_related {R : β → β → Prop} (hrefl : ∀ b, R b b) (htrans : ∀ {a b c}, R a b → R b c → R a c)
    (hturn : ∀ {b x c}, f b x = .ok c → R b c) : ∀ {xs : List α} {b d : β}, xs.foldlM f b = .ok d → R b d
  | [], b, d, h => by
    cases h
    exact hrefl b
  | x :: xs, b, d, h => by
    obtain ⟨c, hc, hrest⟩ := loop_cons.mp h
    exact htrans (hturn hc) (loop_related hrefl htrans hturn hrest)

theorem loop_raises {P : ε → Prop} (hturn : ∀ {b x e}, f b x = .error e → P e) : ∀ {xs : List α} {b : β} {e : ε},
    xs.foldlM f b = .error e → P e
  | [], b, e, h => by cases h
  | x :: xs, b, e, h => by
    rw [List.foldlM_cons] at h
    cases hx : f b x with
    | error e' =>
      rw [hx] at h
      cases h
      exact hturn hx
    | ok c =>
      rw [hx] at h
      exact loop_raises hturn h

/-- Every turn of a loop that gets through does. -/
theorem turn_of_loop {x : α} : ∀ {xs : List α} {b d : β}, xs.foldlM f b = .ok d → x ∈ xs → ∃ b' c, f b' x = .ok c
  | y :: xs, b, d, h, hx => by
    obtain ⟨c, hc, hrest⟩ := loop_cons.mp h
    rcases List.mem_cons.mp hx with rfl | hx
    · exact ⟨b, c, hc⟩
    · exact turn_of_loop hrest hx

end PyLoop
