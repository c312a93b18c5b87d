/-
  Nse.Core.Heard — where the events and the trace ids come from.

  Each line the monitor writes is about one packet. Every traced event that was collected,
  or that waits for room on the queue, is what the parser makes of a consumed line; and the
  ids the harvester has seen are exactly the ids of these events, once each (`Heard`). That
  holds initially and is kept (`heard_init`, `heard_kept`). What holds of every line the
  monitor may write holds of every line written (`written_kept`).
-/

import Nse.Core.Footprints

namespace Nse

open Coroutine
open Relation (ReflTransGen)

variable [U : PyStr.Unicode] {env : Env}

/-- What the parser makes of one line, with the packet the line is about. -/
def heard (env : Env) (x : Packet × String) : Option (Packet × TraceEvent) :=
  if PyStr.strip x.2 = "" then none else (TraceParser.eventOf env.blind (PyStr.strip x.2)).map fun e => (x.1, e)

/-- The events of the lines consumed so far. -/
def consumed (env : Env) (s : St) : List (Packet × TraceEvent) := (s.out.take s.nread).filterMap (heard env)

theorem parseLine_traced {blind : Bool} {line : String} {e : TraceEvent}
    (h : TraceParser.parseLine blind line = .ok (some e)) : e.traced = true := by
  obtain ⟨m, -, rfl⟩ | ⟨m, handle, -, -, rfl⟩ | ⟨m, -, rfl⟩ := TraceParser.parseLine_cases h
  · rfl
  · rfl
  · rfl

/-- A parsed line was written, and consumed. -/
theorem mem_consumed {s : St} {p : Packet} {e : TraceEvent} (h : (p, e) ∈ consumed env s) :
    e.traced = true ∧ ∃ raw, (p, raw) ∈ s.out.take s.nread ∧
      TraceParser.parseLine env.blind (PyStr.strip raw) = .ok (some e) := by
  obtain ⟨⟨q, raw⟩, hx, hh⟩ := List.mem_filterMap.mp h
  unfold heard at hh
  split at hh
  · cases hh
  · obtain ⟨e', he, heq⟩ := Option.map_eq_some_iff.mp hh
    cases heq
    have hparsed := TraceParser.eventOf_eq_some.mp he
    exact ⟨parseLine_traced hparsed, raw, hx, hparsed⟩

structure Heard (env : Env) (s : St) : Prop where
  nread : s.nread ≤ s.out.length
  collected : ∀ e ∈ s.collected, e.traced = true → ∃ p, (p, e) ∈ consumed env s
  putting : ∀ e, s.loop = .putting e → ∃ p, (p, e) ∈ consumed env s
  seen : ∀ id, id ∈ s.h.seenTraceIds ↔ id ≠ "" ∧ ∃ x ∈ consumed env s, x.2.traceId = some id
  nodup : s.h.seenTraceIds.Nodup

/-- Only events of the kernel are refused. -/
def Req.untraced : Req → Prop
  | .collect e => e.traced = false
  | _ => True

omit U in
theorem effect_putting {s : St} {a : Req} {r : Except PyExc (Reply a)} {e : TraceEvent}
    (h : (effect env s a r).loop = .putting e) : s.loop = .putting e := by
  cases a with
  | cancelTask =>
    rw [show effect env s .cancelTask r = Loop.cancel env s from by cases r <;> rfl] at h
    unfold Loop.cancel at h
    split at h
    · exact h
    · exact h
    · cases h
    · cases h
    · dsimp only at h
      split at h <;> cases h
    · dsimp only at h
      split at h <;> cases h
  | launch t => cases r <;> cases h
  | run c =>
    cases r with
    | ok _ => exact h
    | error e =>
      simp only [effect] at h
      split at h <;> exact h
  | _ => cases r <;> exact h

section Next

variable {s : St} {p : Packet} {line : String}

theorem Next.lt (h : Next s p line) : s.nread < s.out.length := by
  obtain ⟨-, raw, hraw, -⟩ := h
  exact (List.getElem?_eq_some_iff.mp hraw).1

/-- Consuming one more line. -/
theorem Next.consumed (h : Next s p line) :
    (s.out.take (s.nread + 1)).filterMap (heard env) =
      consumed env s ++ (if line = "" then none else (TraceParser.eventOf env.blind line).map
        fun e => (p, e)).toList := by
  obtain ⟨-, raw, hraw, rfl⟩ := h
  have hone : [(p, raw)].filterMap (heard env) = (heard env (p, raw)).toList := by
    rw [List.filterMap_cons]
    cases heard env (p, raw) <;> rfl
  rw [List.take_add_one, List.filterMap_append, hraw]
  exact congrArg (Nse.consumed env s ++ ·) hone

end Next

theorem Heard.of_same {s t : St} (h : Heard env s) (hn : t.nread ≤ t.out.length) (hc : consumed env t = consumed env s)
    (hcol : ∀ e ∈ t.collected, e.traced = true → e ∈ s.collected ∨ s.loop = .putting e)
    (hp : ∀ e, t.loop = .putting e → s.loop = .putting e) (hs : t.h.seenTraceIds = s.h.seenTraceIds) : Heard env t := by
  refine ⟨hn, fun e he ht => ?_, fun e he => ?_, ?_, ?_⟩
  · rw [hc]
    rcases hcol e he ht with he | he
    · exact h.collected e he ht
    · exact h.putting e he
  · rw [hc]
    exact h.putting e (hp e he)
  · rw [hc, hs]
    exact h.seen
  · rw [hs]
    exact h.nodup

theorem Heard.move {s s' : St} (h : Heard env s) (hm : Move env s s') : Heard env s' := by
  have hkeep : ∀ e ∈ s.collected, e.traced = true → e ∈ s.collected ∨ s.loop = .putting e := fun e he _ => .inl he
  cases hm with
  | tick ms => exact h.of_same h.nread rfl hkeep (fun _ he => he) rfl
  | exit _ => exact h.of_same h.nread rfl hkeep (fun _ he => he) rfl
  | take _ _ => exact h.of_same h.nread rfl hkeep (fun _ he => he) rfl
  | begin _ => exact h.of_same h.nread rfl hkeep (fun _ he => by cases he) rfl
  | write p line _ _ _ =>
    have hn := h.nread
    refine h.of_same ?_ ?_ hkeep (fun _ he => he) rfl
    · simp only [List.length_append, List.length_singleton]
      omega
    · simp only [consumed, List.take_append_of_le_length hn]
  | blank p hnext =>
    refine h.of_same hnext.lt (hnext.consumed.trans ?_) hkeep (fun _ he => he) rfl
    simp
  | unparsed p line hnext hne hp =>
    refine h.of_same hnext.lt (hnext.consumed.trans ?_) hkeep (fun _ he => he) (Harvester.recordUnparsed_seen _ _)
    simp [hne, TraceParser.eventOf_of_ok hp]
  | deliver e hl _ =>
    refine h.of_same h.nread rfl (fun e' he' _ => ?_) (fun _ he => by cases he) rfl
    rcases List.mem_append.mp he' with he' | he'
    · exact .inl he'
    · cases List.mem_singleton.mp he'
      exact .inr hl
  | finish st err _ _ => exact h.of_same h.nread rfl hkeep (fun _ he => by cases he) (Harvester.endAs_seen _ _)
  | close _ _ => exact h.of_same h.nread rfl hkeep (fun _ he => by cases he) rfl
  | parsed p line e hnext hne hp =>
    have hc : consumed env { s with nread := s.nread + 1, h := s.h.recordId e, loop := .putting e } =
        consumed env s ++ [(p, e)] := hnext.consumed.trans (by simp [hne, TraceParser.eventOf_of_ok hp])
    have hsub : ∀ {x}, x ∈ consumed env s → x ∈ consumed env s ++ [(p, e)] := fun hx => List.mem_append_left _ hx
    refine ⟨hnext.lt, fun e' he' ht => ?_, fun e' he' => ?_, fun id => ?_, ?_⟩
    · obtain ⟨q, hq⟩ := h.collected e' he' ht
      exact ⟨q, hc ▸ hsub hq⟩
    · cases he'
      exact ⟨p, by simp [hc]⟩
    · have hor : (∃ x ∈ consumed env s ++ [(p, e)], x.2.traceId = some id) ↔
          (∃ x ∈ consumed env s, x.2.traceId = some id) ∨ e.traceId = some id := by
        simp [or_and_right, exists_or]
      rw [hc, hor, and_or_left, ← h.seen id]
      exact Harvester.mem_recordId_iff e s.h id
    · exact Harvester.nodup_recordId e h.nodup

theorem heard_kept : Kept env Req.untraced (Heard env) := by
  refine ⟨fun s s' hs hm => hs.move hm, fun s a r ha hs _ => ?_⟩
  refine hs.of_same (by simpa using hs.nread) (by simp [consumed]) (fun e he ht => ?_) (fun e he => effect_putting he)
    (by simp)
  rw [effect_collected] at he
  rcases List.mem_append.mp he with he | he
  · exact .inl he
  · cases a <;> simp only [Req.collects, List.not_mem_nil, List.mem_singleton] at he
    subst he
    rw [show e.traced = false from ha] at ht
    cases ht

/-- What holds of every line the monitor may write holds of every line written. -/
theorem written_kept {P : Packet × String → Prop} (hP : ∀ s p line, env.writes s p line = true → P (p, line)) :
    Kept env (fun _ => True) fun s => ∀ x ∈ s.out, P x := by
  refine ⟨fun s s' hs hm => ?_, fun s a r _ hs _ => by simpa using hs⟩
  cases hm with
  | write p line _ _ hw =>
    intro x hx
    rcases List.mem_append.mp hx with hx | hx
    · exact hs x hx
    · exact List.mem_singleton.mp hx ▸ hP s p line hw
  | _ => exact hs

theorem heard_init : Heard env {} where
  nread := Nat.le_refl _
  collected e he := by cases he
  putting e he := by cases he
  seen id := by simp [consumed]
  nodup := List.nodup_nil

end Nse
