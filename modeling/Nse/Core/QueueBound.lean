/-
  Nse.Core.QueueBound — a bounded queue that nobody reads.

  Everything a run puts stays on the queue: one event for each parsed line, the read loop's
  `None`, one event for each conntrack entry, and at most three items more (`Within`: a
  missed liveness canary, then either two health errors or an exception and its `None`).
  So nobody waits for room as long as parsed lines and conntrack entries leave four places
  free (`no_wait_within_bound`). Past that the read loop waits for ever
  (`a_long_run_wedges_the_read_loop`), and with it `aclose`.
-/

import Nse.Core.Heard
import Nse.Core.Rehearsal

namespace Nse

open Coroutine
open Relation (ReflTransGen)

/-! ## What is on the queue -/

def conntrackEntries : List Mark → Nat
  | [] => 0
  | .conntrack n :: ms => n + conntrackEntries ms
  | _ :: ms => conntrackEntries ms

theorem conntrackEntries_append (ms ms' : List Mark) :
    conntrackEntries (ms ++ ms') = conntrackEntries ms + conntrackEntries ms' := by
  induction ms with
  | nil => simp [conntrackEntries]
  | cons m ms ih => cases m <;> simp [conntrackEntries, ih, Nat.add_assoc]

namespace St

def loopEvents (s : St) : Nat := s.puts.countP fun x => x.1 == .readLoop && x.2.isSome
def loopEnds (s : St) : Nat := s.puts.countP fun x => x.1 == .readLoop && x.2.isNone
def pipelinePuts (s : St) : Nat := s.puts.countP fun x => x.1 == .pipeline

/-- Conntrack entries that were read. -/
def entries (s : St) : Nat := conntrackEntries s.marks

theorem puts_length (s : St) : s.puts.length = s.loopEvents + s.loopEnds + s.pipelinePuts := by
  unfold loopEvents loopEnds pipelinePuts
  induction s.puts with
  | nil => rfl
  | cons x xs ih =>
    obtain ⟨p, item⟩ := x
    simp only [List.length_cons, List.countP_cons, ih]
    cases p <;> cases item <;> simp <;> omega

end St

/-- One when the loop holds an event it has not put yet. -/
def LoopPc.held : LoopPc → Nat
  | .putting _ => 1
  | _ => 0

/-- One when the loop has ended. -/
def LoopPc.ended : LoopPc → Nat
  | .done => 1
  | _ => 0

variable [U : PyStr.Unicode] {env : Env}

/-- Lines written so far that the parser understands. -/
def parsedLines (env : Env) (s : St) : Nat := (s.out.filterMap (heard env)).length

/-- The queue holds what was put, and the loop puts one event for each parsed line. -/
structure Counts (env : Env) (s : St) : Prop where
  taken : s.taken = 0
  events : s.loopEvents + s.loop.held ≤ (consumed env s).length
  ends : s.loopEnds ≤ s.loop.ended

/-- The pipeline may still put `owed` items without putting more than three beyond the
    conntrack entries. -/
def Within (env : Env) (owed : Nat) (s : St) : Prop := Counts env s ∧ s.pipelinePuts + owed ≤ s.entries + 3

theorem consumed_le (s : St) : (consumed env s).length ≤ parsedLines env s :=
  ((List.take_sublist s.nread s.out).filterMap (heard env)).length_le

/-- Requests that put nothing and start no loop. -/
def Req.putless : Req → Prop
  | .put _ | .launch _ => False
  | _ => True

section Counts

variable {s s' : St}

theorem Counts.move (hr : env.reader = false) (h : Counts env s) (hm : Move env s s') : Counts env s' := by
  obtain ⟨ht, he, hd⟩ := h
  cases hm with
  | take hread _ => rw [hr] at hread; cases hread
  | tick ms => exact ⟨ht, he, hd⟩
  | exit _ => exact ⟨ht, he, hd⟩
  | write p line _ _ _ =>
    refine ⟨ht, Nat.le_trans he ?_, hd⟩
    simp only [consumed, List.take_append, List.filterMap_append, List.length_append]
    omega
  | begin hl =>
    rw [hl] at he hd
    exact ⟨ht, he, hd⟩
  | blank p hnext =>
    refine ⟨ht, Nat.le_trans he ?_, hd⟩
    exact (congrArg List.length hnext.consumed).symm ▸ by simp
  | unparsed p line hnext hne hp =>
    refine ⟨ht, Nat.le_trans he ?_, hd⟩
    exact (congrArg List.length hnext.consumed).symm ▸ by simp
  | parsed p line e hnext hne hp =>
    have hc : ((s.out.take (s.nread + 1)).filterMap (heard env)).length = (consumed env s).length + 1 := by
      rw [hnext.consumed]
      simp [hne, TraceParser.eventOf_of_ok hp]
    rw [hnext.1] at he hd
    refine ⟨ht, ?_, hd⟩
    show s.loopEvents + 1 ≤ ((s.out.take (s.nread + 1)).filterMap (heard env)).length
    rw [hc]
    exact Nat.succ_le_succ he
  | deliver e hl _ =>
    rw [hl] at he hd
    refine ⟨ht, Nat.le_trans (Nat.le_of_eq ?_) he, ?_⟩
    · simp [St.loopEvents, List.countP_append, LoopPc.held]
    · simpa [St.loopEnds, List.countP_append, LoopPc.ended] using hd
  | finish st err hl _ =>
    rw [hl] at he hd
    exact ⟨ht, he, hd⟩
  | close hl _ =>
    rw [hl] at he hd
    refine ⟨ht, Nat.le_trans (Nat.le_of_eq ?_) he, ?_⟩
    · simp [Loop.close, St.loopEvents, List.countP_append, LoopPc.held]
    · have : s.loopEnds = 0 := Nat.le_zero.mp hd
      simp only [St.loopEnds] at this
      simp [Loop.close, St.loopEnds, List.countP_append, LoopPc.ended, this]

theorem Counts.cancel (h : Counts env s) (hr : env.reader = false) : Counts env (Loop.cancel env s) := by
  rcases (cancel_cases s : _ ∨ _ ∨ _ ∧ Moves env _ (Loop.cancel env s)) with ⟨-, hc⟩ | ⟨hl, hc⟩ | ⟨hl, hc⟩
  · rw [hc]; exact h
  · obtain ⟨ht, he, hd⟩ := h
    rw [hc]
    refine ⟨ht, Nat.le_trans (Nat.add_le_add_left (Nat.zero_le _) _) he, Nat.le_trans hd ?_⟩
    rcases hl with hl | hl <;> rw [hl] <;> exact Nat.zero_le _
  · obtain ⟨ht, he, hd⟩ := h
    have hclosing : Counts env { s with h := { s.h with state := .stopped }, loop := .closing } := by
      refine ⟨ht, Nat.le_trans (Nat.add_le_add_left (Nat.zero_le _) _) he, Nat.le_trans hd ?_⟩
      rcases hl with hl | ⟨e, hl⟩ <;> rw [hl] <;> exact Nat.zero_le _
    exact moves_keep (fun _ _ h hm => h.move hr hm) hc hclosing

theorem counts_kept (hr : env.reader = false) : Kept env Req.putless (Counts env) := by
  refine ⟨fun _ _ h hm => h.move hr hm, fun s a r ha h _ => ?_⟩
  cases a with
  | put item => exact False.elim ha
  | launch t => exact False.elim ha
  | cancelTask => exact effect_cancelTask s r ▸ h.cancel hr
  | run c =>
    cases r with
    | ok _ => exact ⟨h.taken, h.events, h.ends⟩
    | error e =>
      simp only [effect]
      split <;> exact ⟨h.taken, h.events, h.ends⟩
  | _ => cases r <;> exact ⟨h.taken, h.events, h.ends⟩

end Counts

section Move

variable {s s' : St}

theorem Move.pipelinePuts (h : Move env s s') : s'.pipelinePuts = s.pipelinePuts := by
  cases h <;> simp [St.pipelinePuts, Loop.close, List.countP_append]

theorem Move.entries (h : Move env s s') : s'.entries = s.entries := by
  rw [St.entries, St.entries, h.marks]

end Move

omit U in
theorem cancel_pipelinePuts (s : St) : (Loop.cancel env s).pipelinePuts = s.pipelinePuts := by
  unfold Loop.cancel Loop.close
  split <;> (try dsimp only) <;> (try split) <;> simp [St.pipelinePuts, List.countP_append]

omit U in
theorem effect_entries_le (s : St) (a : Req) (r : Except PyExc (Reply a)) : s.entries ≤ (effect env s a r).entries := by
  rw [St.entries, St.entries, effect_marks, conntrackEntries_append]
  omega

omit U in
theorem effect_pipelinePuts {a : Req} (ha : a.putless) (s : St) (r : Except PyExc (Reply a)) :
    (effect env s a r).pipelinePuts = s.pipelinePuts := by
  cases a with
  | put item => exact False.elim ha
  | cancelTask => exact effect_cancelTask s r ▸ cancel_pipelinePuts s
  | run c =>
    cases r with
    | ok _ => rfl
    | error e =>
      simp only [effect]
      split <;> rfl
  | _ => cases r <;> rfl

section Within

variable {owed : Nat} {s : St}

theorem within_kept (hr : env.reader = false) : Kept env Req.putless (Within env owed) := by
  refine (counts_kept hr).and ⟨fun s s' h hm => ?_, fun s a r ha h _ => ?_⟩
  · rw [hm.pipelinePuts, hm.entries]
    exact h
  · rw [effect_pipelinePuts ha]
    exact Nat.le_trans h (Nat.add_le_add_right (effect_entries_le s a r) 3)

theorem Within.mono {owed' : Nat} (h : Within env owed s) (hle : owed' ≤ owed) : Within env owed' s :=
  ⟨h.1, Nat.le_trans (Nat.add_le_add_left hle _) h.2⟩

/-- Before the harvester starts, nothing is on the queue. -/
def Fresh (s : St) : Prop := s.loop = .idle ∧ s.puts = [] ∧ s.taken = 0

theorem fresh_kept : Kept env (fun a => a.spawning ∨ a = .reset) Fresh := by
  refine ⟨fun s s' h hm => ?_, fun s a r ha h hr => ?_⟩
  · obtain ⟨hl, hp, ht⟩ := h
    obtain ⟨hl', hp', -⟩ := hm.quiet (.inl hl)
    refine ⟨hl'.trans hl, hp'.trans hp, ?_⟩
    cases hm with
    | take _ hlt => simp [hp] at hlt
    | _ => exact ht
  · rcases ha with ha | rfl
    · exact spawning_effect ha s r ▸ h
    · cases r <;> exact h

theorem Fresh.within (h : Fresh s) : Within env 3 s := by
  obtain ⟨hl, hp, ht⟩ := h
  refine ⟨⟨ht, ?_, ?_⟩, ?_⟩ <;> simp [St.loopEvents, St.loopEnds, St.pipelinePuts, hl, hp, LoopPc.held]

end Within

/-! ## The steps of a run -/

section Steps

/-- Whoever is waited for, the budget holds; and a put is still owed where one is pending. -/
def PendingOk (env : Env) (s : St) (a : Req) : Prop := Within env 0 s ∧ ∀ item, a = .put item → Within env 1 s

abbrev Bounded {α : Type} (env : Env) (V : α → St → Prop) (X : PyExc → St → Prop) (c : Prog α) (s : St) : Prop :=
  wp (world env) (PendingOk env) (Post V X) c s

/-- What an exception leaves for its handler. -/
def Raised (env : Env) (e : PyExc) (s : St) : Prop := Within env (if e.isException then 2 else 0) s

variable {owed : Nat} {s : St} {α : Type}

theorem Within.raised (h : Within env owed s) (hle : 2 ≤ owed) (e : PyExc) : Raised env e s := by
  unfold Raised
  split
  · exact h.mono hle
  · exact h.mono (Nat.zero_le _)

variable (hr : env.reader = false)

include hr

theorem bounded_only {c : Prog α} (hc : Only Req.putless c) (hs : Within env owed s) :
    Bounded env (fun _ => Within env owed) (fun _ => Within env owed) c s := by
  have hpending : ∀ (u : St) (a : Req), a.putless → Within env owed u → PendingOk env u a := fun u a ha hu =>
    ⟨hu.mono (Nat.zero_le _), fun item he => by subst he; exact ha.elim⟩
  refine wp_mono (fun r t ht => ?_) c s ((within_kept hr).wp_only hpending hc hs)
  cases r <;> exact ht

theorem bounded_quiet (h2 : 2 ≤ owed) {c : Prog α} (hc : Only Req.putless c) (hs : Within env owed s) :
    Bounded env (fun _ => Within env owed) (Raised env) c s :=
  post_mono (bounded_only hr hc hs) (fun _ _ h => h) fun e _ h => h.raised h2 e

omit hr in
theorem bounded_fresh {c : Prog α} (hc : Only Req.spawning c) (hs : Fresh s) :
    Bounded env (fun _ => Fresh) (Raised env) c s := by
  have hpending : ∀ (u : St) (a : Req), a.spawning ∨ a = .reset → Fresh u → PendingOk env u a := fun u a ha hu =>
    ⟨hu.within.mono (by omega), fun item he => hu.within.mono (by omega)⟩
  refine wp_mono (fun r t ht => ?_) c s (fresh_kept.wp_only hpending (only_mono (fun _ => .inl) hc) hs)
  cases r with
  | ok v => exact ht
  | error e => exact ht.within.raised (by omega) e

theorem bounded_put {item : Option TraceEvent} (hs : Within env (owed + 1) s) :
    Bounded env (fun _ => Within env owed) (Raised env) (perform (.put item)) s := by
  refine wp_request (within_kept hr).stable hs
    (fun t ht => ⟨ht.mono (Nat.zero_le _), fun _ _ => ht.mono (by omega)⟩) fun t r t' ht hans => ?_
  obtain ⟨hal, rfl⟩ := hans
  cases r with
  | ok v =>
    obtain ⟨⟨htaken, hevents, hends⟩, hle⟩ := ht
    refine ⟨⟨htaken, Nat.le_trans (Nat.le_of_eq ?_) hevents, ?_⟩, ?_⟩
    · simp [effect, St.loopEvents, List.countP_append]
    · simpa [effect, St.loopEnds, List.countP_append] using hends
    · simp only [effect, St.pipelinePuts, St.entries, List.countP_append] at hle ⊢
      simp only [List.countP_singleton, beq_self_eq_true, if_true]
      omega
  | error e =>
    -- only a cancelled task stops waiting for room
    have hcls : e.isException = false := by
      simp only [allows] at hal
      split at hal
      · simpa [whenReady, PyExc.isException] using hal
      · cases hal
    simp only [Post, Raised, hcls]
    exact ht.mono (Nat.zero_le _)

/-- A request that cannot fail. -/
theorem bounded_sure {a : Req} (ha : a.putless) (hsure : ∀ t e, allows env t a (.error e) = false)
    (hs : Within env owed s) : Bounded env (fun _ => Within env owed) (Raised env) (perform a) s := by
  refine wp_request (within_kept hr).stable hs
    (fun t ht => ⟨ht.mono (Nat.zero_le _), fun item he => by subst he; exact ha.elim⟩) fun t r t' ht hans => ?_
  obtain ⟨hal, rfl⟩ := hans
  cases r with
  | ok v => exact (within_kept hr).answer t a (.ok v) ha ht hal
  | error e => rw [hsure] at hal; cases hal

theorem bounded_emitEvent {e : TraceEvent} (hs : Within env (owed + 1) s) :
    Bounded env (fun _ => Within env owed) (Raised env) (Pipeline.emitEvent (some e)) s :=
  wp_seq (bounded_sure hr (by trivial) (fun _ _ => rfl) hs) (fun _ _ h => bounded_put hr h) fun _ _ h => h

theorem bounded_emitOracleError {testId message : String} (hs : Within env (owed + 1) s) :
    Bounded env (fun _ => Within env owed) (Raised env) (Pipeline.emitOracleError testId message) s :=
  wp_seq (bounded_sure hr (by trivial) (fun _ _ => rfl) hs) (fun _ _ h => bounded_emitEvent hr h) fun _ _ h => h

omit hr U in
theorem Req.aside.putless {a : Req} (h : a.aside) : a.putless := by
  cases a <;> first | exact False.elim h | trivial

omit hr U in
theorem Req.sending.putless {which : Packet → Prop} {a : Req} (h : a.sending which) : a.putless := by
  cases a <;> first | exact False.elim h | trivial

omit hr U in
theorem Req.closing.putless {a : Req} (h : a.closing) : a.putless := by
  cases a <;> first | exact False.elim h | trivial

theorem bounded_result (hs : Within env owed s) :
    Bounded env (fun _ => Within env owed) (Raised env) Pipeline.result s := by
  have hread : ∀ {u : St}, Within env owed u → Bounded env (fun _ => Within env owed) (Raised env)
      (perform .canaryIds) u :=
    fun hu => bounded_sure hr (by trivial) (fun _ _ => rfl) hu
  refine wp_seq (bounded_sure hr (by trivial) (fun _ _ => rfl) hs) (fun events u hu => ?_) fun _ _ h => h
  exact wp_seq (hread hu) (fun _ _ h => h) fun _ _ h => h

variable {cfg : Pipeline.Config} {req : TestRequest} {c : NetnsController} {testId : String}

theorem bounded_startMonitor (hs : Fresh s) :
    Bounded env (fun _ => Within env 3) (Raised env) (Pipeline.startMonitor cfg req testId c) s := by
  have hreset : ∀ {u : St}, Fresh u → Bounded env (fun _ => Fresh) (Raised env) (perform .reset) u := by
    intro u hu
    refine wp_request fresh_kept.stable hu (fun t ht => ⟨ht.within.mono (by omega), fun _ he => by cases he⟩)
      fun t r t' ht hans => ?_
    obtain ⟨hal, rfl⟩ := hans
    cases r with
    | ok v => exact ht
    | error e => cases hal
  have hlaunch : ∀ {u : St} {ms : Nat}, Fresh u →
      Bounded env (fun _ => Within env 3) (Raised env) (perform (.launch ms)) u := by
    intro u ms hu
    refine wp_request fresh_kept.stable hu (fun t ht => ⟨ht.within.mono (by omega), fun _ he => by cases he⟩)
      fun t r t' ht hans => ?_
    obtain ⟨hal, rfl⟩ := hans
    cases r with
    | ok v =>
      obtain ⟨⟨htaken, hevents, hends⟩, hle⟩ : Within env 3 t := ht.within
      rw [ht.1] at hevents hends
      exact ⟨⟨htaken, hevents, hends⟩, hle⟩
    | error e => cases hal
  refine wp_seq (bounded_fresh (only_mono (fun _ => Req.aside.spawning) (only_load _ _ _)) hs)
    (fun _ u hu => ?_) fun _ _ h => h
  refine wp_seq (V := fun _ => Within env 3) (X := Raised env) ?_ (fun _ v hv => ?_) fun _ _ h => h
  · refine wp_seq (hreset hu) (fun _ v hv => ?_) fun _ _ h => h
    exact wp_seq (bounded_fresh (only_request (by trivial)) hv) (fun _ _ h => hlaunch h) fun _ _ h => h
  · exact wp_seq (bounded_quiet hr (by omega) (only_request (by trivial)) hv) (fun _ _ h => h) fun _ _ h => h

theorem bounded_probeOracle {t : Pipeline.Target} {label : Label} {spec : PacketSpec} (h2 : 2 ≤ owed)
    (hs : Within env owed s) :
    Bounded env (fun _ => Within env owed) (Raised env) (Pipeline.probeOracle cfg t label spec) s := by
  exact bounded_quiet hr h2 (only_probeOracle cfg t spec (fun _ => Req.sending.putless) fun _ => trivial) hs

theorem bounded_checkLiveness (hs : Within env 3 s) :
    Bounded env (fun _ => Within env 2) (Raised env) (Pipeline.checkLiveness cfg req testId c) s := by
  refine wp_seq (bounded_quiet hr (by omega) (only_request (by trivial)) hs) (fun before u hu => ?_) fun _ _ h => h
  refine wp_seq (bounded_probeOracle hr (by omega) hu) (fun alive v hv => ?_) fun _ _ h => h
  have hreport : Bounded env (fun _ => Within env 2) (Raised env)
      (ifSo (alive = false) (Pipeline.emitOracleError testId Pipeline.livenessLost)) v := by
    unfold ifSo
    split
    · exact bounded_emitOracleError hr hv
    · exact hv.mono (by omega)
  refine wp_seq hreport (fun _ w hw => ?_) fun _ _ h => h
  refine bounded_quiet hr (by omega) ?_ hw
  refine only_bind (fun now => ?_) (only_request (by trivial))
  exact only_request (by trivial)

theorem bounded_reportConntrack (hs : Within env 2 s) :
    Bounded env (fun _ => Within env 2) (Raised env) (Pipeline.reportConntrack req testId c) s := by
  refine wp_seq (bounded_quiet hr (by omega) (only_mono (fun _ => Req.aside.putless) (only_readConntrackTable _ _)) hs)
    (fun entries u hu => ?_) fun _ _ h => h
  -- the entries just read are what the loop over them may put
  have hmark : Bounded env (fun _ => Within env (entries.length + 2)) (Raised env)
      (perform (.mark (.conntrack entries.length))) u := by
    refine wp_request (within_kept hr).stable hu (fun t ht => ⟨ht.mono (by omega), fun _ he => by cases he⟩)
      fun t r t' ht hans => ?_
    obtain ⟨hal, rfl⟩ := hans
    cases r with
    | ok v =>
      obtain ⟨hcounts, hle⟩ := ht
      refine ⟨(counts_kept hr).answer t (.mark _) (.ok v) trivial hcounts hal, ?_⟩
      rw [effect_pipelinePuts (by trivial)]
      simp only [St.entries, effect_marks, Req.marks, conntrackEntries_append, conntrackEntries] at hle ⊢
      omega
    | error e => cases hal
  refine wp_seq hmark (fun _ v hv => ?_) fun _ _ h => h
  refine wp_forEach (P := fun rest w => Within env (rest.length + 2) w) (X := Raised env)
    (fun ct rest w hw => ?_) (fun w hw => ?_) (fun _ _ h => h) hv
  · refine bounded_emitEvent hr ?_
    have : rest.length + 2 + 1 = (ct :: rest).length + 2 := by simp only [List.length_cons]
    exact this ▸ hw
  · exact hw

theorem bounded_reportHealth (hs : Within env 2 s) :
    Bounded env (fun _ => Within env 0) (Raised env) (Pipeline.reportHealth testId) s := by
  have hask : ∀ {u : St}, Within env 2 u →
      Bounded env (fun problems t => Within env problems.length t) (Raised env) (perform .healthErrors) u := by
    intro u hu
    refine wp_request (within_kept hr).stable hu (fun t ht => ⟨ht.mono (by omega), fun _ he => by cases he⟩)
      fun t r t' ht hans => ?_
    obtain ⟨hal, rfl⟩ := hans
    cases r with
    | ok problems =>
      have : problems = t.h.healthErrors := by simpa [allows, exactly] using hal
      exact ((within_kept hr).answer t .healthErrors (.ok problems) trivial ht hal).mono
        (this ▸ t.h.healthErrors_length)
    | error e => cases hal
  refine wp_seq (bounded_quiet hr (by omega) (only_mono (fun _ => Req.closing.putless) (only_aclose _)) hs)
    (fun _ u hu => ?_) fun _ _ h => h
  refine wp_seq (hask hu) (fun problems v hv => ?_) fun _ _ h => h
  have hemit : Bounded env (fun _ => Within env 0) (Raised env)
      (Co.forEach problems (Pipeline.emitOracleError testId)) v :=
    wp_forEach (P := fun rest w => Within env rest.length w) (X := Raised env)
      (fun message rest w hw => bounded_emitOracleError hr hw) (fun _ h => h) (fun _ _ h => h) hv
  refine wp_seq hemit (fun _ w hw => ?_) fun _ _ h => h
  refine wp_seq (bounded_sure hr (by trivial) (fun _ _ => rfl) hw) (fun st x hx => ?_) fun _ _ h => h
  unfold ifSo
  split
  · exact bounded_sure hr (by trivial) (fun _ _ => rfl) hx
  · exact hx

theorem bounded_giveUp (hs : Within env 3 s) :
    Bounded env (fun _ => Within env 0) (Raised env) (Pipeline.giveUp testId) s := by
  refine wp_seq (bounded_emitOracleError hr hs) (fun _ u hu => ?_) fun _ _ h => h
  refine wp_seq (bounded_put hr hu) (fun _ v hv => ?_) fun _ _ h => h
  exact wp_seq (bounded_result hr hv) (fun _ _ h => h.mono (by omega)) fun _ _ h => h

theorem bounded_measure (hs : Within env 3 s) :
    Bounded env (fun _ => Within env 0) (Raised env) (Pipeline.measure cfg req testId c) s := by
  refine wp_seq (bounded_quiet hr (by omega) (only_request (by trivial)) hs) (fun ids u hu => ?_) fun _ _ h => h
  refine wp_seq (bounded_quiet hr (by omega) (only_request (by trivial)) hu) (fun _ u hu => ?_) fun _ _ h => h
  refine wp_seq (bounded_quiet hr (by omega) (only_mono (fun _ => Req.sending.putless) (only_injectFrom cfg _ _ _)) hu)
    (fun _ u hu => ?_) fun _ _ h => h
  refine wp_seq (bounded_quiet hr (by omega) (only_request (by trivial)) hu) (fun _ u hu => ?_) fun _ _ h => h
  refine wp_seq (bounded_checkLiveness hr hu) (fun _ u hu => ?_) fun _ _ h => h
  refine wp_seq (bounded_reportConntrack hr hu) (fun _ u hu => ?_) fun _ _ h => h
  exact wp_seq (bounded_reportHealth hr hu) (fun _ _ h => h) fun _ _ h => h

theorem bounded_body (hs : Fresh s) :
    Bounded env (fun _ => Within env 0) (Raised env) (Pipeline.body cfg req testId c) s := by
  refine wp_seq (bounded_fresh (only_mono (fun _ => Req.aside.spawning) (only_setupTopology c req testId)) hs)
    (fun _ u hu => ?_) fun _ _ h => h
  refine wp_seq (bounded_fresh (only_spawnListeners c req testId) hu) (fun _ u hu => ?_) fun _ _ h => h
  refine wp_seq (bounded_startMonitor hr hu) (fun _ u hu => ?_) fun _ _ h => h
  refine wp_seq (bounded_probeOracle hr (by omega) hu) (fun ready u hu => ?_) fun _ _ h => h
  cases ready with
  | true => exact bounded_measure hr hu
  | false => exact bounded_giveUp hr hu

theorem bounded_handle (e : PyExc) (hs : Raised env e s) :
    Bounded env (fun _ => Within env 0) (fun _ => Within env 0) (Pipeline.handle testId e) s := by
  have hzero : ∀ (e : PyExc) (u : St), Raised env e u → Within env 0 u := fun _ _ h => h.mono (Nat.zero_le _)
  have hreport : ∀ m, Within env 2 s →
      Bounded env (fun _ => Within env 0) (fun _ => Within env 0) (Pipeline.reportException testId m) s := by
    intro m h2
    refine wp_seq (bounded_sure hr (by trivial) (fun _ _ => rfl) h2) (fun _ u hu => ?_) hzero
    refine wp_seq (bounded_emitEvent hr hu) (fun _ u hu => ?_) hzero
    refine wp_seq (bounded_put hr hu) (fun _ u hu => ?_) hzero
    exact wp_seq (bounded_only hr (only_mono (fun _ => Req.closing.putless) (only_aclose _)) hu) (fun _ _ h => h)
      fun _ _ h => h
  unfold Pipeline.handle
  split
  · rename_i hcls
    have hexc : e.isException = true := by simp [PyExc.isException, hcls]
    simp only [Raised, hexc, if_true] at hs
    exact hreport _ hs
  · split
    · rename_i hexc
      simp only [Raised, hexc, if_true] at hs
      exact hreport _ hs
    · exact hzero e s hs

theorem bounded_runTestPipeline {controller : Option NetnsController} :
    Bounded env (fun _ => Within env 0) (fun _ => Within env 0)
      (Pipeline.runTestPipeline cfg req controller testId) {} := by
  have hteardown : Only Req.putless (Pipeline.teardown req testId) :=
    only_mono (fun _ => Req.aside.putless) (only_teardown req testId)
  have hzero : ∀ (e : PyExc) (u : St), Raised env e u → Within env 0 u := fun _ _ h => h.mono (Nat.zero_le _)
  have hrest : ∀ {c : NetnsController} {u : St}, Fresh u →
      Bounded env (fun _ => Within env 0) (fun _ => Within env 0) (Pipeline.runWith cfg req testId c) u := by
    intro c u hu
    have hstatus : Bounded env (fun _ => Fresh) (Raised env) (perform (.setStatus .running)) u := by
      refine wp_request fresh_kept.stable hu (fun t ht => ⟨ht.within.mono (by omega), fun _ he => by cases he⟩)
        fun t r t' ht hans => ?_
      obtain ⟨hal, rfl⟩ := hans
      cases r with
      | ok v => exact ht
      | error e => cases hal
    refine wp_seq hstatus (fun _ v hv => ?_) hzero
    refine wp_seq (V := fun _ => Within env 0) (X := fun _ => Within env 0) ?_ (fun early w hw => ?_) fun _ _ h => h
    · exact wp_finally (wp_try (bounded_body hr hv) (fun _ _ h => h) fun e w hw => bounded_handle hr e hw)
        (fun _ w hw => bounded_only hr hteardown hw) fun _ w hw => bounded_only hr hteardown hw
    · cases early with
      | some ref => exact hw
      | none => exact post_mono (bounded_result hr hw) (fun _ _ h => h) hzero
  cases controller with
  | some c => exact hrest ⟨rfl, rfl, rfl⟩
  | none =>
    exact wp_seq (bounded_fresh (only_mono (fun _ => Req.aside.spawning) (only_new none)) ⟨rfl, rfl, rfl⟩)
      (fun _ _ h => hrest h) hzero

end Steps

/-! ## Waiting for room -/

/-- The queue is full, and the pipeline or the read loop waits for room on it. -/
def Waiting {α : Type} (env : Env) (c : Prog α) (s : St) : Prop :=
  s.full env = true ∧ ((∃ item k, c = .ask (.put item) k) ∨ (∃ e, s.loop = .putting e) ∨ s.loop = .closing)

section Waiting

variable {s : St} {n : Nat}

theorem full_of_within (hmax : env.maxsize = n) (hfull : s.full env = true) (h : Within env 0 s) :
    n ≤ s.loopEvents + s.loopEnds + s.pipelinePuts := by
  simp only [St.full, h.1.taken, hmax, Nat.sub_zero, Bool.and_eq_true, decide_eq_true_eq] at hfull
  exact s.puts_length ▸ hfull.2

/-- Someone waits only when the queue holds nearly nothing but parsed lines and conntrack
    entries. -/
theorem waiting_needs {α : Type} {c : Prog α} (hmax : env.maxsize = n) (h : Within env 0 s)
    (hput : ∀ item k, c = .ask (.put item) k → Within env 1 s) (hw : Waiting env c s) :
    n ≤ parsedLines env s + s.entries + 3 := by
  have hn := full_of_within hmax hw.1 h
  obtain ⟨⟨-, hevents, hends⟩, hle⟩ := h
  have hlines : (consumed env s).length ≤ parsedLines env s := consumed_le s
  rcases hw.2 with ⟨item, k, hc⟩ | ⟨e, hl⟩ | hl
  · have := (hput item k hc).2
    have hended : s.loop.ended ≤ 1 := by cases s.loop <;> simp [LoopPc.ended]
    omega
  · simp only [hl, LoopPc.held, LoopPc.ended] at hevents hends
    omega
  · simp only [hl, LoopPc.held, LoopPc.ended] at hevents hends
    omega

end Waiting

/-- As long as the parsed lines and the conntrack entries of a run leave four places of the
    queue free, neither the pipeline nor the read loop ever waits for room on it, during
    the run or after it. -/
theorem no_wait_within_bound (hr : env.reader = false) {n : Nat} (hmax : env.maxsize = n) {cfg : Pipeline.Config}
    {req : TestRequest} {controller : Option NetnsController} {testId : String} {c : Prog Pipeline.ListRef} {s t : St}
    (hrun : Steps (world env) (Pipeline.runTestPipeline cfg req controller testId, {}) (c, s))
    (hafter : t = s ∨ ((∃ ref, c = .ret ref) ∨ ∃ e, c = .throw e) ∧ After (world env) s t)
    (hfew : parsedLines env t + t.entries + 4 ≤ n) : ¬ Waiting env c t := by
  have hw := wp_steps hrun (bounded_runTestPipeline hr)
  intro hwait
  have hneeds : n ≤ parsedLines env t + t.entries + 3 := by
    rcases hafter with rfl | ⟨⟨ref, rfl⟩ | ⟨e, rfl⟩, hafter⟩
    · cases c with
      | ret ref => exact waiting_needs hmax hw (fun _ _ h => by cases h) hwait
      | throw e => exact waiting_needs hmax hw (fun _ _ h => by cases h) hwait
      | ask a k =>
        have hpending : PendingOk env t a := (hw t .refl).1
        refine waiting_needs hmax hpending.1 (fun item k' h => ?_) hwait
        cases h
        exact hpending.2 item rfl
    · exact waiting_needs hmax ((within_kept hr).stable.after hafter hw) (fun _ _ h => by cases h) hwait
    · exact waiting_needs hmax ((within_kept hr).stable.after hafter hw) (fun _ _ h => by cases h) hwait
  omega

end Nse

namespace Nse

open Coroutine
open Relation (ReflTransGen)

attribute [local instance] PyStr.Unicode.ascii

/-- The read loop waits for a line, with `n` items on the queue. -/
structure Idling (n : Nat) (s : St) : Prop where
  loop : s.loop = .reading
  read : s.out.length = s.nread
  puts : s.puts.length = n
  taken : s.taken = 0
  exited : s.exited = false
  early : s.clock < s.h.deadline

theorem busy_line : ∃ e, TraceParser.parseLine false (PyStr.strip (lineOf (.foreign 0))) = .ok (some e) := by
  have hsome : (TraceParser.eventOf false (PyStr.strip (lineOf (.foreign 0)))).isSome = true := by decide +kernel
  obtain ⟨e, he⟩ := Option.isSome_iff_exists.mp hsome
  exact ⟨e, TraceParser.eventOf_eq_some.mp he⟩

/-- The state once one more foreign line has been written and read, and its event is to be
    put. -/
def withLine (s : St) (e : TraceEvent) : St :=
  { s with out := s.out ++ [(.foreign 0, lineOf (.foreign 0))], nread := s.nread + 1, h := s.h.recordId e }

theorem one_more_line {α : Type} {cmd : Cmd} {k : Except PyExc Completed → Prog α} {s : St} {n : Nat}
    (h : Idling n s) :
    ∃ e, Steps (world {}) (.ask (.run cmd) k, s) (.ask (.run cmd) k, Loop.putEvent {} e (withLine s e)) := by
  obtain ⟨e, he⟩ := busy_line
  have hne : PyStr.strip (lineOf (.foreign 0)) ≠ "" := by decide +kernel
  let written : St := { s with out := s.out ++ [(.foreign 0, lineOf (.foreign 0))] }
  have hwrite : event {} s (.write (.foreign 0) (lineOf (.foreign 0))) = some written := by
    simp [event, h.loop, h.exited, written]
  have hconsume : Loop.consume {} (lineOf (.foreign 0)) written = Loop.putEvent {} e (withLine s e) := by
    simp only [Loop.consume, hne, if_false, he, written, withLine]
  have hline : event {} written .line = some (Loop.putEvent {} e (withLine s e)) := by
    simp [event, written, h.loop, ← h.read, ← hconsume]
  exact ⟨e, (ReflTransGen.single (.event _ rfl hwrite)).tail (.event _ rfl hline)⟩

theorem withLine_full {s : St} {n : Nat} (h : Idling n s) (e : TraceEvent) :
    (withLine s e).full {} = decide (512 ≤ n) := by
  simp [withLine, St.full, h.puts, h.taken]

/-- While there is room the event is put, and the loop waits for the next line. -/
theorem Idling.next {s : St} {n : Nat} (h : Idling n s) (hn : n < 512) (e : TraceEvent) :
    Idling (n + 1) (Loop.putEvent {} e (withLine s e)) := by
  have hfull : (withLine s e).full {} = false := by
    rw [withLine_full h]
    exact decide_eq_false (by omega)
  have hearly : ¬ s.h.deadline ≤ s.clock := by
    have := h.early
    omega
  have hput : Loop.putEvent {} e (withLine s e) = Loop.deliver {} e (withLine s e) := by
    simp only [Loop.putEvent, hfull, Bool.false_eq_true, if_false]
  rw [hput]
  simp only [Loop.deliver, Loop.top, withLine, Harvester.recordId_deadline, hearly, if_false]
  exact ⟨rfl, by simp [h.read], by simp [h.puts], h.taken, h.exited, by simpa using h.early⟩

theorem Idling.wedged {s : St} (h : Idling 512 s) (e : TraceEvent) {α : Type} {c : Prog α} :
    Waiting {} c (Loop.putEvent {} e (withLine s e)) := by
  have hfull : (withLine s e).full {} = true := withLine_full h e
  have hput : Loop.putEvent {} e (withLine s e) = { withLine s e with loop := .putting e } := by
    simp only [Loop.putEvent, hfull, if_true]
  rw [hput]
  exact ⟨hfull, .inr (.inl ⟨e, rfl⟩)⟩

theorem idling_steps {α : Type} {cmd : Cmd} {k : Except PyExc Completed → Prog α} {s : St} (h : Idling 0 s) :
    ∀ n, n ≤ 512 → ∃ t, Steps (world {}) (.ask (.run cmd) k, s) (.ask (.run cmd) k, t) ∧ Idling n t
  | 0, _ => ⟨s, .refl, h⟩
  | n + 1, hn => by
    obtain ⟨t, hsteps, ht⟩ := idling_steps h n (by omega)
    obtain ⟨e, hmore⟩ := one_more_line ht
    exact ⟨_, hsteps.trans hmore, ht.next (by omega) e⟩

def Req.isRun : Req → Bool
  | .run _ => true
  | _ => false

/-- The default queue, read by nobody: after 513 lines of foreign traffic the read loop
    waits for room that never comes, while the pipeline is still probing. -/
theorem a_long_run_wedges_the_read_loop : ∃ c s,
    Steps (world {}) (Pipeline.runTestPipeline {} sampleRequest none "a1b2c3d4e5f6", {}) (c, s) ∧ Waiting {} c s := by
  have hplay : Script.waiting
      (fun a s => a.isRun && s.loop == .reading && s.out.length == s.nread &&
        s.puts.length == 0 && s.taken == 0 && !s.exited && decide (s.clock < s.h.deadline))
      ((obliging {}).play 29 (Pipeline.runTestPipeline {} sampleRequest none "a1b2c3d4e5f6") {}) = true := by
    decide +kernel
  obtain ⟨a, k, s, hrun, hp⟩ := Script.waiting_steps (schedule_fits _ _ _) hplay
  simp only [Bool.and_eq_true, beq_iff_eq, Bool.not_eq_true', decide_eq_true_eq] at hp
  obtain ⟨⟨⟨⟨⟨⟨ha, hloop⟩, hread⟩, hputs⟩, htaken⟩, hexited⟩, hearly⟩ := hp
  cases a with
  | run cmd =>
    have hidle : Idling 0 s := ⟨hloop, hread, hputs, htaken, hexited, hearly⟩
    obtain ⟨t, hsteps, ht⟩ := idling_steps hidle 512 (by omega)
    obtain ⟨e, hmore⟩ := one_more_line ht
    exact ⟨_, _, (hrun.trans hsteps).trans hmore, ht.wedged e⟩
  | _ => cases ha

theorem no_wait_within_bound_sample : ∃ ref s,
    Steps (world {}) (Pipeline.runTestPipeline {} sampleRequest none "a1b2c3d4e5f6", {}) (.ret ref, s) ∧
      s.collected ≠ [] ∧ ¬ Waiting {} (.ret ref : Prog Pipeline.ListRef) s := by
  have hplay : Script.returned
      (fun _ s => !s.collected.isEmpty && decide (parsedLines {} s + s.entries + 4 ≤ 512))
      ((obliging {}).play 200 (Pipeline.runTestPipeline {} sampleRequest none "a1b2c3d4e5f6") {}) = true := by
    decide +kernel
  obtain ⟨ref, s, hrun, hp⟩ := Script.returned_steps (schedule_fits _ _ _) hplay
  simp only [Bool.and_eq_true, decide_eq_true_eq] at hp
  exact ⟨ref, s, hrun, by simpa using hp.1, no_wait_within_bound rfl rfl hrun (.inl rfl) hp.2⟩

end Nse
