/-
  Nse.Core.Restored — the host after a run.

  Nobody cancels the run, and the host carries out every deletion that it can: `ip netns del`
  and `ip link del` fail only where there is nothing to delete. Everything else may fail, in
  any way and at any step. Proved, for a run that is given its controller (`restored`): however
  it ended, the host is exactly what the others' commands would have made of it without the run:
  its namespaces, interfaces, addresses and routes. A process that is left running, as the monitor
  may be, is no part of it.

  The `finally` block works through what the run may have made: `Clearing` says which of its
  namespaces are still to be deleted, and `Cleared` that nothing is.
-/

import Nse.Core.Cleanup
import Nse.Core.Failures
import Nse.Core.Hosted

namespace Nse

open Coroutine
open NetHost (Act End Host Side)

/-! ## Deletions that are carried out -/

/-- A deletion fails only where the host refuses it, and then as a command fails. -/
def DeletionCarried (r : Caller) (h : Host (Option Caller)) : (a : Req) → Except PyExc (Reply a) → Prop
  | .run c, .ok done => keepsAll (commandOf c.argv).2 = false →
    done.returncode = 0 ∨ h.perform (some r) (commandOf c.argv).1 (commandOf c.argv).2 = none
  | .run c, .error e => keepsAll (commandOf c.argv).2 = false →
    h.perform (some r) (commandOf c.argv).1 (commandOf c.argv).2 = none ∧ e.cls = .calledProcessError
  | _, _ => True

structure Carried (r : Caller) (s : Stage) (a : Req) (reply : Except PyExc (Reply a)) : Prop where
  quiet : cancels s.st a reply = false
  deletion : DeletionCarried r s.host a reply

theorem Carried.attended {r : Caller} {s : Stage} {a : Req} {reply : Except PyExc (Reply a)} (h : Carried r s a reply) :
    Attended s a reply := by
  rw [Attended, abandons, h.quiet, Bool.and_false]

abbrev carrying [PyStr.Unicode] (env : Env) (x : RunCall) (r : Caller) : World Req Reply PyExc Stage Happening :=
  (hosted env x r).restrict (Carried r) fun _ _ => True

/-- These namespaces of the run are still to be deleted, and no other is there. -/
structure Clearing (x : RunCall) (r : Caller) (h₀ : Host (Option Caller)) (left : List String) (s : Stage) : Prop where
  keeping : Keeping x r h₀ false s
  netns : ∀ n, x.ofRun n → n ∈ left ∨ s.host.hasSpace n = false

structure Cleared (x : RunCall) (r : Caller) (h₀ : Host (Option Caller)) (s : Stage) :
    Prop extends Clearing x r h₀ [] s where
  link : s.host.has none x.vethHost = false

/-- The request makes nothing on the host, and deletes nothing but the run's. -/
structure Req.Removes (x : RunCall) (a : Req) : Prop where
  anytime : Anytime x a
  tidy : a.tidy x
  nothing : ∀ c, a = .run c → (commandOf c.argv).2.newSpaces = [] ∧ (commandOf c.argv).2.newLinks = []

section Requests

variable {x : RunCall} {a : Req}

theorem removes_beside (h : ∀ c, a ≠ .run c) : a.Removes x := by
  cases a with
  | run c => exact absurd rfl (h c)
  | _ => exact ⟨trivial, trivial, by simp⟩

theorem removes_inside {m : Bool} {ns links : String → Prop} (h : a.inside m ns links) : a.Removes x := by
  refine ⟨anytime_inside h, h.tidy, ?_⟩
  rintro c rfl
  rw [show (commandOf c.argv).2 = .other from h.2]
  exact ⟨rfl, rfl⟩

theorem removes_delNetns {n : String} (hn : x.ofRun n) : (Req.run (delNetns n)).Removes x := by
  refine ⟨fun _ => .netnsDel, ⟨?_, by rintro m - ⟨⟩⟩, ?_⟩
  · rintro m ⟨⟩
    exact hn
  · rintro c ⟨⟩
    exact ⟨rfl, rfl⟩

theorem removes_delLink : (Req.run (delLink x.vethHost)).Removes x := by
  refine ⟨fun _ => .linkDel, ⟨by rintro m ⟨⟩, ?_⟩, ?_⟩
  · rintro m - ⟨⟩
    rfl
  · rintro c ⟨⟩
    exact ⟨rfl, rfl⟩

end Requests

/-! ## What the clearing keeps -/

section Kept

variable [U : PyStr.Unicode] {env : Env} {x : RunCall} {r : Caller} {h₀ : Host (Option Caller)}
    {left : List String} {s s' : Stage}

omit U in
theorem Keeping.unlinked {linked : Bool} (hk : Keeping x r h₀ linked s) : Keeping x r h₀ false s :=
  ⟨hk.sound, hk.own, hk.rest, fun h => (by cases h), hk.told⟩

/-- The host changes by a deed or by a command of the run. -/
theorem clearing_event {e : Happening} (hc : Clearing x r h₀ left s) (he : Stage.Happened env x r s e s') :
    Clearing x r h₀ left s' := by
  refine ⟨keeping_stable s e s' hc.keeping he, fun n hn => ?_⟩
  cases he with
  | ev hev => exact hc.netns n hn
  | deed hd hperform =>
    exact (hc.netns n hn).imp_right (Host.no_space_perform (fun hnew => hd.netns n hnew hn) hperform)

theorem cleared_event {e : Happening} (hc : Cleared x r h₀ s) (he : Stage.Happened env x r s e s') :
    Cleared x r h₀ s' := by
  refine ⟨clearing_event hc.toClearing he, ?_⟩
  cases he with
  | ev hev => exact hc.link
  | deed hd hperform => exact Host.has_root_perform hd.link hperform hc.link

theorem cleared_stable : Stable (hosted env x r) (Cleared x r h₀) := fun _ _ _ hc he => cleared_event hc he

theorem clearing_answer {a : Req} {reply : Except PyExc (Reply a)} (ha : a.Removes x) (hc : Clearing x r h₀ left s)
    (hr : (carrying env x r).answer s a reply s') : Clearing x r h₀ left s' := by
  refine ⟨(keeping_answer ⟨ha.anytime.allowed false, ha.tidy⟩ hc.keeping hr.1).unlinked, fun n hn => ?_⟩
  rcases hc.netns n hn with hleft | hgone
  · exact .inl hleft
  · right
    obtain ⟨⟨-, hreacts⟩, -⟩ := hr
    rcases hreacts.host with rfl | ⟨c, rfl, hperform⟩
    · exact hgone
    · exact Host.no_space_perform (by rw [(ha.nothing c rfl).1]; exact List.not_mem_nil) hperform hgone

theorem cleared_answer {a : Req} {reply : Except PyExc (Reply a)} (ha : a.Removes x) (hc : Cleared x r h₀ s)
    (hr : (carrying env x r).answer s a reply s') : Cleared x r h₀ s' := by
  refine ⟨clearing_answer ha hc.toClearing hr, ?_⟩
  obtain ⟨⟨-, hreacts⟩, -⟩ := hr
  rcases hreacts.host with rfl | ⟨c, rfl, hperform⟩
  · exact hc.link
  · exact Host.has_root_perform (fun _ => by rw [(ha.nothing c rfl).2]; exact List.not_mem_nil) hperform hc.link

/-- A deletion that was answered was done, or there was nothing to delete. -/
theorem deletion_cases {c : Cmd} {reply : Except PyExc Completed} (hdeletes : keepsAll (commandOf c.argv).2 = false)
    (hr : (hosted env x r).answer s (.run c) reply s') (hcarried : Carried r s (.run c) reply) :
    ((∃ done, reply = .ok done) ∧ s.host.perform (some r) (commandOf c.argv).1 (commandOf c.argv).2 = some s'.host) ∨
      (s'.host = s.host ∧ s.host.perform (some r) (commandOf c.argv).1 (commandOf c.argv).2 = none ∧
        ∀ e, reply = .error e → e.cls = .calledProcessError ∧ c.check = true) := by
  obtain ⟨hal, hreacts⟩ := hr
  have hdel := hcarried.deletion
  cases hreacts with
  | done stdout stderr hperform => exact .inl ⟨⟨_, rfl⟩, hperform⟩
  | failed stdout stderr hcheck hcode => exact .inr ⟨rfl, (hdel hdeletes).resolve_left hcode, by rintro e ⟨⟩⟩
  | raised e =>
    obtain ⟨hnone, hcls⟩ := hdel hdeletes
    refine .inr ⟨rfl, hnone, ?_⟩
    rintro e ⟨⟩
    exact ⟨hcls, by simpa [allows, Cmd.raises, hcls] using hal⟩
  | cutShort e hperform =>
    rw [(hdel hdeletes).1] at hperform
    cases hperform
  | answered reply hrun => exact absurd rfl (hrun _)

/-- After `ip netns del`. -/
theorem gone_delNetns {c : Cmd} {n : String} (hcommand : commandOf c.argv = (none, .netnsDel n))
    {reply : Except PyExc Completed}
    (hr : (hosted env x r).answer s (.run c) reply s') (hcarried : Carried r s (.run c) reply) :
    s'.host.hasSpace n = false ∧ ∀ e, reply = .error e → e.cls = .calledProcessError ∧ c.check = true := by
  have hcases := deletion_cases (by rw [hcommand]; rfl) hr hcarried
  rw [hcommand] at hcases
  rcases hcases with ⟨⟨done, rfl⟩, hperform⟩ | ⟨hsame, hnone, hfails⟩
  · refine ⟨?_, by rintro e ⟨⟩⟩
    rw [Bool.eq_false_iff, ne_eq, Host.hasSpace_iff, Host.titles_perform hperform]
    rintro ⟨o, ho⟩
    simpa using (List.mem_filter.mp ho).2
  · refine ⟨?_, hfails⟩
    rw [hsame, Bool.eq_false_iff]
    intro hspace
    obtain ⟨h', hperform⟩ : ∃ h', s.host.perform (some r) none (.netnsDel n) = some h' :=
      Host.perform_netnsDel rfl hspace
    rw [hnone] at hperform
    cases hperform

/-- After `ip link del`. -/
theorem gone_delLink {c : Cmd} {dev : String} (hcommand : commandOf c.argv = (none, .linkDel dev))
    {reply : Except PyExc Completed}
    (hr : (hosted env x r).answer s (.run c) reply s') (hcarried : Carried r s (.run c) reply) :
    s'.host.hasPair none dev = false ∧ ∀ e, reply = .error e → e.cls = .calledProcessError ∧ c.check = true := by
  have hcases := deletion_cases (by rw [hcommand]; rfl) hr hcarried
  rw [hcommand] at hcases
  rcases hcases with ⟨⟨done, rfl⟩, hperform⟩ | ⟨hsame, hnone, hfails⟩
  · exact ⟨Host.no_pair_linkDel hperform, by rintro e ⟨⟩⟩
  · refine ⟨?_, hfails⟩
    rw [hsame]
    exact Host.no_pair_of_refused rfl hnone

omit U in
/-- The host's end is there only as an end of a pair of the run. -/
theorem Keeping.no_link {linked : Bool} (hk : Keeping x r h₀ linked s) (hno : s.host.hasPair none x.vethHost = false) :
    s.host.has none x.vethHost = false := by
  rw [Host.has, List.any_eq_false]
  intro e he hat
  rcases Host.mem_sides (s := ours r) he with hours | htheirs
  · rcases Host.mem_part.mp hours with ⟨sp, hsp, -, rfl⟩ | ⟨hu, -⟩ | ⟨p, hp, -, hend⟩
    · rw [End.at, hk.sound.loopbacks sp hsp] at hat
      cases hat
    · cases hu
    · rw [Host.hasPair, List.any_eq_false] at hno
      apply hno p hp
      simp only [NetHost.Pair.ends, List.mem_cons, List.not_mem_nil, or_false] at hend
      rcases hend with rfl | rfl
      · simp [NetHost.Pair.any, hat]
      · simp [NetHost.Pair.any, hat]
  · exact List.any_eq_false.mp hk.rest.link e htheirs hat

omit U in
/-- Where nothing of the run is left, the host is what the others have. -/
theorem Cleared.host (hc : Cleared x r h₀ s) : s.host.part (theirs r) = s.host := by
  have hk := hc.keeping
  have hnone : ∀ n, x.ofRun n → s.host.hasSpace n = false := fun n hn => (hc.netns n hn).resolve_left List.not_mem_nil
  have hspaces : (s.host.part (ours r)).spaces = [] := by
    rw [List.eq_nil_iff_forall_not_mem]
    intro sp hsp
    have hrun : x.ofRun sp.name := hk.own.titles sp.name sp.owner (List.mem_map_of_mem hsp)
    have hspace : s.host.hasSpace sp.name = true :=
      List.any_eq_true.mpr ⟨sp, (List.mem_filter.mp hsp).1, beq_self_eq_true _⟩
    rw [hnone sp.name hrun] at hspace
    cases hspace
  have hpairs : (s.host.part (ours r)).pairs = [] := by
    rw [List.eq_nil_iff_forall_not_mem]
    intro p hp
    -- both ends are in the root stack, for no namespace is there to stand in
    have hroot : ∀ e ∈ p.ends, e.stack = none := by
      intro e he
      have hmem : e ∈ (s.host.part (ours r)).ends := List.mem_append_right _ (List.mem_flatMap.mpr ⟨p, hp, he⟩)
      have hstack := hk.own.sound.formed.ends e hmem
      cases hstack' : e.stack with
      | none => rfl
      | some n =>
        rw [hstack'] at hstack
        have hempty : (s.host.part (ours r)).hasSpace n = false := by
          rw [Host.hasSpace, hspaces]
          rfl
        rw [show (s.host.part (ours r)).hasStack (some n) = (s.host.part (ours r)).hasSpace n from rfl,
          hempty] at hstack
        cases hstack
    have hseat : p.seat ∈ (s.host.part (ours r)).seats := List.mem_map_of_mem hp
    have hany : p.seat.any (·.1 == none) = true := by
      rw [Host.any_seat, NetHost.Pair.any]
      simp [End.place, hroot p.near (by simp [NetHost.Pair.ends])]
    have hthere := hk.own.rooted p.seat hseat hany
    have hpair : s.host.hasPair none x.vethHost = true := by
      rw [Host.hasPair_eq]
      exact List.any_eq_true.mpr ⟨p.seat, List.mem_map_of_mem (List.mem_filter.mp hp).1, hthere⟩
    rw [Host.hasPair_of_has hc.link] at hpair
    cases hpair
  apply Host.part_of_empty hk.sound
  · rw [Side.other_other]
    exact hspaces
  · rw [Side.other_other]
    exact hpairs
  · rfl

omit U in
theorem Cleared.unowned (hc : Cleared x r h₀ s) :
    (∀ sp ∈ s.host.spaces, sp.owner ≠ some r) ∧ ∀ p ∈ s.host.pairs, p.owner ≠ some r := by
  rw [← hc.host]
  exact ⟨fun sp hsp => owners_theirs.mp (List.mem_filter.mp hsp).2,
    fun p hp => owners_theirs.mp (List.mem_filter.mp hp).2⟩

end Kept

/-! ## The `finally` block -/

section Finally

variable [U : PyStr.Unicode] {env : Env} {x : RunCall} {r : Caller} {h₀ : Host (Option Caller)}
    {s : Stage} {P Q : Stage → Prop}

/-- Whatever happens, the coroutine ends, if it does, with `V` of its value or `X` of its
    exception. -/
abbrev EndsOn {α : Type} (env : Env) (x : RunCall) (r : Caller) (V : α → Stage → Prop)
    (X : PyExc → Stage → Prop) (c : Prog α)
    (s : Stage) : Prop :=
  wp (carrying env x r) (fun _ _ => True) (Post V X) c s

/-- Every event keeps `P`, and so does every request that makes nothing. -/
structure Withstands (env : Env) (x : RunCall) (r : Caller) (P : Stage → Prop) : Prop where
  stable : Stable (carrying env x r) P
  answer : ∀ s a reply s', a.Removes x → P s → (carrying env x r).answer s a reply s' → P s'

theorem Withstands.and (hP : Withstands env x r P) (hQ : Withstands env x r Q) :
    Withstands env x r fun s => P s ∧ Q s :=
  ⟨hP.stable.and hQ.stable, fun s a reply s' ha hs hr =>
    ⟨hP.answer s a reply s' ha hs.1 hr, hQ.answer s a reply s' ha hs.2 hr⟩⟩

theorem withstands_clearing {left : List String} : Withstands env x r (Clearing x r h₀ left) :=
  ⟨fun _ _ _ hc he => clearing_event hc he.1, fun _ _ _ _ ha hc hr => clearing_answer ha hc hr⟩

theorem withstands_cleared : Withstands env x r (Cleared x r h₀) :=
  ⟨fun _ _ _ hc he => cleared_event hc he.1, fun _ _ _ _ ha hc hr => cleared_answer ha hc hr⟩

theorem withstands_gone {n : String} (hn : x.ofRun n) : Withstands env x r fun s => s.host.hasSpace n = false where
  stable s e s' hgone he := by
    cases he.1 with
    | ev hev => exact hgone
    | deed hd hperform => exact Host.no_space_perform (fun hnew => hd.netns n hnew hn) hperform hgone
  answer s a reply s' ha hgone hr := by
    obtain ⟨⟨-, hreacts⟩, -⟩ := hr
    rcases hreacts.host with rfl | ⟨c, rfl, hperform⟩
    · exact hgone
    · exact Host.no_space_perform (by rw [(ha.nothing c rfl).1]; exact List.not_mem_nil) hperform hgone

theorem Withstands.ends {α : Type} (hP : Withstands env x r P) {c : Prog α} (hc : Only (Req.Removes x) c) (hs : P s) :
    EndsOn env x r (fun _ => P) (fun _ => P) c s := by
  refine wp_mono (fun reply t ht => ?_) c s (wp_of_only hP.stable (fun _ _ _ _ => trivial)
    (fun s a reply s' ha hP' hr => hP.answer s a reply s' ha hP' hr) c s hc hs)
  cases reply <;> exact ht

/-- A request whose failure `X` takes. -/
theorem Withstands.perform (hP : Withstands env x r P) {a : Req} (ha : a.Removes x) (hs : P s)
    {V : Reply a → Stage → Prop} {X : PyExc → Stage → Prop}
    (hv : ∀ s v s', P s' → (carrying env x r).answer s a (.ok v) s' → V v s')
    (hx : ∀ s e s', P s' → (carrying env x r).answer s a (.error e) s' → X e s') :
      EndsOn env x r V X (perform a) s := by
  refine wp_request hP.stable hs (fun _ _ => trivial) fun t reply t' ht hr => ?_
  cases reply with
  | ok v => exact hv t v t' (hP.answer t a _ t' ha ht hr) hr
  | error e => exact hx t e t' (hP.answer t a _ t' ha ht hr) hr

/-- What stopping a listener asks. -/
def Req.stops : Req → Prop
  | .terminate _ | .wait _ _ | .kill _ => True
  | _ => False

omit U in
theorem Req.stops.removes {a : Req} (h : a.stops) : a.Removes x := by
  refine removes_beside ?_
  rintro c rfl
  exact h

omit U in
theorem stops_stopListener (proc : Nat) : Only Req.stops (Pipeline.stopListener proc) := by
  have hask : ∀ {a : Req}, a.stops → Only Req.stops (Nse.perform a) := only_request
  refine only_tryCatch (fun e => ?_) (only_bind (fun _ => hask (by trivial)) (hask (by trivial)))
  split
  · exact only_suppress (hask (by trivial))
  · exact trivial

omit U in
theorem failure_of_stops [PyStr.Unicode] {a : Req} {e : PyExc} {st : St} (ha : a.stops)
    (hal : allows env st a (.error e) = true) : Failure a e := by
  have hcls : e.cls = .osError ∨ e.cls = .timeoutExpired := by
    cases a with
    | terminate i => exact .inl (by simpa [allows, orRaises] using hal)
    | wait i ms => simpa [allows, orRaises] using hal
    | kill i => exact .inl (by simpa [allows, orRaises] using hal)
    | _ => exact absurd ha (by simp [Req.stops])
  refine ⟨⟨env, st, hal⟩, .inl ?_, ?_⟩
  · rcases hcls with hcls | hcls <;> simp [hcls]
  · intro hdel
    cases a with
    | run c => exact absurd ha (by simp [Req.stops])
    | _ => cases hdel

/-- Stopping a listener raises nothing. -/
theorem withstands_stopListener (hP : Withstands env x r P) (proc : Nat) (hs : P s) :
    EndsOn env x r (fun _ => P) (fun _ _ => False) (Pipeline.stopListener proc) s := by
  have hkept : ∀ s a reply s', Req.stops a → P s → (carrying env x r).answer s a reply s' → P s' :=
    fun s a reply s' ha hP' hr => hP.answer s a reply s' ha.removes hP' hr
  have hfails : ∀ s a e s', Req.stops a → (carrying env x r).answer s a (.error e) s' → Failure a e := by
    intro s a e s' ha hr
    obtain ⟨⟨hal, -⟩, -⟩ := hr
    exact failure_of_stops ha hal
  have hend := wp_only_raises hP.stable hkept hfails (stops_stopListener proc) (silent_stopListener proc) hs
  exact post_mono hend (fun _ _ h => h) fun _ _ h => h.2

theorem gone_destroyAttempts {n : String} (hn : x.ofRun n) : ∀ (delays : List Nat) {P : Stage → Prop} {s : Stage},
    Withstands env x r P → P s →
    EndsOn env x r (fun _ t => P t ∧ (delays ≠ [] → t.host.hasSpace n = false)) (fun _ _ => False)
      (NetnsController.destroyAttempts n delays) s
  | [], _, _, _, hs => ⟨hs, fun h => absurd rfl h⟩
  | delay :: delays, P, s, hP, hs => by
    have hboth : Withstands env x r fun t => P t ∧ t.host.hasSpace n = false := hP.and (withstands_gone hn)
    have hdel : EndsOn env x r (fun _ t => P t ∧ t.host.hasSpace n = false)
        (fun e t => (P t ∧ t.host.hasSpace n = false) ∧ e.cls = .calledProcessError) (perform (.run (delNetns n))) s :=
      hP.perform (removes_delNetns hn) hs (fun _ _ _ ht hr => ⟨ht, (gone_delNetns rfl hr.1 hr.2).1⟩) fun _ _ _ ht hr =>
        ⟨⟨ht, (gone_delNetns rfl hr.1 hr.2).1⟩, ((gone_delNetns rfl hr.1 hr.2).2 _ rfl).1⟩
    have hsleep : ∀ {v : Stage}, P v ∧ v.host.hasSpace n = false →
        EndsOn env x r (fun _ t => P t ∧ t.host.hasSpace n = false) (fun _ _ => False) (perform (.sleep delay)) v := by
      intro v hv
      refine hboth.perform (removes_beside (by simp)) hv (fun _ _ _ ht _ => ht) fun u e _ _ hr => ?_
      obtain ⟨⟨hal, -⟩, hcarried⟩ := hr
      have hcls : e.cls = .cancelledError := by simpa [allows, orRaises] using hal
      have hquiet := hcarried.quiet
      simp [cancels, hcls] at hquiet
    refine wp_seq (V := fun _ t => P t ∧ t.host.hasSpace n = false) (X := fun _ _ => False) ?_
      (fun again v hv => ?_) fun _ _ h => h
    · have hattempt : EndsOn env x r (fun _ t => P t ∧ t.host.hasSpace n = false)
          (fun e t => (P t ∧ t.host.hasSpace n = false) ∧ e.cls = .calledProcessError)
          (do NetnsController.run (NetnsController.ip ["netns", "del", n]); pure false : Prog Bool) s := by
        refine wp_seq (V := fun _ t => P t ∧ t.host.hasSpace n = false) ?_ (fun _ _ h => h) fun _ _ h => h
        exact wp_seq hdel (fun _ _ h => h) fun _ _ h => h
      refine wp_try hattempt (fun _ _ h => h) fun e t ht => ?_
      rw [if_pos ht.2]
      split
      · exact ht.1
      · split
        · exact ht.1
        · exact wp_seq (hsleep ht.1) (fun _ _ h => h) fun _ _ h => h
    · cases again with
      | false => exact ⟨hv.1, fun _ => hv.2⟩
      | true =>
        exact post_mono (gone_destroyAttempts hn delays hboth hv) (fun _ _ h => ⟨h.1.1, fun _ => h.1.2⟩) fun _ _ h => h

/-- `destroy_netns` leaves no namespace, and does not raise. -/
theorem gone_destroyNetns {n : String} (hn : x.ofRun n) (hP : Withstands env x r P) (hs : P s) :
    EndsOn env x r (fun _ t => P t ∧ t.host.hasSpace n = false) (fun _ _ => False)
      (NetnsController.destroyNetns n) s := by
  have hboth : Withstands env x r fun t => P t ∧ t.host.hasSpace n = false := hP.and (withstands_gone hn)
  refine wp_seq (gone_destroyAttempts hn [100, 500, 1000] hP hs) (fun _ u hu => ?_) fun _ _ h => h
  refine hboth.perform (removes_beside (by simp)) ⟨hu.1, hu.2 (List.cons_ne_nil _ _)⟩
    (fun _ _ _ ht _ => ht) fun u e _ _ hr => ?_
  obtain ⟨⟨hal, -⟩, -⟩ := hr
  cases hal

theorem cleared_deleteHostVeth (hs : Clearing x r h₀ [] s) :
    EndsOn env x r (fun _ => Cleared x r h₀) (fun _ _ => False) (Pipeline.deleteHostVeth x.vethHost) s := by
  have hdel : EndsOn env x r (fun _ => Cleared x r h₀) (fun _ _ => False) (perform (.run (delLink x.vethHost))) s :=
    withstands_clearing.perform removes_delLink hs
      (fun _ _ _ ht hr => ⟨ht, ht.keeping.no_link (gone_delLink rfl hr.1 hr.2).1⟩) fun _ e _ _ hr =>
      Bool.false_ne_true ((gone_delLink rfl hr.1 hr.2).2 e rfl).2
  exact wp_seq hdel (fun _ _ h => h) fun _ _ h => h

/-- The `finally` block deletes everything the run has made, and does not raise. -/
theorem cleared_teardown (hs : Keeping x r h₀ false s) :
    EndsOn env x r (fun _ => Cleared x r h₀) (fun _ _ => False) (Pipeline.teardown x.req x.testId) s := by
  have hbegin : Clearing x r h₀ (Pipeline.namespaces x.req x.testId) s := ⟨hs, fun n hn => .inl hn⟩
  have hlist : EndsOn env x r (fun _ => Clearing x r h₀ (Pipeline.namespaces x.req x.testId)) (fun _ _ => False)
      (perform .listeners) s := by
    refine withstands_clearing.perform (removes_beside (by simp)) hbegin (fun _ _ _ ht _ => ht) fun u e _ _ hr => ?_
    obtain ⟨⟨hal, -⟩, -⟩ := hr
    cases hal
  have hstops : ∀ {procs : List Nat} {u : Stage}, Clearing x r h₀ (Pipeline.namespaces x.req x.testId) u →
      EndsOn env x r (fun _ => Clearing x r h₀ (Pipeline.namespaces x.req x.testId)) (fun _ _ => False)
        (Co.forEach procs Pipeline.stopListener) u := fun hu =>
    wp_forEach (P := fun _ => Clearing x r h₀ (Pipeline.namespaces x.req x.testId)) (X := fun _ _ => False)
      (fun proc _ _ hv => withstands_stopListener withstands_clearing proc hv) (fun _ h => h) (fun _ _ h => h) hu
  have hdeletes : ∀ {u : Stage}, Clearing x r h₀ (Pipeline.namespaces x.req x.testId) u →
      EndsOn env x r (fun _ => Clearing x r h₀ []) (fun _ _ => False)
        (Co.forEach (Pipeline.namespaces x.req x.testId) NetnsController.destroyNetns) u := by
    intro u hu
    refine wp_forEach (P := fun left t => Clearing x r h₀ left t ∧ ∀ n ∈ left, x.ofRun n) (X := fun _ _ => False)
      (fun n left v hv => ?_) (fun _ h => h.1) (fun _ _ h => h) ⟨hu, fun n hn => hn⟩
    refine post_mono (gone_destroyNetns (hv.2 n List.mem_cons_self) withstands_clearing hv.1)
      (fun _ w hw => ⟨⟨hw.1.keeping, fun m hm => ?_⟩, ?_⟩)
      fun _ _ h => h
    · rcases hw.1.netns m hm with hmem | hgone
      · rcases List.mem_cons.mp hmem with rfl | hmem
        · exact .inr hw.2
        · exact .inl hmem
      · exact .inr hgone
    · exact fun m hm => hv.2 m (List.mem_cons_of_mem n hm)
  refine wp_seq hlist (fun procs t ht => ?_) fun _ _ h => h
  refine wp_seq (hstops ht) (fun _ u hu => ?_) fun _ _ h => h
  exact wp_seq (hdeletes hu) (fun _ v hv => cleared_deleteHostVeth hv) fun _ _ h => h

end Finally

/-! ## Whole runs -/

section Run

variable [U : PyStr.Unicode] {env : Env} {x : RunCall} {r : Caller} {h₀ : Host (Option Caller)} {s t : Stage}

/-- The `try` block with its handlers. -/
theorem orderedTidy_attempt (c : NetnsController) (linked : Bool) : OrderedTidy x linked
    ((Pipeline.body x.cfg x.req x.testId c).tryCatch (Pipeline.handle x.testId)) := by
  have hinside : ∀ {α : Type} {m : Bool} {y : Prog α} (linked : Bool), Only (Req.insideOf x.req x.testId m) y →
      OrderedTidy x linked y :=
    fun linked hy => obeys_and_only (ordered_of_only linked (only_mono (fun _ h => anytime_inside h) hy))
      (only_mono (fun _ h => h.tidy) hy)
  refine obeys_tryCatch (fun linked e => hinside (m := true) linked (inside_handle x.req x.testId e)) ?_
  refine obeys_bind (fun linked _ => hinside linked (inside_setUp c x.cfg x.req x.testId)) ?_
  exact obeys_and_only (ordered_setupTopology c linked) (tidy_setupTopology c)

theorem keeping_ends {α : Type} {y : Prog α} (hy : OrderedTidy x false y) (hs : Keeping x r h₀ false s) :
    EndsOn env x r (fun _ => Keeping x r h₀ false) (fun _ => Keeping x r h₀ false) y s := by
  have hanswer : ∀ linked s a reply s', Allowed x linked a ∧ a.tidy x → Keeping x r h₀ linked s →
      (carrying env x r).answer s a reply s' → Keeping x r h₀ (linkedAfter linked a reply) s' :=
    fun _ _ _ _ _ ha hk hr => keeping_answer ha hk hr.1
  have hall :=
    wp_of_obeys (I := fun _ _ => True) (fun _ _ _ _ => trivial) (fun _ => keeping_stable.restrict) hanswer hy hs
  refine wp_mono (fun reply u hu => ?_) y s hall
  obtain ⟨linked, hk⟩ := hu
  cases reply <;> exact hk.unlinked

theorem cleared_runWith (c : NetnsController) (hs : Keeping x r h₀ false s) :
    EndsOn env x r (fun _ => Cleared x r h₀) (fun _ => Cleared x r h₀) (Pipeline.runWith x.cfg x.req x.testId c) s := by
  have hstatus :
      EndsOn env x r (fun _ => Keeping x r h₀ false) (fun _ _ => False) (perform (.setStatus .running)) s := by
    have hallowed : Allowed x false (.setStatus .running) ∧ (Req.setStatus .running).tidy x := ⟨trivial, trivial⟩
    refine wp_request keeping_stable.restrict hs (fun _ _ => trivial) fun u reply u' hu hr => ?_
    cases reply with
    | ok v => exact keeping_answer hallowed hu hr.1
    | error e =>
      obtain ⟨⟨hal, -⟩, -⟩ := hr
      cases hal
  have hguarded : ∀ {u : Stage}, Keeping x r h₀ false u →
      EndsOn env x r (fun _ => Cleared x r h₀) (fun _ => Cleared x r h₀)
        (Pipeline.guarded x.cfg x.req x.testId c) u := by
    intro u hu
    refine wp_finally (keeping_ends (orderedTidy_attempt c false) hu) (fun _ v hv => ?_) fun _ v hv => ?_
    · exact post_mono (cleared_teardown hv) (fun _ _ h => h) fun _ _ h => h.elim
    · exact post_mono (cleared_teardown hv) (fun _ _ h => h) fun _ _ h => h.elim
  refine wp_seq hstatus (fun _ u hu => ?_) fun _ _ h => h.elim
  refine wp_seq (hguarded hu) (fun early v hv => ?_) fun _ _ h => h
  cases early with
  | some ref => exact hv
  | none =>
    exact withstands_cleared.ends (only_mono (fun _ h => removes_inside (m := true) h)
      (inside_result x.req x.testId)) hv

/-- However the run ended, the host is what the others' commands would have made of it without
    the run. -/
theorem restored {c : NetnsController} (hgiven : x.source = .given c) (hstart : Clear x r h₀)
    {p : Prog Pipeline.ListRef}
    (hrun : Steps (carrying env x r) (x.prog, { host := h₀ }) (p, s)) (hend : (∃ ref, p = .ret ref) ∨ ∃ e, p = .throw e)
    (hafter : After (hosted env x r) s t) : Deed.performed h₀ t.deeds = some t.host := by
  rw [prog_given hgiven] at hrun
  have hcleared : Cleared x r h₀ s := by
    have hw := wp_steps hrun (cleared_runWith c (keeping_start hstart))
    rcases hend with ⟨ref, rfl⟩ | ⟨e, rfl⟩ <;> exact hw
  have hlater := cleared_stable.after hafter hcleared
  rw [← hlater.host]
  exact hlater.keeping.told

end Run

/-! ## A run whose rules are refused -/

/-- The same, as a test. -/
def carries (r : Caller) (s : Stage) (a : Req) (reply : Except PyExc (Reply a)) : Bool :=
  !cancels s.st a reply && match a, reply with
    | .run c, .ok done => keepsAll (commandOf c.argv).2 || decide (done.returncode = 0) ||
      (s.host.perform (some r) (commandOf c.argv).1 (commandOf c.argv).2).isNone
    | .run c, .error e => keepsAll (commandOf c.argv).2 ||
      ((s.host.perform (some r) (commandOf c.argv).1 (commandOf c.argv).2).isNone && e.cls == .calledProcessError)
    | _, _ => true

theorem carried_of_carries {r : Caller} {s : Stage} {a : Req} {reply : Except PyExc (Reply a)}
    (h : carries r s a reply = true) :
    Carried r s a reply := by
  obtain ⟨hquiet, hdel⟩ := Bool.and_eq_true_iff.mp h
  refine ⟨by simpa using hquiet, ?_⟩
  cases a with
  | run c =>
    cases reply with
    | ok done =>
      intro hkeeps
      dsimp only at hdel
      rw [hkeeps, Bool.false_or, Bool.or_eq_true, decide_eq_true_eq, Option.isNone_iff_eq_none] at hdel
      exact hdel
    | error e =>
      intro hkeeps
      dsimp only at hdel
      rw [hkeeps, Bool.false_or, Bool.and_eq_true, beq_iff_eq, Option.isNone_iff_eq_none] at hdel
      exact hdel
  | _ => cases reply <;> trivial

attribute [local instance] PyStr.Unicode.ascii

/-- `nft` refuses the rules. -/
def rulesRefused (s : Stage) : (a : Req) → Except PyExc (Reply a)
  | .run c =>
    if c.argv.contains (.bin "nft") then .ok { returncode := 1, stdout := "", stderr := "Error: syntax error" }
    else hostReply .first s (.run c)
  | a => hostReply .first s a

def refusedSchedule : Script Req Reply PyExc Stage Happening :=
  (staged {} labCall .first rulesRefused (meanwhileDone labDeeds)).guarded (carries .first) fun _ _ => true

/-- Nothing is left of the run; the lab is there. -/
theorem restored_sample :
    ∃ ref s, Steps (carrying {} labCall .first) (labCall.prog, { host := bareHost }) (.ret ref, s) ∧
    (s.st.status = .error ∧ s.deeds.length = 4) ∧ Deed.performed bareHost s.deeds = some s.host := by
  have hplay : Script.returned (fun _ s => s.st.status == .error && s.deeds.length == 4)
      (refusedSchedule.play 200 labCall.prog { host := bareHost }) = true := by
    decide +kernel
  have hfits : refusedSchedule.Fits (carrying {} labCall .first) :=
    staged_fits.guarded (fun _ _ _ => carried_of_carries) fun _ _ _ => trivial
  obtain ⟨ref, s, hrun, hp⟩ := Script.returned_steps hfits hplay
  simp only [Bool.and_eq_true, beq_iff_eq] at hp
  exact ⟨ref, s, hrun, hp, restored rfl bareHost_clear hrun (.inl ⟨ref, rfl⟩) .refl⟩

end Nse
