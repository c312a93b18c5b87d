/-
  Nse.Core.Creation — what `create_netns` does to the host, outcome by outcome.

  A creation without effect raises (`runs_createNetns_idle`). One that took effect has made
  the namespace whatever it reports, and returns when it was not timed out and neither of the
  two `sysctl`s is (`runs_createNetns`).
-/

import Nse.Core.Kernel
import Nse.Lib.NetPairs

namespace Nse.NetnsController

open Coroutine
open NetHost (Host Space)

variable (c : NetnsController)

/-- The command takes effect, whatever is reported, when the host lets it. -/
def takesEffect : Outcome → Bool
  | .done => true
  | .refused _ => false
  | .timedOut performed => performed

/-- Commands one of which may be refused, where none times out before. -/
def Passes (o : List Arg → Nat → Outcome) : List (List Arg) → Prop
  | [] => True
  | argv :: argvs =>
    match o argv 0 with
    | .done => Passes o argvs
    | .refused _ => True
    | .timedOut _ => False

def dadArgvs (name : String) : List (List Arg) :=
  [c.inNetns name (sysctl "net.ipv6.conf.all.accept_dad=0"),
    c.inNetns name (sysctl "net.ipv6.conf.default.accept_dad=0")]

section Creating

variable {ω : Type} {who : ω} {out : Outside} {c} {s : Site ω} {name : String}

def newSpace (who : ω) (name : String) (isUp : Bool) : Space ω where
  name := name
  owner := who
  lo := { name := "lo", stack := some name, isUp }

theorem effect_add (who : ω) (hspace : s.host.hasSpace name = false) :
    s.effect who (addArgv name) = some (s.host.withSpace (newSpace who name false)) :=
  Host.perform_netnsAdd rfl hspace

theorem effect_sysctl (hspace : s.host.hasSpace name = true) (setting : String) :
    s.effect who (c.inNetns name (sysctl setting)) = some s.host := by
  have hcommand : commandOf (c.inNetns name (sysctl setting)) = (some name, .other) := commandOf_execPrefix _ _ _
  rw [Site.effect, hcommand]
  show (if s.host.hasSpace name then some s.host else none) = some s.host
  rw [if_pos hspace]

def disableDad (c : NetnsController) (name : String) : Prog Unit :=
  suppress (·.cls == .calledProcessError) do
    run (c.inNetns name (sysctl "net.ipv6.conf.all.accept_dad=0"))
    run (c.inNetns name (sysctl "net.ipv6.conf.default.accept_dad=0"))

theorem runs_sysctl (who : ω) (out : Outside) (c : NetnsController) (hspace : s.host.hasSpace name = true)
    (setting : String) :
    s.runs who out (run (c.inNetns name (sysctl setting))) =
      (Site.plainly (s.outcomes (c.inNetns name (sysctl setting)) 0), s.spend (c.inNetns name (sysctl setting))) := by
  rw [Site.runs_run, Site.exec_plain (effect_sysctl hspace setting)]

/-- The two `sysctl`s leave the host as it is; they raise where one times out. -/
theorem runs_disableDad (who : ω) (out : Outside) (c : NetnsController) (hspace : s.host.hasSpace name = true) :
    ∃ r t, s.runs who out (disableDad c name) = (r, t) ∧
    t.host = s.host ∧ t.active = s.active ∧ (∀ argv ∉ c.dadArgvs name, t.outcomes argv = s.outcomes argv) ∧
      (r = .ok () ↔ Passes s.outcomes (c.dadArgvs name)) := by
  have hne : c.inNetns name (sysctl "net.ipv6.conf.default.accept_dad=0") ≠
      c.inNetns name (sysctl "net.ipv6.conf.all.accept_dad=0") := by
    intro heq
    have h := List.append_cancel_left heq
    exact absurd h (by decide)
  have hfirst := runs_sysctl who out c hspace "net.ipv6.conf.all.accept_dad=0"
  have hafter : (s.spend (c.inNetns name (sysctl "net.ipv6.conf.all.accept_dad=0"))).host.hasSpace name = true := hspace
  have hsecond := runs_sysctl who out c hafter "net.ipv6.conf.default.accept_dad=0"
  rw [show (s.spend _).outcomes = spent _ s.outcomes from rfl, spent_other hne] at hsecond
  have hspend : ∀ argv ∉ c.dadArgvs name, ∀ o : List Arg → Nat → Outcome,
      spent (c.inNetns name (sysctl "net.ipv6.conf.all.accept_dad=0")) o argv = o argv ∧
        spent (c.inNetns name (sysctl "net.ipv6.conf.default.accept_dad=0")) o argv = o argv := by
    intro argv hargv o
    simp only [dadArgvs, List.mem_cons, List.not_mem_nil, or_false, not_or] at hargv
    exact ⟨spent_other hargv.1 o, spent_other hargv.2 o⟩
  rw [disableDad, suppress, Site.runs_tryCatch, Co.bind_eq, Site.runs_bind, hfirst]
  cases h1 : s.outcomes (c.inNetns name (sysctl "net.ipv6.conf.all.accept_dad=0")) 0 with
  | refused stderr =>
    refine ⟨_, _, rfl, rfl, rfl, fun argv hargv => (hspend argv hargv s.outcomes).1, ?_⟩
    simp [dadArgvs, Passes, h1]
  | timedOut performed =>
    refine ⟨_, _, rfl, rfl, rfl, fun argv hargv => (hspend argv hargv s.outcomes).1, ?_⟩
    simp [dadArgvs, Passes, h1]
  | done =>
    rw [Site.plainly, onValue_ok, hsecond]
    have hboth : ∀ argv ∉ c.dadArgvs name, ((s.spend (c.inNetns name (sysctl "net.ipv6.conf.all.accept_dad=0"))).spend
        (c.inNetns name (sysctl "net.ipv6.conf.default.accept_dad=0"))).outcomes argv = s.outcomes argv := by
      intro argv hargv
      exact ((hspend argv hargv _).2).trans (hspend argv hargv _).1
    cases h2 : s.outcomes (c.inNetns name (sysctl "net.ipv6.conf.default.accept_dad=0")) 0 with
    | done =>
      refine ⟨_, _, rfl, rfl, rfl, hboth, ?_⟩
      simp [dadArgvs, Passes, h1, h2]
    | refused stderr =>
      refine ⟨_, _, rfl, rfl, rfl, hboth, ?_⟩
      simp [dadArgvs, Passes, h1, h2]
    | timedOut performed =>
      refine ⟨_, _, rfl, rfl, rfl, hboth, ?_⟩
      simp [dadArgvs, Passes, h1, h2]

theorem add_not_dad : addArgv name ∉ c.dadArgvs name := by
  intro hdad
  have hother : commandOf (addArgv name) = (some name, .other) := by
    simp only [dadArgvs, List.mem_cons, List.not_mem_nil, or_false] at hdad
    rcases hdad with h | h <;> rw [h] <;> exact commandOf_execPrefix _ _ _
  cases hother

theorem passes_congr : ∀ {argvs : List (List Arg)} {o o' : List Arg → Nat → Outcome},
    (∀ argv ∈ argvs, o argv = o' argv) →
    (Passes o argvs ↔ Passes o' argvs)
  | [], _, _, _ => Iff.rfl
  | argv :: argvs, o, o', h => by
    rw [Passes, Passes, h argv List.mem_cons_self]
    cases o' argv 0 with
    | done => exact passes_congr fun other hother => h other (List.mem_cons_of_mem argv hother)
    | refused stderr => exact Iff.rfl
    | timedOut performed => exact Iff.rfl

/-- A creation without effect raises. -/
theorem runs_createNetns_idle (who : ω) (out : Outside) (c : NetnsController)
    (heffect : takesEffect (s.outcomes (addArgv name) 0) = false) :
    ∃ e, s.runs who out (c.createNetns name) = (.error e, s.spend (addArgv name)) := by
  rw [createNetns, Co.bind_eq, Site.runs_bind, Site.runs_run]
  rcases Site.exec_cases who s (addArgv name) with
    ⟨host, hout, -, -⟩ | ⟨stderr, -, h⟩ | ⟨host, hout, -, -⟩ | ⟨performed, -, -, h⟩
  · rw [hout] at heffect
    cases heffect
  · rw [show s.exec who (ip ["netns", "add", name]) = _ from h]
    exact ⟨_, rfl⟩
  · rw [hout] at heffect
    cases heffect
  · rw [show s.exec who (ip ["netns", "add", name]) = _ from h]
    exact ⟨_, rfl⟩

/-- The namespace was made; `create_netns` returns when no `sysctl` times out. -/
theorem runs_createNetns (who : ω) (out : Outside) (c : NetnsController) (hspace : s.host.hasSpace name = false)
    (heffect : takesEffect (s.outcomes (addArgv name) 0) = true) :
    ∃ r t, s.runs who out (c.createNetns name) = (r, t) ∧ t.host = s.host.withSpace (newSpace who name false) ∧
      (∀ argv, argv ≠ addArgv name → argv ∉ c.dadArgvs name → t.outcomes argv = s.outcomes argv) ∧
      (r = .ok () ↔ s.outcomes (addArgv name) 0 = .done ∧ Passes s.outcomes (c.dadArgvs name)) := by
  have heff := effect_add who hspace
  rw [createNetns, Co.bind_eq, Site.runs_bind, Site.runs_run]
  rcases Site.exec_cases who s (addArgv name) with
    ⟨host, hout, hhost, h⟩ | ⟨stderr, hout, -⟩ | ⟨host, hout, hhost, h⟩ | ⟨performed, hout, hnone, h⟩
  · rw [heff] at hhost
    cases hhost
    rw [show s.exec who (ip ["netns", "add", name]) = _ from h, onValue_ok, Co.bind_eq,
      Site.runs_bind, Site.runs_addActive,
      onValue_ok]
    let made : Site ω := { s.spend (addArgv name) with
      host := s.host.withSpace (newSpace who name false)
      active := if name ∈ s.active then s.active else name :: s.active }
    have hmade : made.host.hasSpace name = true := by simp [made, newSpace]
    obtain ⟨r, t, ht, hhost, -, houtcomes, hr⟩ := runs_disableDad who out c hmade
    refine ⟨r, t, ht, hhost, ?_, ?_⟩
    · intro argv hadd hdad
      rw [houtcomes argv hdad]
      exact spent_other hadd s.outcomes
    · rw [hr]
      have hpasses : Passes (spent (addArgv name) s.outcomes) (c.dadArgvs name) ↔
          Passes s.outcomes (c.dadArgvs name) := by
        apply passes_congr
        intro argv hargv
        apply spent_other
        rintro rfl
        exact add_not_dad hargv
      exact hpasses.trans ⟨fun hp => ⟨hout, hp⟩, fun hp => hp.2⟩
  · rcases hout with hrefused | ⟨-, hnone⟩
    · rw [hrefused] at heffect
      cases heffect
    · rw [heff] at hnone
      cases hnone
  · rw [heff] at hhost
    cases hhost
    rw [show s.exec who (ip ["netns", "add", name]) = _ from h]
    refine ⟨_, _, rfl, rfl, fun argv hadd _ => spent_other hadd s.outcomes, ?_⟩
    rw [hout]
    simp
  · rw [hout] at heffect
    rw [hnone heffect] at heff
    cases heff

end Creating

end Nse.NetnsController
