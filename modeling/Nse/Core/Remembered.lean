/-
  Nse.Core.Remembered — the namespaces a controller made and still knows of.

  Calls. `create_netns`, `destroy_netns` and `cleanup_all`, one after another, each with
  every outcome of its commands: success, an error with any message, a timeout before or
  after the command took effect. Namespaces of others may be there too.

  As built a namespace is forgotten whatever came of its deletion. `existing_are_active`: as
  long as every deletion of a namespace of the controller succeeds within its attempts, and
  no creation times out after it took effect, a namespace it made is in `_active_ns` for as
  long as it exists. A deletion that times out first (`a_forgotten_namespace`) breaks this.
-/

import Nse.Core.Kernel

namespace Nse

open Coroutine
open NetHost (Act Host)

inductive Owner where
  | controller
  | other
  deriving DecidableEq, Repr

namespace NetnsController

/-! ## Calls -/

inductive Call where
  | createNetns (name : String)
  | destroyNetns (name : String)
  | cleanupAll
  deriving DecidableEq, Repr

def Call.prog (c : NetnsController) : Call → Prog Unit
  | .createNetns name => c.createNetns name
  | .destroyNetns name => NetnsController.destroyNetns name
  | .cleanupAll => NetnsController.cleanupAll

/-- A call, and what the outside settles for its commands. -/
structure Turn where
  call : Call
  outcomes : List Arg → Nat → Outcome

variable (c : NetnsController) (out : Outside)

def turn (s : Site Owner) (t : Turn) : Site Owner :=
  (Site.runs .controller out { s with outcomes := t.outcomes } (t.call.prog c)).2

def afterTurns (s : Site Owner) (turns : List Turn) : Site Owner := turns.foldl (turn c out) s

/-- A namespace of the controller exists. -/
def Holds (s : Site Owner) (name : String) : Prop := (name, .controller) ∈ s.host.titles

/-- Every namespace it made that still exists is in `_active_ns`. -/
def Remembered (s : Site Owner) : Prop := ∀ name, Holds s name → name ∈ s.active

/-- The controller has just been built. -/
structure Unused (s : Site Owner) : Prop where
  active : s.active = []
  others : ∀ t ∈ s.host.titles, t.2 = .other

/-! ## When the calls keep track -/

/-- One of this many attempts deletes the namespace. -/
def deletes : Nat → (Nat → Outcome) → Bool
  | 0, _ => false
  | n + 1, o =>
    match o 0 with
    | .done => true
    | .timedOut performed => performed
    | .refused stderr => !alreadyGone (refusal stderr) && deletes n fun k => o (k + 1)

/-- A creation that takes effect does not time out, unless the namespace is known; the
    deletion of a namespace of the controller succeeds in one of three attempts. -/
def KeepsTrack (s : Site Owner) (t : Turn) : Prop :=
  match t.call with
  | .createNetns name =>
    t.outcomes (addArgv name) 0 = .timedOut true → s.host.hasSpace name = true ∨ name ∈ s.active
  | .destroyNetns name => Holds s name → deletes 3 (t.outcomes (delArgv name)) = true
  | .cleanupAll => ∀ name ∈ s.active, Holds s name → deletes 3 (t.outcomes (delArgv name)) = true

def AllKeepTrack (s : Site Owner) : List Turn → Prop
  | [] => True
  | t :: turns => KeepsTrack s t ∧ AllKeepTrack (turn c out s t) turns

/-! ## One deletion -/

section Deletion

variable {ω : Type} {who : ω} {out} {s t : Site ω} {name : String}

theorem titles_del {host : Host ω} (h : s.effect who (delArgv name) = some host) :
    host.titles = s.host.titles.filter (·.1 != name) :=
  Host.titles_perform (a := .netnsDel name) h

theorem no_space_of_refused (h : s.effect who (delArgv name) = none) (o : ω) : (name, o) ∉ s.host.titles := by
  intro hmem
  have hspace : s.host.hasSpace name = true := Host.hasSpace_iff.mpr ⟨o, hmem⟩
  obtain ⟨host, hhost⟩ :=
    (Host.perform_netnsDel rfl hspace : ∃ host, s.host.perform who none (.netnsDel name) = some host)
  have heffect : s.effect who (delArgv name) = some host := hhost
  rw [h] at heffect
  cases heffect

variable {delay n : Nat} {delays : List Nat}

theorem runs_attempt (h : s.exec who (delArgv name) = (.ok (), t)) :
    s.runs who out (destroyAttempts name (delay :: delays)) = (.ok (), t) := by
  have hrun : s.runs who out (run (ip ["netns", "del", name])) = _ := Site.runs_run.trans h
  rw [destroyAttempts]
  simp [Site.runs_bind, Site.runs_tryCatch, hrun]

theorem runs_attempt_refused {stderr : String} (h : s.exec who (delArgv name) = (.error (refusal stderr), t)) :
    s.runs who out (destroyAttempts name (delay :: delays)) =
      if alreadyGone (refusal stderr) then (.ok (), t) else t.runs who out (destroyAttempts name delays) := by
  have hrun : s.runs who out (run (ip ["netns", "del", name])) = _ := Site.runs_run.trans h
  have hcls : (refusal stderr).cls = .calledProcessError := rfl
  cases hgone : alreadyGone (refusal stderr) with
  | true =>
    rw [destroyAttempts]
    simp [Site.runs_bind, Site.runs_tryCatch, hrun, hgone, hcls]
  | false =>
    cases delays with
    | nil =>
      rw [destroyAttempts]
      simp [Site.runs_bind, Site.runs_tryCatch, hrun, hgone, hcls, destroyAttempts]
    | cons d ds =>
      rw [destroyAttempts]
      simp [Site.runs_bind, Site.runs_tryCatch, hrun, hgone, hcls]
      rw [Site.runs_sleep]
      rfl

theorem runs_attempt_expired (h : s.exec who (delArgv name) = (.error expiry, t)) :
    s.runs who out (destroyAttempts name (delay :: delays)) = (.ok (), t) := by
  have hrun : s.runs who out (run (ip ["netns", "del", name])) = _ := Site.runs_run.trans h
  have hcls : expiry.cls = .timeoutExpired := rfl
  rw [destroyAttempts]
  simp [Site.runs_bind, Site.runs_tryCatch, hrun, hcls]

/-- What the attempts come to. -/
structure Attempted (name : String) (attempts : Nat) (s t : Site ω) : Prop where
  active : t.active = s.active
  outcomes : ∀ argv, argv ≠ delArgv name → t.outcomes argv = s.outcomes argv
  spaces : ∀ x ∈ t.host.titles, x ∈ s.host.titles
  gone : deletes attempts (s.outcomes (delArgv name)) = true → ∀ o, (name, o) ∉ t.host.titles

theorem Attempted.giveUp (hdeletes : deletes n (s.outcomes (delArgv name)) = true → ∀ o, (name, o) ∉ s.host.titles) :
    Attempted name n s (s.spend (delArgv name)) where
  active := rfl
  outcomes _ hne := spent_other hne s.outcomes
  spaces _ hx := hx
  gone := hdeletes

theorem Attempted.performed {host : Host ω} (heffect : s.effect who (delArgv name) = some host) :
    Attempted name n s { s.spend (delArgv name) with host } where
  active := rfl
  outcomes _ hne := spent_other hne s.outcomes
  spaces x hx := by
    have htitles : host.titles = s.host.titles.filter (·.1 != name) := titles_del heffect
    rw [show host.titles = _ from htitles] at hx
    exact (List.mem_filter.mp hx).1
  gone _ o hmem := by
    have htitles : host.titles = s.host.titles.filter (·.1 != name) := titles_del heffect
    rw [show host.titles = _ from htitles] at hmem
    simpa using (List.mem_filter.mp hmem).2

/-- The attempts end; what they delete is what the outcomes say. -/
theorem attempted (who : ω) (out : Outside) (name : String) : ∀ (delays : List Nat) (s : Site ω),
    ∃ t, s.runs who out (destroyAttempts name delays) = (.ok (), t) ∧ Attempted name delays.length s t
  | [], s => ⟨s, rfl, rfl, fun _ _ => rfl, fun _ hx => hx, fun h => absurd h (by simp [deletes])⟩
  | delay :: delays, s => by
    rcases Site.exec_cases who s (delArgv name) with
      ⟨host, -, heffect, h⟩ | ⟨stderr, hout, h⟩ | ⟨host, -, heffect, h⟩ | ⟨performed, hout, hnone, h⟩
    · exact ⟨_, runs_attempt h, .performed heffect⟩
    · have hrefused : deletes (delay :: delays).length (s.outcomes (delArgv name)) = true →
          (∀ o, (name, o) ∉ s.host.titles) ∨ alreadyGone (refusal stderr) = false ∧
            deletes delays.length ((s.spend (delArgv name)).outcomes (delArgv name)) = true := by
        intro hdeletes
        rcases hout with hout | ⟨-, hnone⟩
        · right
          simpa [deletes, hout, Site.spend, spent_self] using hdeletes
        · left
          exact no_space_of_refused hnone
      cases hgone : alreadyGone (refusal stderr) with
      | true =>
        refine ⟨_, by rw [runs_attempt_refused h, hgone, if_pos rfl], .giveUp fun hdeletes => ?_⟩
        rcases hrefused hdeletes with habsent | ⟨hfalse, -⟩
        · exact habsent
        · rw [hgone] at hfalse
          cases hfalse
      | false =>
        obtain ⟨t, ht, hat⟩ := attempted who out name delays (s.spend (delArgv name))
        refine ⟨t, by rw [runs_attempt_refused h, hgone]; exact ht, hat.active, ?_, hat.spaces, ?_⟩
        · intro argv hne
          rw [hat.outcomes argv hne]
          exact spent_other hne s.outcomes
        · intro hdeletes o hmem
          rcases hrefused hdeletes with habsent | ⟨-, hrest⟩
          · exact habsent o (hat.spaces _ hmem)
          · exact hat.gone hrest o hmem
    · exact ⟨_, runs_attempt_expired h, .performed heffect⟩
    · refine ⟨_, runs_attempt_expired h, .giveUp fun hdeletes => ?_⟩
      have hperformed : performed = true := by simpa [deletes, hout] using hdeletes
      exact no_space_of_refused (hnone hperformed)

theorem destroyed (who : ω) (out : Outside) (name : String) (s : Site ω) : ∃ t, s.runs who out (destroyNetns name) =
    (.ok (), { t with active := t.active.filter (· != name) }) ∧ Attempted name 3 s t := by
  obtain ⟨t, ht, hat⟩ := attempted who out name [100, 500, 1000] s
  refine ⟨t, ?_, hat⟩
  rw [destroyNetns, Co.bind_eq, Site.runs_bind, ht]
  exact Site.runs_discardActive name

end Deletion

/-! ## Each call -/

section Calls

variable {c out} {s : Site Owner} {name : String}

/-- The deletion of a namespace that is there succeeds. -/
def Deleted (s : Site Owner) (name : String) : Prop := Holds s name → deletes 3 (s.outcomes (delArgv name)) = true

theorem remembered_destroy {t : Site Owner} (hs : Remembered s) (hname : Deleted s name) (hat : Attempted name 3 s t) :
    Remembered { t with active := t.active.filter (· != name) } := by
  intro other hholds
  have hbefore : Holds s other := hat.spaces _ hholds
  have hne : other ≠ name := by
    rintro rfl
    exact hat.gone (hname hbefore) _ hholds
  show other ∈ t.active.filter (· != name)
  rw [hat.active]
  exact List.mem_filter.mpr ⟨hs other hbefore, by simpa using hne⟩

theorem remembered_destroyNetns (hs : Remembered s) (hname : Deleted s name) :
    Remembered (s.runs .controller out (destroyNetns name)).2 := by
  obtain ⟨t, ht, hat⟩ := destroyed Owner.controller out name s
  rw [ht]
  exact remembered_destroy hs hname hat

theorem remembered_destroyAll : ∀ (names : List String) (s : Site Owner), Remembered s →
    (∀ name ∈ names, Deleted s name) →
    Remembered (s.runs .controller out (Co.forEach names destroyNetns)).2
  | [], _, hs, _ => hs
  | name :: names, s, hs, hnames => by
    obtain ⟨t, ht, hat⟩ := destroyed Owner.controller out name s
    rw [Site.runs_forEach, ht]
    apply remembered_destroyAll names
    · exact remembered_destroy hs (hnames name List.mem_cons_self) hat
    · intro other hother hholds
      have hbefore : Holds s other := hat.spaces _ hholds
      by_cases hne : other = name
      · subst hne
        exact absurd hholds (hat.gone (hnames other List.mem_cons_self hbefore) _)
      · have hargv : delArgv other ≠ delArgv name := by
          intro heq
          simp [delArgv, ip, hne] at heq
        show deletes 3 (t.outcomes (delArgv other)) = true
        rw [hat.outcomes _ hargv]
        exact hnames other (List.mem_cons_of_mem name hother) hbefore

theorem remembered_cleanupAll (hs : Remembered s) (hall : ∀ name ∈ s.active, Deleted s name) :
    Remembered (s.runs .controller out cleanupAll).2 := by
  rw [cleanupAll, Co.bind_eq, Site.runs_bind]
  exact remembered_destroyAll _ s hs fun name hname => hall name ((out.order_perm s.active).mem_iff.mp hname)

/-- A request that makes no namespace and forgets none. -/
def Keeps (a : Req) : Prop :=
  match a with
  | .run cmd => ∀ name, (commandOf cmd.argv).2 ≠ .netnsAdd name
  | .discardActive _ => False
  | _ => True

theorem remembered_exec {argv : List Arg} (hs : Remembered s) (hadd : ∀ name, (commandOf argv).2 ≠ .netnsAdd name) :
    Remembered (s.exec .controller argv).2 := by
  intro name hholds
  rw [Site.exec_active]
  apply hs name
  rcases Site.exec_host .controller s argv with hsame | heffect
  · rw [Holds, hsame] at hholds
    exact hholds
  · have htitles := Host.titles_perform heffect
    rw [Holds, htitles] at hholds
    cases hact : (commandOf argv).2 with
    | netnsAdd other => exact absurd hact (hadd other)
    | netnsDel other =>
      rw [hact] at hholds
      exact (List.mem_filter.mp hholds).1
    | _ =>
      rw [hact] at hholds
      exact hholds

theorem remembered_answer (s : Site Owner) (a : Req) (ha : Keeps a) (hs : Remembered s) :
    Remembered (s.answer .controller out a).2 := by
  cases a with
  | run cmd => exact remembered_exec hs ha
  | discardActive other => exact absurd ha id
  | addActive other =>
    intro name hholds
    show name ∈ (if other ∈ s.active then s.active else other :: s.active)
    split
    · exact hs name hholds
    · exact List.mem_cons_of_mem other (hs name hholds)
  | _ => exact hs

theorem remembered_new {host : Host Owner} (hs : Remembered s)
    (heffect : s.effect .controller (addArgv name) = some host)
    {active : List String} (hname : name ∈ active) (hactive : ∀ n ∈ s.active, n ∈ active)
      (outcomes : List Arg → Nat → Outcome) :
    Remembered { host, active, outcomes } := by
  intro other hholds
  have htitles : host.titles = (name, .controller) :: s.host.titles := Host.titles_perform (a := .netnsAdd name) heffect
  rw [Holds, show host.titles = _ from htitles] at hholds
  rcases List.mem_cons.mp hholds with heq | hbefore
  · cases heq
    exact hname
  · exact hactive other (hs other hbefore)

theorem remembered_createNetns (hs : Remembered s)
    (hadd : s.outcomes (addArgv name) 0 = .timedOut true → s.host.hasSpace name = true ∨ name ∈ s.active) :
    Remembered (s.runs .controller out (c.createNetns name)).2 := by
  have hsame : Remembered (s.spend (addArgv name)) := hs
  rw [createNetns, Co.bind_eq, Site.runs_bind, Site.runs_run]
  rcases Site.exec_cases .controller s (addArgv name) with
    ⟨host, -, heffect, h⟩ | ⟨stderr, -, h⟩ | ⟨host, hout, heffect, h⟩ | ⟨performed, -, -, h⟩
  · rw [show s.exec .controller (ip ["netns", "add", name]) = _ from h, onValue_ok, Co.bind_eq, Site.runs_bind,
      Site.runs_addActive, onValue_ok]
    apply Site.runs_keeps remembered_answer
    · apply c.asks_disableDad
      intro setting other
      show (commandOf (Nse.execPrefix c.useNsenter name ++ sysctl setting)).2 ≠ _
      rw [commandOf_execPrefix]
      intro heq
      cases heq
    · apply remembered_new hs heffect
      · show name ∈ if name ∈ s.active then s.active else name :: s.active
        split
        · assumption
        · exact List.mem_cons_self
      · intro n hn
        show n ∈ if name ∈ s.active then s.active else name :: s.active
        split
        · exact hn
        · exact List.mem_cons_of_mem name hn
  · rw [show s.exec .controller (ip ["netns", "add", name]) = _ from h]
    exact hsame
  · rw [show s.exec .controller (ip ["netns", "add", name]) = _ from h]
    rcases hadd hout with hspace | hactive
    · have hnone : s.host.hasSpace name = false := Host.no_space_of_netnsAdd heffect
      rw [hspace] at hnone
      cases hnone
    · exact remembered_new hs heffect hactive (fun _ hn => hn) _
  · rw [show s.exec .controller (ip ["netns", "add", name]) = _ from h]
    exact hsame

/-! ## Runs -/

theorem remembered_turn {t : Turn} (hs : Remembered s) (ht : KeepsTrack s t) : Remembered (turn c out s t) := by
  obtain ⟨call, outcomes⟩ := t
  have hstart : Remembered { s with outcomes } := hs
  cases call with
  | createNetns name => exact remembered_createNetns hstart ht
  | destroyNetns name => exact remembered_destroyNetns hstart ht
  | cleanupAll => exact remembered_cleanupAll hstart ht

theorem remembered_afterTurns : ∀ (turns : List Turn) (s : Site Owner), Remembered s → AllKeepTrack c out s turns →
    Remembered (afterTurns c out s turns)
  | [], _, hs, _ => hs
  | t :: turns, s, hs, h => remembered_afterTurns turns (turn c out s t) (remembered_turn hs h.1) h.2

/-- Whatever is called, in whatever order, every namespace the controller made that still
    exists is in `_active_ns`, as long as no creation is lost and no deletion given up. -/
theorem existing_are_active (hs : Unused s) (turns : List Turn) (h : AllKeepTrack c out s turns) :
    Remembered (afterTurns c out s turns) := by
  apply remembered_afterTurns turns s _ h
  intro name hholds
  cases hs.others _ hholds

end Calls

end NetnsController

/-! ## As built -/

/-- A set is listed as it is kept. -/
def listedOutside : Outside where
  order names := names
  order_perm names := .refl names
  others _ := .error { cls := .otherError, text := "" }

/-- A host without namespaces. -/
def emptySite : Site Owner where
  host := { fixed := [{ name := "lo", stack := none, isUp := true }] }
  outcomes _ _ := .done

theorem emptySite_unused : NetnsController.Unused emptySite where
  active := rfl
  others t ht := absurd ht (by simp [emptySite, Host.titles])

/-- The namespace is made, and its deletion times out before it took effect. -/
def lostDeletion : List NetnsController.Turn :=
  [{ call := .createNetns "nse_a1", outcomes := fun _ _ => .done },
    { call := .destroyNetns "nse_a1", outcomes := fun _ _ => .timedOut false }]

theorem a_forgotten_namespace :
    ¬ ∀ (c : NetnsController) (out : Outside) (s : Site Owner) (turns : List NetnsController.Turn),
    NetnsController.Unused s → NetnsController.Remembered (NetnsController.afterTurns c out s turns) := by
  intro h
  have hholds : ("nse_a1", .controller) ∈
      (NetnsController.afterTurns { useNsenter := false } listedOutside emptySite lostDeletion).host.titles := by
    decide +kernel
  have hactive := h _ _ _ _ emptySite_unused "nse_a1" hholds
  revert hactive
  decide +kernel

/-- The first attempt to delete the namespace is refused, the second deletes it. -/
def heldDeletion : List NetnsController.Turn :=
  [{ call := .createNetns "nse_a1", outcomes := fun _ _ => .done },
    { call := .createNetns "nse_b2", outcomes := fun _ _ => .done },
    { call := .destroyNetns "nse_a1"
      outcomes := fun _ k => if k = 0 then .refused "Device or resource busy" else .done }]

theorem existing_are_active_sample : NetnsController.Remembered
    (NetnsController.afterTurns { useNsenter := true } listedOutside emptySite heldDeletion) := by
  apply NetnsController.existing_are_active emptySite_unused
  refine ⟨?_, ?_, ?_, trivial⟩
  · intro hlost
    cases hlost
  · intro hlost
    cases hlost
  · intro _
    decide +kernel

end Nse
