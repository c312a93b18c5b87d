/-
  Nse.Core.Lifetime — what `create_namespace` leaves on the host.

  The namespace is set up, the body of the `async with` runs, and the interface and the
  namespace are deleted. Any command of the setup may be refused or time out, before or
  after it took effect; the body may raise anything, cancellation included.

  The setup stands before the `try`. `nothing_left_iff`: when deletions succeed, nothing is
  left exactly when the whole setup succeeds (the two `sysctl`s may be refused), or the
  namespace is not made at all. Every other failure leaves the namespace
  (`a_namespace_left_behind`).
-/

import Nse.Core.Creation
import Nse.Core.NamespaceSandbox
import Nse.Core.Remembered

namespace Nse.NetnsController

open Coroutine
open NetHost (Act End Host Space)
open NamespaceSandbox (extIfaceOf peerIfaceOf)

variable (c : NetnsController)

/-! ## The setup -/

def loArgv (name : String) : List Arg := c.inNetns name (ip ["link", "set", "lo", "up"])

def vethArgvs (netns vethHost vethPeer : String) (hostIps peerIps : List String) : List (List Arg) :=
  [ip ["link", "add", vethHost, "type", "veth", "peer", "name", vethPeer],
    ip ["link", "set", vethPeer, "netns", netns],
    ip ["addr", "add", pickAddress false "10.0.0.1/24" hostIps, "dev", vethHost],
    ip ["addr", "add", pickAddress true "fd00::1/64" hostIps, "dev", vethHost],
    ip ["link", "set", vethHost, "up"],
    c.inNetns netns (ip ["addr", "add", pickAddress false "10.0.0.2/24" peerIps, "dev", vethPeer]),
    c.inNetns netns (ip ["addr", "add", pickAddress true "fd00::2/64" peerIps, "dev", vethPeer]),
    c.inNetns netns (ip ["link", "set", vethPeer, "up"]),
    c.loArgv netns]

/-- The commands after the namespace has been made. -/
def furnishArgvs (name : String) (hostIps peerIps : List String) : List (List Arg) :=
  c.loArgv name :: c.vethArgvs name (extIfaceOf name) (peerIfaceOf name) hostIps peerIps

/-- Every command of the setup succeeds, the two `sysctl`s apart. -/
structure SetUpSucceeds (name : String) (hostIps peerIps : List String) (o : List Arg → Nat → Outcome) : Prop where
  made : o (addArgv name) 0 = .done
  tuned : Passes o (c.dadArgvs name)
  furnished : Granted o (c.furnishArgvs name hostIps peerIps)

/-! ## What is left -/

section Left

variable {ω : Type} (s : Site ω) (name : String)

/-- Before: the names are free. -/
structure Clear : Prop where
  wellFormed : s.host.WellFormed
  space : s.host.hasSpace name = false
  ext : s.host.has none (extIfaceOf name) = false
  peer : s.host.has none (peerIfaceOf name) = false
  active : name ∉ s.active

/-- After: neither the namespace nor anything in it, neither end of the pair, and the name is
    not in `_active_ns`. -/
structure NothingLeft : Prop where
  space : s.host.hasSpace name = false
  inside : ∀ dev, s.host.hasPair (some name) dev = false
  ext : s.host.hasPair none (extIfaceOf name) = false
  peer : s.host.hasPair none (peerIfaceOf name) = false
  active : name ∉ s.active

def delLinkArgv (name : String) : List Arg := ip ["link", "del", extIfaceOf name]

/-- Each time, the deletion of the interface and that of the namespace succeed, where there is
    something to delete. -/
structure DeletionsSucceed (o : List Arg → Nat → Outcome) : Prop where
  link : ∀ k, o (delLinkArgv name) k = .done
  space : ∀ k, o (delArgv name) k = .done

/-- A request of the body: it makes no pair outside namespaces and moves no interface. -/
def StaysPut (a : Req) : Prop :=
  match a with
  | .run cmd => (commandOf cmd.argv).2.staysPut (commandOf cmd.argv).1 = true
  | _ => True

end Left

/-! ## Deletions to come -/

section Certain

variable {ω : Type} {who : ω} {out : Outside} {s : Site ω} {name : String} {o : List Arg → Nat → Outcome}

theorem certain_spent {argv : List Arg} (h : ∀ k, o argv k = .done) (other : List Arg) :
    ∀ k, spent other o argv k = .done := by
  intro k
  unfold spent
  split
  · exact h (k + 1)
  · exact h k

theorem DeletionsSucceed.spent (h : DeletionsSucceed name o) (argv : List Arg) : DeletionsSucceed name (spent argv o) :=
  ⟨certain_spent h.link argv, certain_spent h.space argv⟩

theorem DeletionsSucceed.exec (h : DeletionsSucceed name s.outcomes) (argv : List Arg) :
    DeletionsSucceed name (s.exec who argv).2.outcomes := by
  rcases Site.exec_cases who s argv with
    ⟨host, -, -, he⟩ | ⟨stderr, -, he⟩ | ⟨host, -, -, he⟩ | ⟨performed, -, -, he⟩ <;> rw [he] <;> exact h.spent argv

/-- What the deletions at the end rest on. -/
structure Ready (s : Site ω) (name : String) : Prop where
  deletions : DeletionsSucceed name s.outcomes
  placed : s.host.Placed
  peer : s.host.hasPair none (peerIfaceOf name) = false

theorem ready_exec {argv : List Arg} (hs : Ready s name)
    (hput : (commandOf argv).2.staysPut (commandOf argv).1 = true) :
    Ready (s.exec who argv).2 name := by
  refine ⟨hs.deletions.exec argv, ?_, ?_⟩
  · rcases Site.exec_host who s argv with hsame | heffect
    · rw [hsame]
      exact hs.placed
    · exact Host.placed_perform hs.placed heffect
  · rcases Site.exec_host who s argv with hsame | heffect
    · rw [hsame]
      exact hs.peer
    · exact Host.no_pair_perform hput heffect hs.peer

theorem ready_answer (s : Site ω) (a : Req) (ha : StaysPut a) (hs : Ready s name) :
    Ready (s.answer who out a).2 name := by
  cases a with
  | run cmd => exact ready_exec hs ha
  | _ => exact ⟨hs.deletions, hs.placed, hs.peer⟩

end Certain

/-! ## The end -/

section Release

variable {ω : Type} {who : ω} {out : Outside} {s : Site ω} {name : String}

/-- The `finally` block. -/
def release (name : String) : Prog Unit := do
  suppress (fun e => e.cls == .calledProcessError || e.isOSError) (run (ip ["link", "del", extIfaceOf name]))
  destroyNetns name

theorem runs_delLink (who : ω) (out : Outside) (hs : Ready s name) : ∃ t, s.runs who out
    (suppress (fun e => e.cls == .calledProcessError || e.isOSError) (run (ip ["link", "del", extIfaceOf name]))) =
      (.ok (), t) ∧
      Ready t name ∧ t.host.hasPair none (extIfaceOf name) = false := by
  have hready : Ready (s.exec who (delLinkArgv name)).2 name := ready_exec hs rfl
  have hexec : s.runs who out (run (ip ["link", "del", extIfaceOf name])) = s.exec who (delLinkArgv name) :=
    Site.runs_run
  have hdone := hs.deletions.link 0
  rw [suppress, Site.runs_tryCatch, hexec]
  rcases Site.exec_cases who s (delLinkArgv name) with
    ⟨host, -, heffect, h⟩ | ⟨stderr, hout, h⟩ | ⟨host, hout, -, -⟩ | ⟨performed, hout, -, -⟩
  · rw [h] at hready ⊢
    exact ⟨_, rfl, hready, Host.no_pair_linkDel heffect⟩
  · rw [h] at hready ⊢
    refine ⟨_, rfl, hready, ?_⟩
    rcases hout with hrefused | ⟨-, hnone⟩
    · rw [hdone] at hrefused
      cases hrefused
    · exact Host.no_pair_of_refused rfl hnone
  · rw [hdone] at hout
    cases hout
  · rw [hdone] at hout
    cases hout

theorem deletes_certain {o : Nat → Outcome} (h : ∀ k, o k = .done) : deletes 3 o = true := by
  rw [deletes, h 0]

/-- With every deletion to come granted, the `finally` block leaves nothing. -/
theorem nothing_left_of_ready (who : ω) (out : Outside) (hs : Ready s name) :
    NothingLeft (s.runs who out (release name)).2 name := by
  obtain ⟨t, ht, hready, hext⟩ := runs_delLink who out hs
  obtain ⟨u, hu, hat⟩ := destroyed who out name t
  have hkeeps : ∀ (x : Site ω) (a : Req), StaysPut a → (Ready x name ∧ x.host.hasPair none (extIfaceOf name) = false) →
      Ready (x.answer who out a).2 name ∧ (x.answer who out a).2.host.hasPair none (extIfaceOf name) = false := by
    intro x a ha ⟨hx, hno⟩
    refine ⟨ready_answer x a ha hx, ?_⟩
    cases a with
    | run cmd =>
      rcases Site.exec_host who x cmd.argv with hsame | heffect
      · exact (congrArg (Host.hasPair · none (extIfaceOf name)) hsame).trans hno
      · exact Host.no_pair_perform ha heffect hno
    | _ => exact hno
  have hasks : Only StaysPut (destroyNetns name) := asks_destroyNetns rfl (fun _ => trivial) trivial
  have hend := Site.runs_keeps hkeeps hasks ⟨hready, hext⟩
  rw [release, Co.bind_eq, Site.runs_bind, ht, onValue_ok, hu]
  rw [hu] at hend
  have hspace : u.host.hasSpace name = false := by
    rw [Bool.eq_false_iff]
    intro hspace
    obtain ⟨o, ho⟩ := Host.hasSpace_iff.mp hspace
    exact hat.gone (deletes_certain hready.deletions.space) o ho
  refine ⟨hspace, fun dev => ?_, hend.2, hend.1.peer, ?_⟩
  · exact hend.1.placed.vacant hspace dev
  · show name ∉ u.active.filter (· != name)
    simp

end Release

section SetUp

variable {ω : Type} {who : ω} {out : Outside} {c} {s : Site ω} {name : String}

/-! ## Furnishing -/

theorem peer_ne_lo (name : String) : peerIfaceOf name ≠ "lo" := by
  intro heq
  have h := congrArg String.toList heq
  rw [peerIfaceOf, String.toList_append] at h
  exact absurd (congrArg List.head? h) (by simp)

theorem ext_ne_peer (name : String) : extIfaceOf name ≠ peerIfaceOf name := by
  intro heq
  have h := congrArg String.toList heq
  rw [extIfaceOf, peerIfaceOf, String.toList_append, String.toList_append] at h
  simp at h

theorem commands_veth (netns vethHost vethPeer : String) (hostIps peerIps : List String) :
    (c.vethArgvs netns vethHost vethPeer hostIps peerIps).map commandOf =
      Host.vethActs none netns vethHost vethPeer
        (pickAddress false "10.0.0.1/24" hostIps) (pickAddress true "fd00::1/64" hostIps)
        (pickAddress false "10.0.0.2/24" peerIps) (pickAddress true "fd00::2/64" peerIps) ++
          [(some netns, .linkUp "lo")] := by
  simp only [vethArgvs, loArgv, List.map_cons, List.map_nil, commandOf_inNetns]
  rfl

theorem commands_furnish (hostIps peerIps : List String) : (c.furnishArgvs name hostIps peerIps).map commandOf =
    (some name, .linkUp "lo") :: (Host.vethActs none name (extIfaceOf name) (peerIfaceOf name)
      (pickAddress false "10.0.0.1/24" hostIps) (pickAddress true "fd00::1/64" hostIps)
      (pickAddress false "10.0.0.2/24" peerIps) (pickAddress true "fd00::2/64" peerIps) ++
        [(some name, .linkUp "lo")]) := by
  rw [furnishArgvs, List.map_cons, loArgv, commandOf_inNetns, commands_veth]
  rfl

/-- The host once everything has been set up. -/
def furnished (who : ω) (h : Host ω) (name : String) (hostIps peerIps : List String) : Host ω :=
  (h.withSpace (newSpace who name true)).withPair (Host.builtPair who none name (extIfaceOf name) (peerIfaceOf name)
    (pickAddress false "10.0.0.1/24" hostIps) (pickAddress true "fd00::1/64" hostIps)
    (pickAddress false "10.0.0.2/24" peerIps) (pickAddress true "fd00::2/64" peerIps))

theorem performAll_furnish (who : ω) (c : NetnsController) (hs : Clear s name) (hostIps peerIps : List String) :
    (s.host.withSpace (newSpace who name false)).performAll who ((c.furnishArgvs name hostIps peerIps).map commandOf) =
      some (furnished who s.host name hostIps peerIps) := by
  have hvacant := hs.wellFormed.vacant hs.space
  have hlo : ∀ isUp, (newSpace who name isUp).lo.at (some name) "lo" = true := by
    intro isUp
    simp [newSpace, End.at]
  have hstack : ∀ isUp, (s.host.withSpace (newSpace who name isUp)).hasStack (some name) = true := by
    intro isUp
    simp [Host.hasStack, newSpace]
  have hhas : ∀ isUp, (s.host.withSpace (newSpace who name isUp)).has (some name) "lo" = true := by
    intro isUp
    rw [Host.has_withSpace, hlo, Bool.true_or]
  have hup : ∀ isUp, (s.host.withSpace (newSpace who name isUp)).mapEnds
      (NetHost.onEnd (some name) "lo" fun e => { e with isUp := true }) =
        s.host.withSpace (newSpace who name true) := by
    intro isUp
    rw [Host.mapEnds_withSpace, Host.mapEnds_absent (hvacant "lo"), NetHost.onEnd, if_pos (hlo isUp)]
    rfl
  have hspace : (s.host.withSpace (newSpace who name true)).hasSpace name = true := by simp [newSpace]
  have hext : (s.host.withSpace (newSpace who name true)).has none (extIfaceOf name) = false := by
    simp [newSpace, End.at, hs.ext]
  have hpeer : (s.host.withSpace (newSpace who name true)).has none (peerIfaceOf name) = false := by
    simp [newSpace, End.at, hs.peer]
  have hfree : (s.host.withSpace (newSpace who name true)).has (some name) (peerIfaceOf name) = false := by
    simp [newSpace, End.at, hvacant, Ne.symm (peer_ne_lo name)]
  have hveth := Host.performAll_veth who rfl hspace (ext_ne_peer name) hext hpeer hfree (Option.some_ne_none name).symm
      (hs.wellFormed.live.withSpace _)
    (pickAddress false "10.0.0.1/24" hostIps) (pickAddress true "fd00::1/64" hostIps)
    (pickAddress false "10.0.0.2/24" peerIps) (pickAddress true "fd00::2/64" peerIps)
  have hlast : (furnished who s.host name hostIps peerIps).perform who (some name) (.linkUp "lo") =
      some (furnished who s.host name hostIps peerIps) := by
    have hst : (furnished who s.host name hostIps peerIps).hasStack (some name) = true :=
      Host.hasStack_withPair.trans (hstack true)
    have hdev : (furnished who s.host name hostIps peerIps).has (some name) "lo" = true := by
      rw [furnished, Host.has_withPair, hhas, Bool.or_true]
    rw [Host.perform_linkUp hst hdev, furnished, Host.mapEnds_withPair, hup]
    simp [Host.builtPair, NetHost.Pair.map, NetHost.onEnd, End.at, peer_ne_lo]
  rw [commands_furnish, Host.performAll, Host.perform_linkUp (hstack false) (hhas false), Option.bind_some, hup,
    Host.performAll_append, hveth, Option.bind_some, Host.performAll]
  show ((furnished who s.host name hostIps peerIps).perform who (some name) (.linkUp "lo")).bind _ = _
  rw [hlast]
  rfl

theorem ready_furnished (hs : Clear s name) {hostIps peerIps : List String} {t : Site ω}
    (ht : t.host = furnished who s.host name hostIps peerIps) (hdel : DeletionsSucceed name t.outcomes) :
      Ready t name := by
  have hspace : (s.host.withSpace (newSpace who name false)).Placed :=
    Host.placed_perform hs.wellFormed.placed (effect_add who hs.space)
  refine ⟨hdel, ?_, ?_⟩
  · rw [ht]
    exact Host.placed_performAll hspace (performAll_furnish who { useNsenter := false } hs hostIps peerIps)
  · rw [ht, furnished, Host.hasPair_withPair]
    have hbefore : s.host.hasPair none (peerIfaceOf name) = false := Host.hasPair_of_has hs.peer
    show (_ || s.host.hasPair none (peerIfaceOf name)) = false
    rw [hbefore]
    simp [Host.builtPair, NetHost.Pair.any, End.at, ext_ne_peer]

/-! ## The whole of it -/

/-- A request that deletes no namespace. -/
def Spares (a : Req) : Prop :=
  match a with
  | .run cmd => ∀ n, (commandOf cmd.argv).2 ≠ .netnsDel n
  | _ => True

theorem space_answer (s : Site ω) (a : Req) (ha : Spares a) (hs : s.host.hasSpace name = true) :
    (s.answer who out a).2.host.hasSpace name = true := by
  cases a with
  | run cmd =>
    rcases Site.exec_host who s cmd.argv with hsame | heffect
    · exact (congrArg (Host.hasSpace · name) hsame).trans hs
    · obtain ⟨o, ho⟩ := Host.hasSpace_iff.mp hs
      have htitles := Host.titles_perform heffect
      apply Host.hasSpace_iff.mpr
      refine ⟨o, ?_⟩
      show (name, o) ∈ (s.exec who cmd.argv).2.host.titles
      rw [htitles]
      cases hact : (commandOf cmd.argv).2 with
      | netnsDel n => exact absurd hact (ha n)
      | netnsAdd n => exact List.mem_cons_of_mem _ ho
      | _ => exact ho
  | _ => exact hs

theorem deletions_runs (who : ω) (out : Outside) (hdel : DeletionsSucceed name s.outcomes) {α : Type} (x : Prog α) :
    DeletionsSucceed name (s.runs who out x).2.outcomes := by
  have hkeeps : ∀ (t : Site ω) (a : Req), True → DeletionsSucceed name t.outcomes →
      DeletionsSucceed name (t.answer who out a).2.outcomes := by
    intro t a _ ht
    cases a with
    | run cmd => exact ht.exec cmd.argv
    | _ => exact ht
  exact Site.runs_keeps hkeeps (only_anything x) hdel

/-- No command of the furnishing is one of those before it. -/
theorem furnish_apart {hostIps peerIps : List String} {argv : List Arg}
    (h : argv ∈ c.furnishArgvs name hostIps peerIps) :
    argv ≠ addArgv name ∧ argv ∉ c.dadArgvs name := by
  have hcommand : commandOf argv ∈ (c.furnishArgvs name hostIps peerIps).map commandOf := List.mem_map_of_mem h
  rw [commands_furnish] at hcommand
  constructor
  · rintro rfl
    have hadd : commandOf (addArgv name) = (none, .netnsAdd name) := rfl
    rw [hadd] at hcommand
    simp [Host.vethActs] at hcommand
  · intro hdad
    have hother : commandOf argv = (some name, .other) := by
      simp only [dadArgvs, List.mem_cons, List.not_mem_nil, or_false] at hdad
      rcases hdad with rfl | rfl <;> exact commandOf_execPrefix _ _ _
    rw [hother] at hcommand
    simp [Host.vethActs] at hcommand

theorem asks_furnish (hostIps peerIps : List String) : Only Spares (runAll (c.furnishArgvs name hostIps peerIps)) := by
  apply asks_runAll
  intro argv hargv n
  have hcommand : commandOf argv ∈ (c.furnishArgvs name hostIps peerIps).map commandOf := List.mem_map_of_mem hargv
  rw [commands_furnish] at hcommand
  intro hdel
  have hpair : commandOf argv = ((commandOf argv).1, .netnsDel n) := Prod.ext rfl hdel
  rw [hpair] at hcommand
  simp [Host.vethActs] at hcommand

/-- Furnishing and what follows it, as they stand in `create_namespace`. -/
theorem runs_furnish {α : Type} (t : Site ω) (hostIps peerIps : List String) (rest : Prog α) :
    t.runs who out ((run (c.loArgv name)).bind fun _ =>
      (c.createVethPair name (extIfaceOf name) (peerIfaceOf name) hostIps peerIps).bind fun _ => rest) =
    onValue (fun _ (u : Site ω) => u.runs who out rest)
      (t.runs who out (runAll (c.furnishArgvs name hostIps peerIps))) := by
  show _ = onValue _ (t.runs who out (Co.forEach (c.loArgv name :: c.vethArgvs name _ _ hostIps peerIps) run))
  rw [Site.runs_bind, Site.runs_forEach]
  rcases t.runs who out (run (c.loArgv name)) with ⟨r | r, u⟩
  · rfl
  · rw [onValue_ok, onValue_ok, Site.runs_bind]
    rfl

theorem nothing_left_of_clear (hs : Clear s name) : NothingLeft s name where
  space := hs.space
  inside := hs.wellFormed.placed.vacant hs.space
  ext := Host.hasPair_of_has hs.ext
  peer := Host.hasPair_of_has hs.peer
  active := hs.active

theorem Clear.spend (hs : Clear s name) (argv : List Arg) : Clear (s.spend argv) name :=
  ⟨hs.wellFormed, hs.space, hs.ext, hs.peer, hs.active⟩

/-- From a namespace that is ready, whatever the body does within what it may, nothing is left. -/
theorem nothing_left_of_body {α : Type} {body : Prog α} (hbody : Only StaysPut body) (hs : Ready s name) :
    NothingLeft (s.runs who out (body.tryFinally (release name))).2 name := by
  have hready : Ready (s.runs who out body).2 name := Site.runs_keeps ready_answer hbody hs
  have hnothing := nothing_left_of_ready who out hready
  rw [Site.runs_tryFinally]
  rcases hend : (s.runs who out body).2.runs who out (release name) with ⟨r | r, u⟩
  · rw [hend] at hnothing
    exact hnothing
  · rw [hend] at hnothing
    exact hnothing

/-- When deletions succeed, nothing is left exactly when the setup succeeds or makes nothing. -/
theorem nothing_left_iff {α : Type} (hs : Clear s name) (hdel : DeletionsSucceed name s.outcomes)
    (hostIps peerIps : List String)
    (body : NamespaceSandbox → Prog α) (hbody : Only StaysPut (body { controller := c, name })) :
    NothingLeft (s.runs who out (c.createNamespace name hostIps peerIps body)).2 name ↔
      takesEffect (s.outcomes (addArgv name) 0) = false ∨ SetUpSucceeds c name hostIps peerIps s.outcomes := by
  have hshape : s.runs who out (c.createNamespace name hostIps peerIps body) = onValue (fun _ (t : Site ω) =>
      onValue (fun _ (u : Site ω) => u.runs who out ((body { controller := c, name }).tryFinally (release name)))
        (t.runs who out (runAll (c.furnishArgvs name hostIps peerIps)))) (s.runs who out (c.createNetns name)) := by
    show s.runs who out ((c.createNetns name).bind fun _ => _) = _
    rw [Site.runs_bind]
    congr 1
    funext _ t
    exact runs_furnish t hostIps peerIps _
  -- what is there stays, and is left
  have hleft : ∀ {t : Site ω}, t.host.hasSpace name = true → ¬NothingLeft t name := by
    intro t hspace hnothing
    rw [hnothing.space] at hspace
    cases hspace
  cases heffect : takesEffect (s.outcomes (addArgv name) 0) with
  | false =>
    obtain ⟨e, he⟩ := runs_createNetns_idle who out c heffect
    rw [hshape, he]
    simp only [true_or, iff_true]
    exact nothing_left_of_clear (hs.spend _)
  | true =>
    obtain ⟨r, t, hmade, hhost, houtcomes, hr⟩ := runs_createNetns who out c hs.space heffect
    have hspace : t.host.hasSpace name = true := by
      rw [hhost]
      simp [newSpace]
    have hsetUp : SetUpSucceeds c name hostIps peerIps s.outcomes ↔
        r = .ok () ∧ Granted t.outcomes (c.furnishArgvs name hostIps peerIps) := by
      have hgranted : Granted t.outcomes (c.furnishArgvs name hostIps peerIps) ↔
          Granted s.outcomes (c.furnishArgvs name hostIps peerIps) := by
        apply granted_congr
        intro argv hargv
        exact houtcomes argv (furnish_apart hargv).1 (furnish_apart hargv).2
      rw [hr, hgranted]
      exact ⟨fun h => ⟨⟨h.made, h.tuned⟩, h.furnished⟩, fun h => ⟨h.1.1, h.1.2, h.2⟩⟩
    rw [hshape, hmade, hsetUp]
    simp only [Bool.true_eq_false, false_or]
    cases r with
    | error e =>
      simp only [onValue_error, reduceCtorEq, false_and, iff_false]
      exact hleft hspace
    | ok v =>
      have hperform := performAll_furnish who c hs hostIps peerIps
      rw [← hhost] at hperform
      rcases hfurnish : t.runs who out (runAll (c.furnishArgvs name hostIps peerIps)) with ⟨e | ⟨⟩, u⟩
      · have hstays : u.host.hasSpace name = true := by
          have hkept : (t.runs who out (runAll (c.furnishArgvs name hostIps peerIps))).2.host.hasSpace name = true :=
            Site.runs_keeps space_answer (asks_furnish hostIps peerIps) hspace
          rw [hfurnish] at hkept
          exact hkept
        have hrefused : ¬Granted t.outcomes (c.furnishArgvs name hostIps peerIps) := by
          intro hgranted
          have hok : t.runs who out (runAll (c.furnishArgvs name hostIps peerIps)) =
              (.ok (), { host := furnished who s.host name hostIps peerIps, active := t.active, outcomes := _ }) :=
            Site.runs_runAll.mpr ⟨hgranted, hperform, rfl⟩
          rw [hfurnish] at hok
          cases hok
        simp only [onValue_ok, hfurnish, onValue_error, hrefused, and_false, iff_false]
        exact hleft hstays
      · obtain ⟨hgranted, hhost', -⟩ := Site.runs_runAll.mp hfurnish
        rw [hperform] at hhost'
        have hdel' : DeletionsSucceed name u.outcomes := by
          have hmid := deletions_runs who out hdel (c.createNetns name)
          rw [hmade] at hmid
          have hend := deletions_runs who out hmid (runAll (c.furnishArgvs name hostIps peerIps))
          rw [hfurnish] at hend
          exact hend
        have hready : Ready u name := ready_furnished hs (Option.some.inj hhost').symm hdel'
        simp only [onValue_ok, hfurnish, hgranted, and_self, iff_true]
        exact nothing_left_of_body hbody hready

end SetUp

end Nse.NetnsController

namespace Nse

open NetnsController

/-- `ip link add` is refused; every other command succeeds. -/
def pairRefused (argv : List Arg) (_ : Nat) : Outcome :=
  if argv = ip ["link", "add", "vhr-web", "type", "veth", "peer", "name", "vrh-web"]
    then .refused "RTNETLINK answers: File exists" else .done

theorem emptySite_wellFormed : emptySite.host.WellFormed where
  ends e he := by
    have heq : e = { name := "lo", stack := none, isUp := true } := by
      simpa [emptySite, NetHost.Host.ends] using he
    rw [heq]
    rfl
  live r hr := absurd hr (by simp [emptySite])

theorem emptySite_clear (outcomes : List Arg → Nat → Outcome) : Clear { emptySite with outcomes } "web" where
  wellFormed := emptySite_wellFormed
  space := rfl
  ext := (by decide +kernel : emptySite.host.has none (NamespaceSandbox.extIfaceOf "web") = false)
  peer := (by decide +kernel : emptySite.host.has none (NamespaceSandbox.peerIfaceOf "web") = false)
  active := by simp [emptySite]

theorem a_namespace_left_behind : ¬ ∀ (c : NetnsController) (out : Outside) (s : Site Owner) (name : String)
    (hostIps peerIps : List String) (body : NamespaceSandbox → Prog Unit), Clear s name →
      DeletionsSucceed name s.outcomes →
      Coroutine.Only StaysPut (body { controller := c, name }) →
        NothingLeft (s.runs .controller out (c.createNamespace name hostIps peerIps body)).2 name := by
  intro h
  have hdel : DeletionsSucceed "web" pairRefused := ⟨fun _ => if_neg (by decide), fun _ => if_neg (by decide)⟩
  have hnothing :=
    h { useNsenter := false } listedOutside { emptySite with outcomes := pairRefused } "web" ["10.0.1.1/24"]
    ["10.0.1.2/24"] (fun _ => .ret ()) (emptySite_clear _) hdel trivial
  have hspace := hnothing.space
  revert hspace
  decide +kernel

/-- The body is cancelled. -/
def cancelledBody (_ : NamespaceSandbox) : Prog Unit := raise { cls := .cancelledError, text := "" }

theorem nothing_left_iff_sample : NothingLeft (emptySite.runs .controller listedOutside
    (NetnsController.createNamespace { useNsenter := true } "web" ["10.0.1.1/24"] ["10.0.1.2/24"] cancelledBody)).2
      "web" := by
  apply (NetnsController.nothing_left_iff (emptySite_clear _)
    ⟨fun _ => rfl, fun _ => rfl⟩ _ _ cancelledBody trivial).mpr
  exact .inr ⟨rfl, trivial, granted_done fun _ _ => rfl⟩

end Nse
