/-
  Nse.Core.Recovery — the startup sweep after a run that was killed.

  The process of a run is killed at any moment, whatever it was about to do and whatever had
  failed; its `finally` block never runs, and its threads and commands end with it. Later a
  `NetnsController` is made, on the same host.
  Its sweep is shown the namespaces and the interfaces of the root stack as they are then, its
  deletions are carried out, and others go on using the host beside both, under names that have
  no swept prefix. Proved (`recovered`): the sweep does not raise, and after it the host is
  exactly what the others' commands would have made of it if the run had never been.
-/

import Nse.Core.Blindness
import Nse.Core.Restored
import Nse.Core.Sweep

namespace Nse

open Coroutine
open NetHost (Act End Host Side)
open NetnsController (NetnsLine LinkLines Orphans candNetns candLink cutNetns cutLink hasPrefix)

/-! ## What the sweep is shown -/

variable [U : PyStr.Unicode]

/-- `ip netns list` shows the namespaces that are there. -/
def NetnsShown (h : Host (Option Caller)) : Except PyExc Completed → Prop
  | .ok done =>
    done.returncode = 0 ∧ ∃ lines : List NetnsLine, done.stdout = String.ofList (PyStr.unlines (lines.map (·.text))) ∧
    ∀ n, h.hasSpace n = true ↔ n ∈ lines.map (·.name)
  | .error _ => False

/-- `ip link show` shows the interfaces of the root stack. -/
def LinksShown (h : Host (Option Caller)) : Except PyExc Completed → Prop
  | .ok done =>
    done.returncode = 0 ∧ ∃ lines : List LinkLines, done.stdout =
      String.ofList (PyStr.unlines (lines.flatMap (·.lines))) ∧
    ∀ d, h.has none d = true ↔ d ∈ lines.map (·.name)
  | .error _ => False

def Shown (h : Host (Option Caller)) : (a : Req) → Except PyExc (Reply a) → Prop
  | .run c, reply => (c.argv = NetnsController.ip ["netns", "list"] → NetnsShown h reply) ∧
    (c.argv = NetnsController.ip ["link", "show"] → LinksShown h reply)
  | _, _ => True

structure Swept (r : Caller) (s : Stage) (a : Req) (reply : Except PyExc (Reply a)) : Prop where
  carried : Carried r s a reply
  shown : Shown s.host a reply

omit U in
/-- What others make has no name that is swept. -/
def Unswept : Happening → Prop
  | .ev _ => True
  | .deed d => (∀ n ∈ d.act.newSpaces, hasPrefix netnsSweepPrefixes n = false) ∧
    (d.stack = none → ∀ l ∈ d.act.newLinks, hasPrefix vethSweepPrefixes l = false)

/-- Nor has anything that is there. -/
structure NoOrphans (h : Host (Option Caller)) : Prop where
  netns : ∀ n, hasPrefix netnsSweepPrefixes n = true → h.hasSpace n = false
  links : ∀ d, hasPrefix vethSweepPrefixes d = true → h.has none d = false

/-- A run that may be killed, and that leaves no worker thread behind until then. -/
abbrev running (env : Env) (x : RunCall) (r : Caller) : World Req Reply PyExc Stage Happening :=
  (hosted env x r).restrict Attended fun _ e => Unswept e

abbrev sweeping (env : Env) (x : RunCall) (r : Caller) : World Req Reply PyExc Stage Happening :=
  (hosted env x r).restrict (Swept r) fun _ e => Unswept e

/-! ## Names -/

section Names

variable {x : RunCall} {n : String}

/-- A test id as the pipeline draws it. -/
def HexId (x : RunCall) : Prop := ∀ c ∈ x.testId.toList, TraceParser.hexChar c = true

omit U in
theorem swept_ofRun (hn : x.ofRun n) : hasPrefix netnsSweepPrefixes n = true := by
  rcases ofRun_cases hn with rfl | rfl | rfl <;>
    simp [hasPrefix, netnsSweepPrefixes, PyStr.startsWith, String.toList_append, List.isPrefixOf]

omit U in
theorem swept_vethHost : hasPrefix vethSweepPrefixes x.vethHost = true := by
  simp [RunCall.vethHost, deriveNames, hasPrefix, vethSweepPrefixes, PyStr.startsWith,
    String.toList_append, List.isPrefixOf]

/-- Every namespace of the run is read off its line whole. -/
theorem cutNetns_ofRun (hid : HexId x) (hn : x.ofRun n) : cutNetns n = n := by
  have hsolid : ∀ {pre : String}, pre.toList.all (fun c => decide (c.toNat < 128) && !PyStr.asciiSpace c) = true →
      cutNetns (pre ++ x.testId) = pre ++ x.testId := by
    intro pre hpre
    unfold cutNetns
    rw [NetnsController.takeWhile_eq_self]
    intro c hc
    rw [String.toList_append, List.mem_append] at hc
    rcases hc with hc | hc
    · rw [PyStr.solid_of_ascii hpre c hc]
      rfl
    · rw [isSpace_hexChar (hid c hc)]
      rfl
  rcases ofRun_cases hn with rfl | rfl | rfl
  · exact hsolid (by decide)
  · exact hsolid (by decide)
  · exact hsolid (by decide)

omit U in
theorem cutLink_vethHost (hid : HexId x) : cutLink x.vethHost = x.vethHost := by
  have hat : TraceParser.hexChar '@' = false := by decide
  unfold cutLink
  rw [NetnsController.takeWhile_eq_self]
  intro c hc
  rw [bne_iff_ne]
  rintro rfl
  simp only [RunCall.vethHost, deriveNames, PyStr.take, String.toList_append,
    String.toList_ofList, List.mem_append] at hc
  rcases hc with hc | hc
  · exact absurd hc (by decide)
  · rw [hid '@' (List.mem_of_mem_take hc)] at hat
    cases hat

end Names

/-! ## What the sweep keeps -/

section Kept

variable {env : Env} {x : RunCall} {r : Caller} {h₀ : Host (Option Caller)} {s s' : Stage}

/-- The others' part holds no name that is swept. -/
structure Known (x : RunCall) (r : Caller) (h₀ : Host (Option Caller)) (s : Stage) : Prop where
  keeping : Keeping x r h₀ false s
  others : NoOrphans (s.host.part (theirs r))

omit U in
theorem noOrphans_deed {d : Deed} {h' : Host (Option Caller)} {linked : Bool} (hk : Keeping x r h₀ linked s)
    (ho : NoOrphans (s.host.part (theirs r))) (hd : Apart x r s.host d) (hu : Unswept (.deed d))
    (hperform : s.host.perform d.who d.stack d.act = some h') : NoOrphans (h'.part (theirs r)) := by
  have hinside := Host.part_inside hk.sound.formed (owners_theirs.mpr hd.who) hd.within hperform
  refine ⟨fun n hn => Host.no_space_perform (fun hnew => ?_) hinside (ho.netns n hn),
    fun l hl => Host.has_root_perform (fun hstack hnew => ?_) hinside (ho.links l hl)⟩
  · rw [hu.1 n hnew] at hn
    cases hn
  · rw [hu.2 hstack l hnew] at hl
    cases hl

theorem noOrphans_event {linked : Bool} {e : Happening} (hk : Keeping x r h₀ linked s)
    (ho : NoOrphans (s.host.part (theirs r)))
    (he : Stage.Happened env x r s e s') (hu : Unswept e) : NoOrphans (s'.host.part (theirs r)) := by
  cases he with
  | ev hev => exact ho
  | deed hd hperform => exact noOrphans_deed hk ho hd hu hperform

theorem known_stable {ans : Stage → (a : Req) → Except PyExc (Reply a) → Prop} :
    Stable ((hosted env x r).restrict ans fun _ e => Unswept e) (Known x r h₀) :=
  fun s e s' hs he => ⟨keeping_stable s e s' hs.keeping he.1, noOrphans_event hs.keeping hs.others he.1 he.2⟩

/-- A command of the engine leaves the others' part as it is. -/
theorem noOrphans_answer {linked : Bool} {a : Req} {reply : Except PyExc (Reply a)} (ha : Allowed x linked a ∧ a.tidy x)
    (hk : Keeping x r h₀ linked s) (ho : NoOrphans (s.host.part (theirs r)))
      (hr : (hosted env x r).answer s a reply s') :
    NoOrphans (s'.host.part (theirs r)) := by
  obtain ⟨-, hreacts⟩ := hr
  rcases hreacts.host with rfl | ⟨c, rfl, hperform⟩
  · exact ho
  · by_cases hother : (commandOf c.argv).2 = .other
    · rw [hother] at hperform
      cases (Host.perform_iff.mp hperform).2
      exact ho
    · have hw := within_mayRun hk.rest (fun hl => (hk.linked hl).notOthers) ha.1 ha.2 hother hperform
      rw [Host.part_outside (owners_ours.mpr rfl) hw hperform]
      exact ho

/-- At every moment of a run that may be killed. -/
theorem known_run {c : NetnsController} (hgiven : x.source = .given c) {p : Prog Pipeline.ListRef} (hs : Known x r h₀ s)
    (hrun : Steps (running env x r) (x.prog, s) (p, s')) : Known x r h₀ s' := by
  have hstable : ∀ linked, Stable (running env x r) fun s => Keeping x r h₀ linked s ∧
      NoOrphans (s.host.part (theirs r)) :=
    fun _ s e s' h he => ⟨keeping_stable s e s' h.1 he.1, noOrphans_event h.1 h.2 he.1 he.2⟩
  have hanswer : ∀ linked s a reply s', Allowed x linked a ∧ a.tidy x → Keeping x r h₀ linked s ∧
      NoOrphans (s.host.part (theirs r)) →
      (running env x r).answer s a reply s' →
        Keeping x r h₀ (linkedAfter linked a reply) s' ∧ NoOrphans (s'.host.part (theirs r)) :=
    fun _ _ _ _ _ ha h hr => ⟨keeping_answer ha h.1 hr.1, noOrphans_answer ha h.1 h.2 hr.1⟩
  obtain ⟨linked, -, hk, ho⟩ := obeys_steps hstable hanswer (orderedTidy_prog hgiven) ⟨hs.keeping, hs.others⟩ hrun
  exact ⟨hk.unlinked, ho⟩

omit U in
theorem known_start (hstart : Clear x r h₀) (hnone : NoOrphans h₀) : Known x r h₀ { host := h₀ } := by
  have hbegin := keeping_start hstart
  have htheirs : h₀.part (theirs r) = h₀ := (Option.some.inj hbegin.told).symm
  refine ⟨hbegin, ?_⟩
  show NoOrphans (h₀.part (theirs r))
  rw [htheirs]
  exact hnone

end Kept

/-! ## The sweep -/

section Sweep

variable {env : Env} {x : RunCall} {r : Caller} {h₀ : Host (Option Caller)} {left links : List String} {s s' : Stage}

/-- These of the run's namespaces and interfaces are still to be deleted, and no other is there. -/
structure Sweeping (x : RunCall) (r : Caller) (h₀ : Host (Option Caller)) (left links : List String) (s : Stage) :
    Prop extends
    Known x r h₀ s where
  netns : ∀ n, x.ofRun n → n ∈ left ∨ s.host.hasSpace n = false
  link : x.vethHost ∈ links ∨ s.host.has none x.vethHost = false

abbrev EndsIn {α : Type} (env : Env) (x : RunCall) (r : Caller) (V : α → Stage → Prop)
    (X : PyExc → Stage → Prop) (c : Prog α)
    (s : Stage) : Prop :=
  wp (sweeping env x r) (fun _ _ => True) (Post V X) c s

theorem sweeping_stable : Stable (sweeping env x r) (Sweeping x r h₀ left links) := by
  intro s e s' hs he
  refine ⟨⟨keeping_stable s e s' hs.keeping he.1, noOrphans_event hs.keeping hs.others he.1 he.2⟩, fun n hn => ?_, ?_⟩
  · exact (clearing_event ⟨hs.keeping, hs.netns⟩ he.1).netns n hn
  · refine hs.link.imp_right fun hgone => ?_
    cases he.1 with
    | ev hev => exact hgone
    | deed hd hperform => exact Host.has_root_perform hd.link hperform hgone

omit U in
/-- A command that makes nothing, and is of the run's part if it is a deletion. -/
theorem sweeping_deletion {act : Act} {h' : Host (Option Caller)} {st : St} (hs : Sweeping x r h₀ left links s)
    (hmay : MayRun x false none act) (hspaces : act.newSpaces = []) (hlinks : act.newLinks = [])
    (hw : s.host.Within (ours r) none act) (hperform : s.host.perform (some r) none act = some h') :
    Sweeping x r h₀ left links { s with st, host := h' } := by
  refine ⟨⟨keeping_within hs.keeping hmay hw hperform fun hl => (by cases hl), ?_⟩, fun n hn => ?_, ?_⟩
  · show NoOrphans (h'.part (theirs r))
    rw [Host.part_outside (owners_ours.mpr rfl) hw hperform]
    exact hs.others
  · exact (hs.netns n hn).imp_right (Host.no_space_perform (by rw [hspaces]; exact List.not_mem_nil) hperform)
  · exact hs.link.imp_right (Host.has_root_perform (fun _ => by rw [hlinks]; exact List.not_mem_nil) hperform)

theorem sweeping_delNetns {n : String} (hn : hasPrefix netnsSweepPrefixes n = true) {c : Cmd}
    (hcommand : commandOf c.argv = (none, .netnsDel n)) {reply : Except PyExc Completed}
      (hs : Sweeping x r h₀ left links s)
    (hr : (sweeping env x r).answer s (.run c) reply s') : Sweeping x r h₀ left links s' := by
  obtain ⟨⟨hal, hreacts⟩, -⟩ := hr
  rcases hreacts.host with rfl | ⟨c', heq, hperform⟩
  · exact ⟨⟨⟨hs.keeping.sound, hs.keeping.own, hs.keeping.rest, fun hl => (by cases hl), hs.keeping.told⟩, hs.others⟩,
      hs.netns, hs.link⟩
  · cases heq
    rw [hcommand] at hperform
    have hnone := hs.others.netns n hn
    refine sweeping_deletion hs .netnsDel rfl rfl ⟨rfl, ?_, by simp [Act.linkNames]⟩ hperform
    exact List.forall_mem_singleton.mpr ⟨hnone, hs.keeping.rest.sound.untouched hnone⟩

theorem sweeping_delLink {dev : String} (hdev : hasPrefix vethSweepPrefixes dev = true) {c : Cmd}
    (hcommand : commandOf c.argv = (none, .linkDel dev)) {reply : Except PyExc Completed}
      (hs : Sweeping x r h₀ left links s)
    (hr : (sweeping env x r).answer s (.run c) reply s') : Sweeping x r h₀ left links s' := by
  obtain ⟨⟨hal, hreacts⟩, -⟩ := hr
  rcases hreacts.host with rfl | ⟨c', heq, hperform⟩
  · exact ⟨⟨⟨hs.keeping.sound, hs.keeping.own, hs.keeping.rest, fun hl => (by cases hl), hs.keeping.told⟩, hs.others⟩,
      hs.netns, hs.link⟩
  · cases heq
    rw [hcommand] at hperform
    refine sweeping_deletion hs .linkDel rfl rfl ⟨rfl, by simp [Act.spaceNames], ?_⟩ hperform
    exact List.forall_mem_singleton.mpr (hs.others.links dev hdev)

/-- A listing changes nothing. -/
theorem sweeping_listing {c : Cmd} (hcommand : (commandOf c.argv).2 = .other) {reply : Except PyExc Completed}
    (hs : Sweeping x r h₀ left links s) (hr : (sweeping env x r).answer s (.run c) reply s') :
    s'.host = s.host ∧ Sweeping x r h₀ left links s' := by
  obtain ⟨⟨hal, hreacts⟩, -⟩ := hr
  have hsame : ∀ {h' : Host (Option Caller)}, h' = s.host → ∀ {st : St}, h' = s.host ∧
      Sweeping x r h₀ left links { s with st, host := h' } := by
    rintro h' rfl st
    refine ⟨rfl, ⟨⟨?_, hs.others⟩, hs.netns, hs.link⟩⟩
    exact ⟨hs.keeping.sound, hs.keeping.own, hs.keeping.rest, fun hl => (by cases hl), hs.keeping.told⟩
  rcases hreacts.host with rfl | ⟨c', heq, hperform⟩
  · exact hsame rfl
  · cases heq
    rw [hcommand] at hperform
    cases (Host.perform_iff.mp hperform).2
    exact hsame rfl

/-- `quietly` does not raise on a deletion. -/
theorem swept_quietly {argv : List Arg} {P Q : Stage → Prop} (hP : Stable (sweeping env x r) P) (hs : P s)
    (hanswer : ∀ s reply s', P s →
      (sweeping env x r).answer s (.run { argv, check := false, timeout := some 5000 }) reply s' →
      Q s' ∧ ∀ e, reply = .error e → false = true) :
    EndsIn env x r (fun _ => Q) (fun _ _ => False)
      (do let _ ← NetnsController.quietly argv; pure () : Prog Unit) s := by
  have hask : EndsIn env x r (fun _ => Q) (fun _ _ => False) (NetnsController.quietly argv) s := by
    refine wp_request (I := fun _ _ => True) hP hs (fun _ _ => trivial) fun t reply t' ht hr => ?_
    obtain ⟨hq, hfails⟩ := hanswer t reply t' ht hr
    cases reply with
    | ok v => exact hq
    | error e => exact Bool.false_ne_true (hfails e rfl)
  exact wp_seq hask (fun _ _ h => h) fun _ _ h => h

theorem swept_netnsLine {line : String} {lines : List String}
    (hs : Sweeping x r h₀ ((line :: lines).filterMap candNetns) links s) :
    EndsIn env x r (fun _ => Sweeping x r h₀ (lines.filterMap candNetns) links) (fun _ _ => False)
      (NetnsController.sweepNetns line) s := by
  unfold NetnsController.sweepNetns
  split
  · rename_i hprefix
    have hcand : candNetns line = some (NetnsController.netnsName line) := if_pos hprefix
    rw [List.filterMap_cons_some hcand] at hs
    refine swept_quietly sweeping_stable hs fun t reply t' ht hr => ?_
    have hgone := gone_delNetns rfl hr.1 hr.2.carried
    refine ⟨⟨(sweeping_delNetns hprefix rfl ht hr).toKnown, fun n hn => ?_, (sweeping_delNetns hprefix rfl ht hr).link⟩,
      fun e he => (hgone.2 e he).2⟩
    rcases (sweeping_delNetns hprefix rfl ht hr).netns n hn with hmem | hnone
    · rcases List.mem_cons.mp hmem with rfl | hmem
      · exact .inr hgone.1
      · exact .inl hmem
    · exact .inr hnone
  · rename_i hprefix
    have hcand : candNetns line = none := if_neg hprefix
    rw [List.filterMap_cons_none hcand] at hs
    exact hs

theorem swept_linkLine {line : String} {lines : List String}
    (hs : Sweeping x r h₀ left ((line :: lines).filterMap candLink) s) :
    EndsIn env x r (fun _ => Sweeping x r h₀ left (lines.filterMap candLink)) (fun _ _ => False)
      (NetnsController.sweepLink line) s := by
  unfold NetnsController.sweepLink
  split
  · rename_i iface hname
    split
    · rename_i hprefix
      have hcand : candLink line = some iface := by
        rw [candLink, hname, Option.filter_some, if_pos hprefix]
      rw [List.filterMap_cons_some hcand] at hs
      refine swept_quietly sweeping_stable hs fun t reply t' ht hr => ?_
      have hgone := gone_delLink rfl hr.1 hr.2.carried
      have hkept := sweeping_delLink hprefix rfl ht hr
      refine ⟨⟨hkept.toKnown, hkept.netns, ?_⟩, fun e he => (hgone.2 e he).2⟩
      rcases hkept.link with hmem | hnone
      · rcases List.mem_cons.mp hmem with heq | hmem
        · rw [← heq] at hgone
          exact .inr (hkept.keeping.no_link hgone.1)
        · exact .inl hmem
      · exact .inr hnone
    · rename_i hprefix
      have hcand : candLink line = none := by
        rw [candLink, hname, Option.filter_some, if_neg hprefix]
      rw [List.filterMap_cons_none hcand] at hs
      exact hs
  · rename_i hname
    have hcand : candLink line = none := by
      rw [candLink, hname]
      rfl
    rw [List.filterMap_cons_none hcand] at hs
    exact hs

/-- One listing, and a deletion for each of its lines. -/
theorem swept_listing {words : List String} {each : String → Prog Unit} {P Q : Stage → Prop}
    {R : List String → Stage → Prop}
    (hP : Stable (sweeping env x r) P) (hs : P s)
    (hlist : ∀ s reply s', P s → (sweeping env x r).answer s
      (.run { argv := NetnsController.ip words, check := false, timeout := some 5000 })
      reply s' → ∃ done, reply = .ok done ∧ done.returncode = 0 ∧ R (PyStr.splitlines done.stdout) s')
    (heach : ∀ line lines s, R (line :: lines) s → EndsIn env x r (fun _ => R lines) (fun _ _ => False) (each line) s)
    (hend : ∀ s, R [] s → Q s) :
      EndsIn env x r (fun _ => Q) (fun _ _ => False) (NetnsController.sweepListing words each) s := by
  have hask : EndsIn env x r (fun done t => done.returncode = 0 ∧ R (PyStr.splitlines done.stdout) t) (fun _ _ => False)
      (NetnsController.quietly (NetnsController.ip words)) s := by
    refine wp_request (I := fun _ _ => True) hP hs (fun _ _ => trivial) fun t reply t' ht hr => ?_
    obtain ⟨done, rfl, hdone⟩ := hlist t reply t' ht hr
    exact hdone
  refine wp_try (V := fun _ => Q) (X := fun _ _ => False) (wp_seq hask (fun done t ht => ?_) fun _ _ h => h)
    (fun _ _ h => h) fun _ _ h => h.elim
  rw [if_pos ht.1]
  exact wp_forEach heach hend (fun _ _ h => h) ht.2

def quietDone : Completed := { returncode := 0, stdout := "", stderr := "" }

omit U in
theorem quietDone_raises (_ : String) (e : PyExc) (h : Except.ok quietDone = .error e) : e.isException = true := by
  cases h

/-- What the sweep reads off the listings. -/
def asListed (netns : List NetnsLine) (links : List LinkLines) : Orphans where
  netns
  links
  delNetns _ := .ok quietDone
  delLink _ := .ok quietDone
  delNetns_raises := quietDone_raises
  delLink_raises := quietDone_raises

theorem swept_netnsListing (hid : HexId x) (hs : Known x r h₀ s) :
    EndsIn env x r (fun _ => Sweeping x r h₀ [] [x.vethHost]) (fun _ _ => False)
    (NetnsController.sweepListing ["netns", "list"] NetnsController.sweepNetns) s := by
  have hbegin : Sweeping x r h₀ (Pipeline.namespaces x.req x.testId) [x.vethHost] s :=
    ⟨hs, fun n hn => .inl hn, .inl (List.mem_singleton.mpr rfl)⟩
  refine swept_listing (R := fun lines => Sweeping x r h₀ (lines.filterMap candNetns) [x.vethHost])
    sweeping_stable hbegin
    (fun t reply t' ht hr => ?_) (fun line lines u hu => swept_netnsLine hu) fun _ h => h
  obtain ⟨hsame, hkept⟩ := sweeping_listing rfl ht hr
  have hshown := hr.2.shown.1 rfl
  cases reply with
  | error e => exact hshown.elim
  | ok done =>
    obtain ⟨hcode, lines, htext, hall⟩ := hshown
    have hcands : (PyStr.splitlines done.stdout).filterMap candNetns = (asListed lines []).sweptNetns.map cutNetns := by
      rw [htext]
      exact NetnsController.cands_netns (asListed lines [])
    refine ⟨done, rfl, hcode, hkept.toKnown, fun n hn => ?_, .inl (List.mem_singleton.mpr rfl)⟩
    cases hspace : t'.host.hasSpace n with
    | false => exact .inr rfl
    | true =>
      left
      rw [hsame] at hspace
      rw [hcands]
      exact List.mem_map.mpr ⟨n, List.mem_filter.mpr ⟨(hall n).mp hspace, swept_ofRun hn⟩, cutNetns_ofRun hid hn⟩

theorem swept_linkListing (hid : HexId x) (hs : Sweeping x r h₀ [] [x.vethHost] s) :
    EndsIn env x r (fun _ => Sweeping x r h₀ [] []) (fun _ _ => False)
      (NetnsController.sweepListing ["link", "show"] NetnsController.sweepLink) s := by
  refine swept_listing (R := fun lines => Sweeping x r h₀ [] (lines.filterMap candLink)) sweeping_stable hs
    (fun t reply t' ht hr => ?_) (fun line lines u hu => swept_linkLine hu) fun _ h => h
  obtain ⟨hsame, hkept⟩ := sweeping_listing rfl ht hr
  have hshown := hr.2.shown.2 rfl
  cases reply with
  | error e => exact hshown.elim
  | ok done =>
    obtain ⟨hcode, lines, htext, hall⟩ := hshown
    have hcands : (PyStr.splitlines done.stdout).filterMap candLink = (asListed [] lines).sweptLinks.map cutLink := by
      rw [htext]
      exact NetnsController.cands_links (asListed [] lines)
    refine ⟨done, rfl, hcode, hkept.toKnown, hkept.netns, ?_⟩
    cases hlink : t'.host.has none x.vethHost with
    | false => exact .inr rfl
    | true =>
      left
      rw [hsame] at hlink
      rw [hcands]
      exact List.mem_map.mpr ⟨x.vethHost, List.mem_filter.mpr ⟨(hall x.vethHost).mp hlink, swept_vethHost⟩,
        cutLink_vethHost hid⟩

theorem swept_startupSweep (hid : HexId x) (hs : Known x r h₀ s) :
    EndsIn env x r (fun _ => Sweeping x r h₀ [] []) (fun _ _ => False) NetnsController.startupSweep s :=
  wp_seq (swept_netnsListing hid hs) (fun _ _ ht => swept_linkListing hid ht) fun _ _ h => h

/-- A new controller comes with a sweep. -/
theorem swept_new (hid : HexId x) (u : Option Bool) (hs : Known x r h₀ s) :
    EndsIn env x r (fun _ => Sweeping x r h₀ [] []) (fun _ _ => False) (NetnsController.new u) s := by
  have hmade : ∀ {t : Stage} (b : Bool), Known x r h₀ t →
      EndsIn env x r (fun _ => Sweeping x r h₀ [] []) (fun _ _ => False)
      (do NetnsController.startupSweep; pure { useNsenter := b } : Prog NetnsController) t :=
    fun _ ht => wp_seq (swept_startupSweep hid ht) (fun _ _ h => h) fun _ _ h => h
  cases u with
  | some b => exact hmade b hs
  | none =>
    have hwhere : EndsIn env x r (fun _ => Known x r h₀) (fun _ _ => False) (perform .inContainer) s := by
      refine wp_request (I := fun _ _ => True) known_stable hs (fun _ _ => trivial) fun t reply t' ht hr => ?_
      obtain ⟨⟨hal, hreacts⟩, -⟩ := hr
      cases reply with
      | error e => cases hal
      | ok v =>
        rcases hreacts.host with rfl | ⟨c, ⟨⟩, -⟩
        exact ⟨⟨ht.keeping.sound, ht.keeping.own, ht.keeping.rest, fun hl => (by cases hl), ht.keeping.told⟩, ht.others⟩
    exact wp_seq hwhere (fun b t ht => hmade b ht) fun _ _ h => h

end Sweep

/-! ## A run that was killed -/

section Killed

variable {env : Env} {x : RunCall} {r : Caller} {h₀ : Host (Option Caller)} {c : NetnsController} {s s₁ t : Stage}

theorem known_killed (hgiven : x.source = .given c) (hstart : Clear x r h₀) (hnone : NoOrphans h₀)
    {p : Prog Pipeline.ListRef}
    (hrun : Steps (running env x r) (x.prog, { host := h₀ }) (p, s)) (hkilled : After (running env x r) s s₁) :
    Known x r h₀ { host := s₁.host, deeds := s₁.deeds } := by
  have hlater : Known x r h₀ s₁ := known_stable.after hkilled (known_run hgiven (known_start hstart hnone) hrun)
  exact ⟨⟨hlater.keeping.sound, hlater.keeping.own, hlater.keeping.rest, fun hl => (by cases hl), hlater.keeping.told⟩,
    hlater.others⟩

theorem cleared_sweep (hid : HexId x) (hs : Known x r h₀ s) {u : Option Bool} {q : Prog NetnsController}
    (hsweep : Steps (sweeping env x r) (NetnsController.new u, s) (q, t)) :
    (∀ e, q ≠ .throw e) ∧ ∀ c', q = .ret c' → Cleared x r h₀ t ∧ Known x r h₀ t := by
  have hw := wp_steps hsweep (swept_new hid u hs)
  refine ⟨?_, ?_⟩
  · rintro e rfl
    exact hw
  · rintro c' rfl
    have hswept : Sweeping x r h₀ [] [] t := hw
    exact ⟨⟨⟨hswept.keeping, hswept.netns⟩, hswept.link.resolve_left List.not_mem_nil⟩, hswept.toKnown⟩

/-- The run is killed at any moment, and a controller is made later. Its sweep does not raise,
    and after it the host is what the others' commands would have made of it without the run. -/
theorem recovered (hgiven : x.source = .given c) (hid : HexId x) (hstart : Clear x r h₀) (hnone : NoOrphans h₀)
    {p : Prog Pipeline.ListRef} (hrun : Steps (running env x r) (x.prog, { host := h₀ }) (p, s))
      (hkilled : After (running env x r) s s₁)
    {u : Option Bool} {q : Prog NetnsController}
    (hsweep : Steps (sweeping env x r) (NetnsController.new u, { host := s₁.host, deeds := s₁.deeds }) (q, t)) :
    (∀ e, q ≠ .throw e) ∧ ∀ c', q = .ret c' → Deed.performed h₀ t.deeds = some t.host := by
  obtain ⟨hquiet, hends⟩ := cleared_sweep hid (known_killed hgiven hstart hnone hrun hkilled) hsweep
  refine ⟨hquiet, fun c' hq => ?_⟩
  obtain ⟨hcleared, hknown⟩ := hends c' hq
  rw [← hcleared.host]
  exact hknown.keeping.told

end Killed

end Nse

/-! ## A run killed before its link was moved -/

namespace Nse

open Coroutine
open NetHost (Act End Host Side)
open NetnsController (NetnsLine LinkLines)
open PyStr (noBreak_literal)

attribute [local instance] PyStr.Unicode.ascii

/-- A word of the listings. -/
def plain (s : String) : Bool :=
  s.toList.all fun c => decide (c.toNat < 128) && !PyStr.asciiSpace c && c != ':' && !PyStr.isLineBreak c

section Plain

variable {s : String}

theorem solid_of_plain (h : plain s = true) :
    s.toList.all (fun c => decide (c.toNat < 128) && !PyStr.asciiSpace c) = true := by
  refine List.all_eq_true.mpr fun c hc => ?_
  have hplain := List.all_eq_true.mp h c hc
  simp only [Bool.and_eq_true] at hplain ⊢
  exact hplain.1.1

theorem colon_of_plain (h : plain s = true) : ':' ∉ s.toList :=
  fun hc => absurd (List.all_eq_true.mp h ':' hc) (by decide)

theorem noBreak_of_plain (h : plain s = true) : ∀ c ∈ s.toList, PyStr.isLineBreak c = false := by
  intro c hc
  have hplain := List.all_eq_true.mp h c hc
  simp only [Bool.and_eq_true, Bool.not_eq_true'] at hplain
  exact hplain.2

theorem word_of_plain (hne : s ≠ "") (h : plain s = true) : PyStr.Word s :=
  ⟨hne, PyStr.solid_of_ascii (solid_of_plain h)⟩

end Plain

def plainNetns (name : String) (h : plain name = true) (hbegins : ∃ c cs, name.toList = c :: cs) : NetnsLine :=
  orphanNetns name (solid_of_plain h) (noBreak_of_plain h) hbegins

/-- An end of a pair. -/
def plainLink (index : Nat) (name peer : String) (hne : name ≠ "" ∧ peer ≠ "") (h : (plain name && plain peer) = true) :
    LinkLines where
  index
  name
  peer := some peer
  attributes := "<BROADCAST,MULTICAST> mtu 1500"
  kind := "ether"
  octets := none
  name_word := word_of_plain hne.1 (Bool.and_eq_true_iff.mp h).1
  name_plain := colon_of_plain (Bool.and_eq_true_iff.mp h).1
  peer_word := by
    rintro p ⟨⟩
    exact ⟨word_of_plain hne.2 (Bool.and_eq_true_iff.mp h).2, colon_of_plain (Bool.and_eq_true_iff.mp h).2⟩
  kind_plain := by decide
  octets_hex := by simp
  oneLine := by
    obtain ⟨hname, hpeer⟩ := Bool.and_eq_true_iff.mp h
    simp only [List.forall_mem_cons, List.not_mem_nil, false_implies, implies_true, and_true]
    exact ⟨noBreak_of_plain hname, noBreak_of_plain hpeer, noBreak_literal (by decide),
      noBreak_literal (by decide), by simp, by simp, by simp⟩

def shownNetns : List NetnsLine :=
  [plainNetns "lab" (by decide) ⟨_, _, rfl⟩, plainNetns "nse_a1b2c3d4e5f6" (by decide) ⟨_, _, rfl⟩]

def shownLinks : List LinkLines :=
  [plainLink 1 "eth0" "if9" (by decide) (by decide), plainLink 7 "vhr-a1b2c3d4" "veth-nse" (by decide) (by decide),
    plainLink 6 "veth-nse" "vhr-a1b2c3d4" (by decide) (by decide), plainLink 5 "lab0" "if4" (by decide) (by decide)]

/-- A container's host, whose interface has its peer elsewhere. -/
def killedHost : Host (Option Caller) := { fixed := [{ name := "eth0", stack := none, isUp := true }] }

/-- The listings as they are shown here, and everything else as the host lets it. -/
def shownReply (s : Stage) : (a : Req) → Except PyExc (Reply a)
  | .run c =>
    if c.argv = NetnsController.ip ["netns", "list"] then
      .ok { returncode := 0, stdout := String.ofList (PyStr.unlines (shownNetns.map (·.text))), stderr := "" }
    else if c.argv = NetnsController.ip ["link", "show"] then
      .ok { returncode := 0, stdout := String.ofList (PyStr.unlines (shownLinks.flatMap (·.lines))), stderr := "" }
    else hostReply .first s (.run c)
  | a => hostReply .first s a

/-- Those listings are what there is. -/
def shows (s : Stage) : (a : Req) → Except PyExc (Reply a) → Bool
  | .run c, .ok done =>
    (c.argv != NetnsController.ip ["netns", "list"] || (done.returncode == 0 &&
      done.stdout == String.ofList (PyStr.unlines (shownNetns.map (·.text))) &&
      s.host.spaces.map (·.name) == shownNetns.map (·.name))) &&
    (c.argv != NetnsController.ip ["link", "show"] || (done.returncode == 0 &&
      done.stdout == String.ofList (PyStr.unlines (shownLinks.flatMap (·.lines))) &&
      (s.host.ends.filter (·.stack == none)).map (·.name) == shownLinks.map (·.name)))
  | .run c, .error _ => c.argv != NetnsController.ip ["netns", "list"] && c.argv != NetnsController.ip ["link", "show"]
  | _, _ => true

theorem hasSpace_iff_mem {h : Host (Option Caller)} {n : String} : h.hasSpace n = true ↔ n ∈ h.spaces.map (·.name) := by
  rw [Host.hasSpace, List.any_eq_true, List.mem_map]
  simp only [beq_iff_eq]

theorem has_root_iff_mem {h : Host (Option Caller)} {d : String} :
    h.has none d = true ↔ d ∈ (h.ends.filter (·.stack == none)).map (·.name) := by
  rw [Host.has, List.any_eq_true, List.mem_map]
  simp only [List.mem_filter, End.at, Bool.and_eq_true, beq_iff_eq, and_assoc]

theorem shown_of_shows {s : Stage} {a : Req} {reply : Except PyExc (Reply a)} (h : shows s a reply = true) :
    Shown s.host a reply := by
  cases a with
  | run c =>
    cases reply with
    | ok done =>
      simp only [shows, Bool.and_eq_true, Bool.or_eq_true, bne_iff_ne, beq_iff_eq] at h
      refine ⟨fun hargv => ?_, fun hargv => ?_⟩
      · obtain ⟨⟨hcode, htext⟩, hnames⟩ := h.1.resolve_left fun hne => hne hargv
        exact ⟨hcode, shownNetns, htext, fun n => by rw [hasSpace_iff_mem, hnames]⟩
      · obtain ⟨⟨hcode, htext⟩, hnames⟩ := h.2.resolve_left fun hne => hne hargv
        exact ⟨hcode, shownLinks, htext, fun d => by rw [has_root_iff_mem, hnames]⟩
    | error e =>
      simp only [shows, Bool.and_eq_true, bne_iff_ne] at h
      exact ⟨fun hargv => h.1 hargv, fun hargv => h.2 hargv⟩
  | _ => exact trivial

def unswept : Happening → Bool
  | .ev _ => true
  | .deed d => d.act.newSpaces.all (fun n => !NetnsController.hasPrefix netnsSweepPrefixes n) &&
    (d.stack != none || d.act.newLinks.all fun l => !NetnsController.hasPrefix vethSweepPrefixes l)

theorem unswept_iff {e : Happening} : unswept e = true ↔ Unswept e := by
  cases e with
  | ev e => exact iff_of_true rfl trivial
  | deed d => simp [unswept, Unswept, Decidable.or_iff_not_imp_left]

/-- Two of the lab's commands come before the kill, one during the sweep. -/
def killedSchedule : Script Req Reply PyExc Stage Happening :=
  (staged {} labCall .first (hostReply .first) (meanwhileDone labDeeds)).guarded
    (fun s a reply => !abandons s.st a reply) fun _ e => unswept e

def sweptSchedule : Script Req Reply PyExc Stage Happening :=
  (staged {} labCall .first shownReply (meanwhileDone [(2, ⟨none, none, .linkMove "lab1" "lab"⟩)])).guarded
    (fun s a reply => carries .first s a reply && shows s a reply) fun _ e => unswept e

theorem killedSchedule_fits : killedSchedule.Fits (running {} labCall .first) :=
  staged_fits.guarded (fun _ _ _ h => by simpa [Attended] using h) fun _ _ h => unswept_iff.mp h

theorem sweptSchedule_fits : sweptSchedule.Fits (sweeping {} labCall .first) :=
  staged_fits.guarded (fun _ _ _ h => ⟨carried_of_carries (Bool.and_eq_true_iff.mp h).1,
    shown_of_shows (Bool.and_eq_true_iff.mp h).2⟩)
    fun _ _ h => unswept_iff.mp h

theorem labCall_hexId : HexId labCall :=
  List.all_eq_true.mp (by decide : "a1b2c3d4e5f6".toList.all TraceParser.hexChar = true)

theorem killedHost_clear : Clear labCall .first killedHost where
  sound := by
    refine ⟨by simp [killedHost, Host.Live], by simp [killedHost], by simp [killedHost], ?_⟩
    simp [killedHost, Host.Placed, Host.seats]
  spaces := by simp [killedHost]
  pairs := by simp [killedHost]
  netns _ _ := rfl
  link := by decide +kernel

theorem killedHost_noOrphans : NoOrphans killedHost where
  netns _ _ := rfl
  links d hd := by
    rw [Bool.eq_false_iff, ne_eq, has_root_iff_mem]
    intro hmem
    have heth : d = "eth0" := by simpa [killedHost, Host.ends] using hmem
    subst heth
    exact absurd hd (by decide)

/-- The namespace and both ends of the link were there; the lab alone is. -/
theorem recovered_sample : ∃ p s, Steps (running {} labCall .first) (labCall.prog, { host := killedHost }) (p, s) ∧
    (s.host.hasSpace "nse_a1b2c3d4e5f6" && s.host.has none "vhr-a1b2c3d4" && s.host.has none "veth-nse") = true ∧
    ∃ c t, Steps (sweeping {} labCall .first) (NetnsController.new (some false), { host := s.host, deeds := s.deeds })
      (.ret c, t) ∧
      t.deeds.length = 3 ∧ Deed.performed killedHost t.deeds = some t.host := by
  have hplay : Script.waiting (fun _ s =>
      (s.host.hasSpace "nse_a1b2c3d4e5f6" && s.host.has none "vhr-a1b2c3d4" && s.host.has none "veth-nse") &&
        Script.returned (fun _ t => t.deeds.length == 3)
          (sweptSchedule.play 20 (NetnsController.new (some false)) { host := s.host, deeds := s.deeds }))
      (killedSchedule.play 6 labCall.prog { host := killedHost }) = true := by
    decide +kernel
  obtain ⟨a, k, s, hrun, hp⟩ := Script.waiting_steps killedSchedule_fits hplay
  obtain ⟨hthere, hswept⟩ := Bool.and_eq_true_iff.mp hp
  obtain ⟨c, t, hsweep, hdeeds⟩ := Script.returned_steps sweptSchedule_fits hswept
  exact ⟨.ask a k, s, hrun, hthere, c, t, hsweep, beq_iff_eq.mp hdeeds,
    (recovered rfl labCall_hexId killedHost_clear killedHost_noOrphans hrun .refl hsweep).2 c rfl⟩

end Nse
