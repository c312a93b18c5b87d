/-
  Nse.Core.Working — a run in an environment that works.

  Every request succeeds and no wait runs out, and a command that succeeds prints what it
  should (`Obliged`); what scapy cannot build is not sent, and `inject` says so. The monitor
  writes lines about frames that were sent into the namespace from the host's end of the veth,
  and no others; the parser understands them; it exits only once it is told to. When the wait
  for an event is over every frame sent in has been traced and its lines delivered (`Answers`,
  `Happens`). The loop comes round before its deadline (`Punctual`), which is what the pace of
  `Nse.Core.Deadline` sees to.

  Proved:
  - `smooth_…`: under such answers no step of a run raises, but for a packet that cannot be
    built (`settles_inject`).
  - `calm_stable`, `calm_answer`: from the start of the monitor the read loop runs until the
    stop, understands every line and collects no error (`Calm`).
-/

import Nse.Core.Heard
import Nse.Core.Session

namespace Nse

open Coroutine

/-! ## The environment -/

/-- What is assumed of scapy: it builds no packet between addresses of two families, and every
    packet between addresses of one. Of scope ids nothing is assumed. -/
class Scapy where
  builds : String → String → Bool
  mixed : ∀ src dst, validateIp src = true → validateIp dst = true →
    ScapyInjector.isIpv6 src ≠ ScapyInjector.isIpv6 dst → builds src dst = false
  plain : ∀ src dst, validateIp src = true → validateIp dst = true → '%' ∉ src.toList → '%' ∉ dst.toList →
    ScapyInjector.isIpv6 src = ScapyInjector.isIpv6 dst → builds src dst = true

variable [K : Scapy]

/-- The packet can be built. -/
def PacketSpec.Builds (spec : PacketSpec) : Prop := K.builds spec.srcIp spec.dstIp = true

instance (spec : PacketSpec) : Decidable spec.Builds := inferInstanceAs (Decidable (_ = true))

/-- Without scope ids it is the families that decide. -/
theorem PacketSpec.builds_iff {spec : PacketSpec} (hsrc : '%' ∉ spec.srcIp.toList) (hdst : '%' ∉ spec.dstIp.toList) :
    spec.Builds ↔ ScapyInjector.isIpv6 spec.srcIp = ScapyInjector.isIpv6 spec.dstIp := by
  constructor
  · intro hbuilds
    by_contra hmixed
    have hnot := K.mixed _ _ spec.srcIp_valid spec.dstIp_valid hmixed
    exact Bool.false_ne_true (hnot.symm.trans hbuilds)
  · exact K.plain _ _ spec.srcIp_valid spec.dstIp_valid hsrc hdst

variable [U : PyStr.Unicode] {env : Env}

/-- A command that succeeds: its exit status, the link it shows, the table it prints. A script
    succeeds when its packet can be built. -/
structure Succeeds (c : Cmd) (r : Completed) : Prop where
  returncode : Arg.python ∉ c.argv → r.returncode = 0
  script : ∀ entry spec iface src dst,
    c.argv = entry ++ [.python, .str "-c", .str (ScapyInjector.buildScapyScript spec iface src dst)] →
      (r.returncode = 0 ↔ spec.Builds)
  link : ∀ entry iface, c.argv = entry ++ [.bin "ip", .str "-o", .str "link", .str "show", .str "dev", .str iface] →
    ((ScapyInjector.macRe.search r.stdout).bind (·.get "1")).isSome = true
  table : ∀ entry file, c.argv = entry ++ [.bin "cat", .str file] →
    ∃ entries, Conntrack.parseLines (PyStr.splitOn '\n' (PyStr.strip r.stdout)) = .ok entries

/-- Every request succeeds; a frame is sent when it can be built. -/
def Obliged : (a : Req) → Except PyExc (Reply a) → Prop
  | .sendp f _, .error e => K.builds f.src f.dst = false ∧ e.isException = true
  | .sendp f _, .ok _ => K.builds f.src f.dst = true
  | _, .error _ => False
  | .run c, .ok r => Succeeds c r
  | _, .ok _ => True

/-- A frame of this packet is sent from the host's end of the veth into the namespace. -/
def SentIn (s : St) (p : Packet) : Prop :=
  ∃ spec, .injecting p spec ∈ s.marks ∧ ScapyInjector.isIncoming spec = true ∧ spec.Builds

/-- Every frame sent in was traced, and every line has been delivered. -/
structure Delivered (s : St) : Prop where
  read : s.nread = s.out.length
  put : s.loop.inHand = []
  traced : ∀ p, Mark.injected p ∈ s.marks → SentIn s p → ∃ x ∈ s.out, x.1 = p

def Answers (s : St) : (a : Req) → Except PyExc (Reply a) → Prop
  | .waitForEvent _, .ok seen => seen = s.h.eventSignal ∧ Delivered s
  | a, r => Obliged a r

def Happens (env : Env) (s : St) : Ev → Prop
  | .write p line => SentIn s p ∧ (heard env (p, line)).isSome = true
  | .exit => s.h.stopRequested = true
  | .readError _ => False
  | _ => True

/-- When the loop comes round there is time left, unless it has been told to stop. -/
def Punctual (s : St) : Ev → Prop
  | .begin | .poll | .line | .resume => s.h.stopRequested = true ∨ s.clock < s.h.deadline
  | _ => True

def working (env : Env) : World Req Reply PyExc St Ev :=
  (world env).restrict Answers fun s e => Happens env s e ∧ Punctual s e

/-- Requests that cannot fail. -/
def Req.sure : Req → Prop
  | .sendp _ _ => False
  | _ => True

theorem obliged_sure {a : Req} {e : PyExc} (ha : a.sure) : ¬Obliged a (.error e) := by
  intro h
  cases a <;> first | exact h | exact ha.elim

theorem answers_obliged {s : St} {a : Req} {r : Except PyExc (Reply a)} (h : Answers s a r) : Obliged a r := by
  cases a with
  | waitForEvent ms =>
    cases r with
    | ok seen => trivial
    | error e => exact h
  | _ => exact h

/-- A request that fails has done nothing. -/
theorem Obliged.failed {a : Req} {e : PyExc} (h : Obliged a (.error e)) (s : St) : effect env s a (.error e) = s := by
  cases a <;> first | rfl | exact h.elim

/-! ## No step raises -/

/-- Returns as long as every request succeeds. -/
abbrev Smooth {α : Type} (c : Prog α) : Prop := Settles Obliged (fun _ => True) (fun _ => False) c

theorem smooth_perform {a : Req} (ha : a.sure) : Smooth (perform a) :=
  settles_mono (fun _ _ => trivial) (fun _ => obliged_sure ha) settles_request

theorem smooth_bind {α β : Type} {x : Prog α} {f : α → Prog β} (hf : ∀ v, Smooth (f v)) (hx : Smooth x) :
    Smooth (x.bind f) :=
  settles_bind (fun v _ => hf v) hx

/-- What is not raised is not caught. -/
theorem smooth_tryCatch {α : Type} {x : Prog α} {h : PyExc → Prog α} (hx : Smooth x) : Smooth (x.tryCatch h) :=
  settles_tryCatch (fun _ h => h.elim) hx

theorem succeeds_run (c : Cmd) : Settles Obliged (Succeeds c) (fun _ => False) (perform (.run c)) :=
  settles_mono (fun _ h => h) (fun _ => obliged_sure (a := .run c) trivial) settles_request

section Steps

variable (c : NetnsController) (req : TestRequest) (testId : String)

theorem smooth_getMacAddress (iface : String) (netns : Option String) (useNsenter : Bool) :
    Smooth (ScapyInjector.getMacAddress iface netns useNsenter) := by
  refine settles_bind (fun result hresult => ?_) (succeeds_run _)
  obtain ⟨mac, hmac⟩ := Option.isSome_iff_exists.mp (hresult.link _ _ rfl)
  rw [hmac]
  trivial

/-- `inject` returns when the packet can be built, and else raises a `RuntimeError`. -/
theorem settles_inject (useNsenter : Bool) (spec : PacketSpec) (netns vethHost vethPeer : String)
    (hostNetns : Option String) :
    Settles Obliged (fun _ => spec.Builds) (fun e => ¬spec.Builds ∧ e.isException = true)
      (ScapyInjector.inject useNsenter spec netns vethHost vethPeer hostNetns) := by
  have hmac : ∀ iface entry, Smooth (ScapyInjector.getMacAddress iface entry useNsenter) :=
    fun iface entry => smooth_getMacAddress iface entry useNsenter
  refine settles_bind (fun macs _ => ?_) (settles_mono (fun _ h => h) (fun _ h => h.elim)
    (smooth_tryCatch (smooth_bind (fun _ => smooth_bind (fun _ => trivial) (hmac _ _)) (hmac _ _))))
  split
  split
  · have hsend : ∀ mac mac', Settles Obliged (fun _ => spec.Builds) (fun e => ¬spec.Builds ∧ e.isException = true)
        (perform (.sendp (ScapyInjector.frame spec mac mac') vethHost)) := by
      intro mac mac'
      refine settles_mono (fun _ h => h) (fun e h => ⟨?_, h.2⟩) settles_request
      exact fun hbuilds => Bool.false_ne_true (h.1.symm.trans hbuilds)
    refine settles_tryCatch (fun e he => ?_) (hsend _ _)
    rw [if_pos he.2]
    exact ⟨he.1, rfl⟩
  · refine settles_bind (fun result hresult => ?_) (settles_mono (fun _ h => h) (fun _ h => h.elim) (succeeds_run _))
    have hscript := hresult.script _ spec _ _ _ rfl
    split
    · rename_i hcode
      exact ⟨fun hbuilds => hcode (hscript.mpr hbuilds), rfl⟩
    · rename_i hcode
      exact hscript.mp (Decidable.not_not.mp hcode)

/-- The table that is printed first is read, and parsed. -/
theorem smooth_readConntrackTable (netns : String) (useNsenter : Bool) :
    Smooth (Conntrack.readConntrackTable netns useNsenter) := by
  have hcat : ∀ entry file, Settles Obliged (fun lines => ∃ entries, Conntrack.parseLines lines = .ok entries)
      (fun _ => False) (Conntrack.catTable entry file) := by
    intro entry file
    exact settles_bind (fun result hresult => hresult.table entry file rfl) (succeeds_run _)
  have hresolve : ∀ name, Smooth (perform (.resolve name)) := fun _ => smooth_perform (by trivial)
  refine smooth_bind (fun _ => ?_) (hresolve _)
  refine settles_bind (fun lines hlines => ?_) (settles_tryCatch (fun _ h => h.elim) (hcat _ _))
  obtain ⟨entries, hentries⟩ := hlines
  rw [hentries]
  trivial

end Steps

/-! ## What holds while the monitor runs -/

/-- The loop reads on until it is told to stop, understands every line and has collected no
    error; and the signal is set once an event about a watched packet was delivered. -/
structure Calm (env : Env) (watch : Packet → Prop) (s : St) : Prop where
  going : (s.loop.live = true ∧ s.h.state = .running) ∨
    (s.h.stopRequested = true ∧ (s.loop = .closing ∨ s.loop = .done) ∧ s.h.state = .stopped)
  up : s.exited = true → s.h.stopRequested = true
  parsed : s.h.unparsedTraceLines = 0
  read : s.nread ≤ s.out.length
  lines : ∀ x ∈ s.out, SentIn s x.1 ∧ (heard env x).isSome = true
  clean : ∀ e ∈ s.collected ++ s.loop.inHand, e.type ≠ .error
  raised : s.loop.inHand = [] → ∀ x ∈ s.out.take s.nread, watch x.1 → s.h.eventSignal = true

section Calm

variable {watch : Packet → Prop} {s : St}

/-- A loop that is alive has not ended its harvest. -/
theorem Calm.alive (h : Calm env watch s) (hl : s.loop.live = true) : s.h.state = .running := by
  rcases h.going with ⟨-, hstate⟩ | ⟨-, hpc | hpc, -⟩
  · exact hstate
  · rw [hpc] at hl
    cases hl
  · rw [hpc] at hl
    cases hl

omit K U in
/-- Where the loop goes from its top does not depend on where it was. -/
theorem top_loop (l : LoopPc) (s : St) : Loop.top env { s with loop := l } = Loop.top env s := rfl

/-- A loop that was told to stop ends as it should. -/
theorem Calm.finish (h : Calm env watch s) (hl : s.loop.live = true) (hempty : s.loop.inHand = [])
    (hstop : s.h.stopRequested = true) : Calm env watch (Loop.finish env .stopped s) := by
  have hended : s.h.endAs .stopped = { s.h with state := .stopped } := by
    unfold Harvester.endAs
    rw [if_pos (h.alive hl)]
  have hclean := h.clean
  have hraised := h.raised hempty
  rw [hempty] at hclean
  unfold Loop.finish Loop.close
  dsimp only
  rw [hended]
  split
  · exact ⟨.inr ⟨hstop, .inl rfl, rfl⟩, h.up, h.parsed, h.read, h.lines, hclean, fun _ => hraised⟩
  · exact ⟨.inr ⟨hstop, .inr rfl, rfl⟩, h.up, h.parsed, h.read, h.lines, hclean, fun _ => hraised⟩

/-- The loop comes round: it reads on, or it has been told to stop. -/
theorem Calm.top (h : Calm env watch s) (hl : s.loop.live = true) (hempty : s.loop.inHand = [])
    (htime : s.h.stopRequested = true ∨ s.clock < s.h.deadline) : Calm env watch (Loop.top env s) := by
  have hclean := h.clean
  rw [hempty] at hclean
  unfold Loop.top
  split
  · have hstop : s.h.stopRequested = true := by
      rcases htime with hstop | hearly
      · exact hstop
      · omega
    rw [if_pos hstop]
    exact h.finish hl hempty hstop
  · exact ⟨.inl ⟨rfl, h.alive hl⟩, h.up, h.parsed, h.read, h.lines, hclean, fun _ => h.raised hempty⟩

theorem Calm.deliver {e : TraceEvent} (h : Calm env watch s) (hl : s.loop = .putting e)
    (htime : s.h.stopRequested = true ∨ s.clock < s.h.deadline) : Calm env watch (Loop.deliver env e s) := by
  have hstate := h.alive (by rw [hl]; rfl)
  have hclean := h.clean
  rw [hl] at hclean
  unfold Loop.deliver
  rw [← top_loop .reading]
  refine Calm.top ⟨.inl ⟨rfl, hstate⟩, h.up, h.parsed, h.read, h.lines, ?_, fun _ _ _ _ => rfl⟩ rfl rfl htime
  simpa [LoopPc.inHand] using hclean

omit K in
theorem consume_heard {p : Packet} {raw : String} (h : (heard env (p, raw)).isSome = true) (s : St) :
    ∃ e, e.type ≠ .error ∧
      Loop.consume env raw s = Loop.putEvent env e { s with nread := s.nread + 1, h := s.h.recordId e } := by
  unfold heard at h
  split at h
  · cases h
  · rename_i hne
    rw [Option.isSome_map] at h
    obtain ⟨e, he⟩ := Option.isSome_iff_exists.mp h
    have hparsed := TraceParser.eventOf_eq_some.mp he
    refine ⟨e, ?_, ?_⟩
    · intro herr
      have htraced := parseLine_traced hparsed
      simp [TraceEvent.traced, herr] at htraced
    · unfold Loop.consume
      simp only [hne, if_false]
      rw [hparsed]

theorem Calm.line {p : Packet} {raw : String} (h : Calm env watch s) (hl : s.loop = .reading)
    (hraw : s.out[s.nread]? = some (p, raw)) (htime : s.h.stopRequested = true ∨ s.clock < s.h.deadline) :
    Calm env watch (Loop.consume env raw s) := by
  obtain ⟨hlt, hx⟩ := List.getElem?_eq_some_iff.mp hraw
  obtain ⟨e, he, hconsume⟩ := consume_heard (h.lines (p, raw) (hx ▸ List.getElem_mem hlt)).2 s
  have hstate := h.alive (by rw [hl]; rfl)
  have htaken : Calm env watch { s with nread := s.nread + 1, h := s.h.recordId e, loop := .putting e } := by
    refine ⟨.inl ⟨rfl, (Harvester.recordId_state _ _).trans hstate⟩, ?_, ?_, hlt, h.lines, ?_, fun hno => by cases hno⟩
    · dsimp only
      rw [Harvester.recordId_stop]
      exact h.up
    · exact (Harvester.recordId_counts _ _).1.trans h.parsed
    · have hclean := h.clean
      rw [hl] at hclean
      intro e' he'
      rcases List.mem_append.mp he' with he' | he'
      · exact hclean e' (List.mem_append_left _ he')
      · cases List.mem_singleton.mp he'
        exact he
  rw [hconsume]
  unfold Loop.putEvent
  split
  · exact htaken
  · have hdelivered := htaken.deliver rfl (by simpa using htime)
    unfold Loop.deliver at hdelivered ⊢
    rw [← top_loop (.putting e)]
    exact hdelivered

theorem calm_stable : Stable (working env) (Calm env watch) := by
  intro s e s' h he
  obtain ⟨he, hhappens, htime⟩ := he
  have he : event env s e = some s' := he
  cases e with
  | tick ms =>
    cases he
    exact ⟨h.going, h.up, h.parsed, h.read, h.lines, h.clean, h.raised⟩
  | write p line =>
    simp only [event] at he
    split at he
    · cases he
      refine ⟨h.going, h.up, h.parsed, ?_, ?_, h.clean, ?_⟩
      · simp only [List.length_append]
        exact Nat.le_add_right_of_le h.read
      · intro x hx
        rcases List.mem_append.mp hx with hx | hx
        · exact h.lines x hx
        · cases List.mem_singleton.mp hx
          exact hhappens
      · dsimp only
        rw [List.take_append_of_le_length h.read]
        exact h.raised
    · cases he
  | exit =>
    simp only [event] at he
    split at he
    · cases he
      exact ⟨h.going, fun _ => hhappens, h.parsed, h.read, h.lines, h.clean, h.raised⟩
    · cases he
  | take =>
    simp only [event] at he
    split at he
    · cases he
      exact ⟨h.going, h.up, h.parsed, h.read, h.lines, h.clean, h.raised⟩
    · cases he
  | begin =>
    simp only [event] at he
    split at he
    · rename_i hl
      cases he
      have hready : Calm env watch { s with h := { s.h with ready := true } } :=
        ⟨h.going, h.up, h.parsed, h.read, h.lines, h.clean, h.raised⟩
      exact hready.top (by rw [hl]; rfl) (by rw [hl]; rfl) htime
    · cases he
  | poll =>
    simp only [event] at he
    split at he
    · rename_i hl
      cases he
      exact h.top (by rw [hl]; rfl) (by rw [hl]; rfl) htime
    · cases he
  | line =>
    simp only [event] at he
    split at he
    · rename_i p raw hl hraw
      cases he
      exact h.line hl hraw htime
    · cases he
  | eof =>
    simp only [event] at he
    split at he
    · rename_i hguard
      obtain ⟨hl, hexited, -⟩ := hguard
      have hstop := h.up hexited
      cases he
      rw [if_pos hstop]
      exact h.finish (by rw [hl]; rfl) (by rw [hl]; rfl) hstop
    · cases he
  | readError exc => exact hhappens.elim
  | resume =>
    simp only [event] at he
    split at he
    · cases he
    · split at he
      · rename_i hl
        cases he
        exact h.deliver hl htime
      · rename_i hl
        cases he
        have hclean := h.clean
        have hraised := h.raised
        rw [hl] at hclean hraised
        refine ⟨?_, h.up, h.parsed, h.read, h.lines, hclean, hraised⟩
        rcases h.going with ⟨hlive, -⟩ | ⟨hstop, -, hstate⟩
        · rw [hl] at hlive
          cases hlive
        · exact .inr ⟨hstop, .inr rfl, hstate⟩
      · cases he

/-- Requests that leave the loop alone, do not clear the signal and collect no error. -/
def Req.steady : Req → Prop
  | .cancelTask | .setStopped | .reset | .launch _ | .armEventSignal => False
  | .collect e => e.type ≠ .error
  | _ => True

omit U in
theorem SentIn.mono {s t : St} {p : Packet} (h : SentIn s p) (hmarks : s.marks <+: t.marks) : SentIn t p := by
  obtain ⟨spec, hspec, hin⟩ := h
  exact ⟨spec, hmarks.subset hspec, hin⟩

theorem calm_answer {a : Req} (ha : a.steady) (v : Reply a) (h : Calm env watch s) :
    Calm env watch (effect env s a (.ok v)) := by
  have hmarked : ∀ ms : List Mark, ∀ x ∈ s.out, SentIn { s with marks := s.marks ++ ms } x.1 ∧
      (heard env x).isSome = true := by
    intro ms x hx
    exact ⟨(h.lines x hx).1.mono (List.prefix_append _ _), (h.lines x hx).2⟩
  cases a with
  | collect e =>
    refine ⟨h.going, h.up, h.parsed, h.read, h.lines, ?_, h.raised⟩
    intro e' he'
    simp only [effect, List.append_assoc, List.mem_append, List.mem_singleton] at he'
    rcases he' with he' | he' | he'
    · exact h.clean e' (List.mem_append_left _ he')
    · rw [he']
      exact ha
    · exact h.clean e' (List.mem_append_right _ he')
  | stop =>
    refine ⟨?_, fun _ => rfl, h.parsed, h.read, h.lines, h.clean, h.raised⟩
    rcases h.going with hgoing | ⟨-, hended⟩
    · exact .inl hgoing
    · exact .inr ⟨rfl, hended⟩
  | extendDeadline ms =>
    refine ⟨?_, h.up, h.parsed, h.read, h.lines, h.clean, h.raised⟩
    rcases h.going with hgoing | hended
    · exact .inl hgoing
    · exact .inr hended
  | seenTraceIds | healthErrors | mark m => exact ⟨h.going, h.up, h.parsed, h.read, hmarked _, h.clean, h.raised⟩
  | cancelTask | setStopped | reset | launch _ | armEventSignal => exact ha.elim
  | _ => exact ⟨h.going, h.up, h.parsed, h.read, h.lines, h.clean, h.raised⟩

/-- Arming the signal for packets that have left no trace yet. -/
theorem Calm.arm {watch' : Packet → Prop} (h : Calm env watch s) (hnew : ∀ x ∈ s.out, ¬watch' x.1) :
    Calm env watch' { s with h := s.h.armEventSignal } :=
  ⟨h.going, h.up, h.parsed, h.read, h.lines, h.clean, fun _ x hx hw => absurd hw (hnew x (List.mem_of_mem_take hx))⟩

end Calm

/-! ## Before the monitor runs -/

/-- Nothing was started, traced, sent or collected. -/
structure Pristine (s : St) : Prop where
  loop : s.loop = .idle
  out : s.out = []
  nread : s.nread = 0
  collected : s.collected = []
  canaryIds : s.canaryIds = []
  marks : s.marks = []
  exited : s.exited = false
  h : s.h = {}

/-- The monitor was just launched. -/
theorem Pristine.launched {s : St} (h : Pristine s) (clock timeout : Nat) :
    Calm env (fun _ => False) { s with h := s.h.launched clock timeout, loop := .scheduled } := by
  refine ⟨.inl ⟨rfl, rfl⟩, ?_, ?_, ?_, ?_, ?_, fun _ _ _ hw => hw.elim⟩
  · intro hexited
    have hnot := h.exited
    rw [show s.exited = true from hexited] at hnot
    cases hnot
  · rw [h.h]
    rfl
  · dsimp only
    rw [h.nread]
    exact Nat.zero_le _
  · intro x hx
    rw [show s.out = [] from h.out] at hx
    cases hx
  · intro e he
    rw [show s.collected = [] from h.collected] at he
    cases he

/-! ## Runs -/

section Goes

variable {α : Type} {p : Req → Prop} {P : St → Prop} {V : α → St → Prop} {X : PyExc → St → Prop} {s : St}

/-- In an environment that works, the coroutine ends, if it does, with `V` of its value or `X` of
    its exception. -/
abbrev GoesOr (env : Env) (V : α → St → Prop) (X : PyExc → St → Prop) (c : Prog α) (s : St) : Prop :=
  wp (working env) (fun _ _ => True) (Post V X) c s

/-- It does not raise. -/
abbrev Goes (env : Env) (V : α → St → Prop) (c : Prog α) (s : St) : Prop := GoesOr env V (fun _ _ => False) c s

/-- Every event of a working environment keeps `P`, and so does success. -/
structure Steadfast (env : Env) (p : Req → Prop) (P : St → Prop) : Prop where
  stable : Stable (working env) P
  answer : ∀ s a v, p a → P s → allows env s a (.ok v) = true → P (effect env s a (.ok v))

theorem Steadfast.and {Q : St → Prop} (h : Steadfast env p P) (h' : Steadfast env p Q) :
    Steadfast env p fun s => P s ∧ Q s :=
  ⟨h.stable.and h'.stable, fun s a v ha hs hr => ⟨h.answer s a v ha hs.1 hr, h'.answer s a v ha hs.2 hr⟩⟩

theorem Steadfast.mono {q : Req → Prop} (h : Steadfast env p P) (hqp : ∀ a, q a → p a) : Steadfast env q P :=
  ⟨h.stable, fun s a v ha => h.answer s a v (hqp a ha)⟩

/-- Every answer keeps it: what fails has done nothing. -/
theorem Steadfast.answered (h : Steadfast env p P) : ∀ s a r s', p a → P s → (working env).answer s a r s' → P s' := by
  intro s a r s' ha hs hr
  obtain ⟨⟨hal, rfl⟩, hworks⟩ := hr
  cases r with
  | ok v => exact h.answer s a v ha hs hal
  | error e =>
    rw [(answers_obliged hworks).failed]
    exact hs

theorem goesOr_only {v : α → Prop} {x : PyExc → Prop} (hP : Steadfast env p P) {c : Prog α} (hc : Only p c)
    (hsettles : Settles Obliged v x c) (hs : P s) : GoesOr env (fun w t => v w ∧ P t) (fun e t => x e ∧ P t) c s :=
  wp_settles hP.stable (fun _ _ _ _ => trivial) (fun _ _ _ _ _ hr => answers_obliged hr.2) hP.answered hc hsettles hs

theorem goes_only (hP : Steadfast env p P) {c : Prog α} (hc : Only p c) (hsmooth : Smooth c) (hs : P s) :
    Goes env (fun _ => P) c s :=
  post_mono (goesOr_only hP hc hsmooth hs) (fun _ _ h => h.2) fun _ _ h => h.1

theorem goes_ask {a : Req} (hP : Steadfast env p P) (ha : p a) (hsure : a.sure) (hs : P s) :
    Goes env (fun _ => P) (perform a) s :=
  goes_only hP (only_request ha) (smooth_perform hsure) hs

end Goes

end Nse
