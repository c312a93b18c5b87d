/-
  Nse.Core.Kernel — the commands of a controller, run on a host.

  `placed` reads off the words of a command which stack it runs in, and `actOf` what it does
  there. Each time a command is run the outside settles one of the `Outcome`s, and the host
  may still refuse what cannot be done. A `Site` is the host with `_active_ns` and the
  outcomes to come; `Site.answer` answers the requests of a coroutine there.
-/

import Nse.Core.NetnsController
import Nse.Lib.Handler
import Nse.Lib.NetHost

namespace Nse

open NetHost (Act Host)

/-! ## Commands -/

def Arg.text : Arg → Option String
  | .str s => some s
  | _ => none

/-- What an `ip` command does. -/
def ipAct : List String → Act
  | ["netns", "add", name] => .netnsAdd name
  | ["netns", "del", name] => .netnsDel name
  | ["link", "add", near, "type", "veth", "peer", "name", far] => .linkAdd near far
  | ["link", "set", dev, "netns", space] => .linkMove dev space
  | ["link", "set", dev, "up"] => .linkUp dev
  | ["link", "del", dev] => .linkDel dev
  | ["addr", "add", addr, "dev", dev] => .addrAdd addr dev
  | ["route", "add", dest, "via", via, "dev", dev] => .routeAdd false dest via dev
  | ["-6", "route", "add", dest, "via", via, "dev", dev] => .routeAdd true dest via dev
  | _ => .other

def actOf : List Arg → Act
  | .bin "ip" :: words => ipAct (words.filterMap Arg.text)
  | _ => .other

def netnsDirectory : String := "--net=/var/run/netns/"

/-- The stack a command runs in, and the command without what enters it. -/
def placed : List Arg → Option String × List Arg
  | .bin "nsenter" :: .str path :: .str "--" :: argv =>
    (some (String.ofList (path.toList.drop netnsDirectory.length)), argv)
  | .bin "ip" :: .str "netns" :: .str "exec" :: .str name :: argv => (some name, argv)
  | argv => (none, argv)

/-- A command of the host. -/
def commandOf (argv : List Arg) : Option String × Act := ((placed argv).1, actOf (placed argv).2)

theorem placed_execPrefix (useNsenter : Bool) (netns : String) (argv : List Arg) :
    placed (execPrefix useNsenter netns ++ argv) = (some netns, argv) := by
  cases useNsenter with
  | false => rfl
  | true =>
    have hlen : netnsDirectory.length = "--net=/var/run/netns/".toList.length := rfl
    show (some (String.ofList (("--net=/var/run/netns/" ++ netns).toList.drop netnsDirectory.length)), argv) = _
    rw [String.toList_append, hlen, List.drop_left, String.ofList_toList]

theorem filterMap_text (words : List String) : (words.map Arg.str).filterMap Arg.text = words := by
  induction words with
  | nil => rfl
  | cons w words ih =>
    show w :: (words.map Arg.str).filterMap Arg.text = _
    rw [ih]

theorem actOf_ip (words : List String) : actOf (NetnsController.ip words) = ipAct words := by
  show ipAct ((words.map Arg.str).filterMap Arg.text) = _
  rw [filterMap_text]

theorem commandOf_execPrefix (useNsenter : Bool) (netns : String) (argv : List Arg) :
    commandOf (execPrefix useNsenter netns ++ argv) = (some netns, actOf argv) := by
  rw [commandOf, placed_execPrefix]

namespace NetnsController

def addArgv (name : String) : List Arg := ip ["netns", "add", name]

def delArgv (name : String) : List Arg := ip ["netns", "del", name]

theorem commandOf_inNetns (c : NetnsController) (name : String) (words : List String) :
    commandOf (c.inNetns name (ip words)) = (some name, ipAct words) :=
  (commandOf_execPrefix _ _ _).trans (congrArg _ (actOf_ip words))

end NetnsController

/-! ## Outcomes -/

inductive Outcome where
  | done
  /-- A non-zero exit, with this on standard error; nothing has changed. -/
  | refused (stderr : String)
  /-- The timeout expired, before or after the command took effect. -/
  | timedOut (performed : Bool)
  deriving DecidableEq, Repr

/-- The outcomes to come, after this command was run once more. -/
def spent (argv : List Arg) (o : List Arg → Nat → Outcome) : List Arg → Nat → Outcome := fun other k =>
  if other = argv then o other (k + 1) else o other k

/-- Each of these commands succeeds when its turn comes. -/
def Granted : (List Arg → Nat → Outcome) → List (List Arg) → Prop
  | _, [] => True
  | o, argv :: argvs => o argv 0 = .done ∧ Granted (spent argv o) argvs

theorem spent_other {argv other : List Arg} (hne : other ≠ argv) (o : List Arg → Nat → Outcome) :
    spent argv o other = o other := by
  funext k
  simp [spent, hne]

theorem spent_self (argv : List Arg) (o : List Arg → Nat → Outcome) : spent argv o argv = fun k => o argv (k + 1) := by
  funext k
  simp [spent]

theorem granted_congr : ∀ {argvs : List (List Arg)} {o o' : List Arg → Nat → Outcome},
    (∀ argv ∈ argvs, o argv = o' argv) →
    (Granted o argvs ↔ Granted o' argvs)
  | [], _, _, _ => Iff.rfl
  | argv :: argvs, o, o', h => by
    have hhead : o argv = o' argv := h argv List.mem_cons_self
    have hrest : ∀ other ∈ argvs, spent argv o other = spent argv o' other := by
      intro other hother
      funext k
      simp only [spent, h other (List.mem_cons_of_mem argv hother)]
    rw [Granted, Granted, hhead, granted_congr hrest]

theorem granted_done : ∀ {argvs : List (List Arg)} {o : List Arg → Nat → Outcome}, (∀ argv k, o argv k = .done) →
    Granted o argvs
  | [], _, _ => trivial
  | argv :: argvs, o, h => ⟨h argv 0, granted_done fun other k => by
      unfold spent
      split <;> exact h other _⟩

/-- What a controller acts on. -/
structure Site (ω : Type) where
  host : Host ω
  /-- `_active_ns`. -/
  active : List String := []
  /-- What the outside settles for each command, the next time first. -/
  outcomes : List Arg → Nat → Outcome

/-- The rest of the outside. -/
structure Outside where
  /-- The order in which a set is listed. -/
  order : List String → List String
  order_perm : ∀ names, (order names).Perm names
  others : (a : Req) → Except PyExc (Reply a)

def refusal (stderr : String) : PyExc := { cls := .calledProcessError, text := "", stderr }

def expiry : PyExc := { cls := .timeoutExpired, text := "" }

namespace Site

variable {ω : Type} (who : ω) (out : Outside) (s : Site ω)

/-- The command has been run once more. -/
def spend (argv : List Arg) : Site ω := { s with outcomes := spent argv s.outcomes }

/-- The host once the command took effect; `none` where it is refused. -/
def effect (argv : List Arg) : Option (Host ω) := s.host.perform who (commandOf argv).1 (commandOf argv).2

/-- `subprocess.run(argv, check=True)`, its output dropped. -/
def exec (argv : List Arg) : Except PyExc Unit × Site ω :=
  match s.outcomes argv 0, s.effect who argv with
  | .done, some host => (.ok (), { s.spend argv with host })
  | .done, none => (.error (refusal ""), s.spend argv)
  | .refused stderr, _ => (.error (refusal stderr), s.spend argv)
  | .timedOut true, some host => (.error expiry, { s.spend argv with host })
  | .timedOut _, _ => (.error expiry, s.spend argv)

/-- What a command with or without `check` comes to. -/
def report (check : Bool) : Except PyExc Unit → Except PyExc Completed
  | .ok () => .ok { returncode := 0, stdout := "", stderr := "" }
  | .error e =>
    if check || e.cls != .calledProcessError then .error e
      else .ok { returncode := 1, stdout := "", stderr := e.stderr }

def answer (s : Site ω) : (a : Req) → Except PyExc (Reply a) × Site ω
  | .run c => (report c.check (s.exec who c.argv).1, (s.exec who c.argv).2)
  | .addActive name => (.ok (), { s with active := if name ∈ s.active then s.active else name :: s.active })
  | .discardActive name => (.ok (), { s with active := s.active.filter (· != name) })
  | .activeNs => (.ok (out.order s.active), s)
  | .sleep _ => (.ok (), s)
  | a => (out.others a, s)

/-- The controller's `x`, run to its end. -/
def runs {α : Type} (x : Prog α) : Except PyExc α × Site ω := Coroutine.handle (answer who out) x s

variable {who : ω} {out : Outside} {s : Site ω} {argv : List Arg}

/-- What can come of a command. -/
theorem exec_cases (who : ω) (s : Site ω) (argv : List Arg) :
    (∃ host, s.outcomes argv 0 = .done ∧ s.effect who argv = some host ∧
      s.exec who argv = (.ok (), { s.spend argv with host })) ∨
    (∃ stderr, (s.outcomes argv 0 = .refused stderr ∨ s.outcomes argv 0 = .done ∧ s.effect who argv = none) ∧
      s.exec who argv = (.error (refusal stderr), s.spend argv)) ∨
    (∃ host, s.outcomes argv 0 = .timedOut true ∧ s.effect who argv = some host ∧
      s.exec who argv = (.error expiry, { s.spend argv with host })) ∨
    (∃ performed, s.outcomes argv 0 = .timedOut performed ∧ (performed = true → s.effect who argv = none) ∧
      s.exec who argv = (.error expiry, s.spend argv)) := by
  unfold exec
  cases ho : s.outcomes argv 0 with
  | done =>
    cases he : s.effect who argv with
    | some host => exact .inl ⟨host, rfl, rfl, rfl⟩
    | none => exact .inr (.inl ⟨"", .inr ⟨rfl, rfl⟩, rfl⟩)
  | refused stderr => exact .inr (.inl ⟨stderr, .inl rfl, rfl⟩)
  | timedOut performed =>
    cases performed with
    | false => exact .inr (.inr (.inr ⟨false, rfl, by simp, rfl⟩))
    | true =>
      cases he : s.effect who argv with
      | some host => exact .inr (.inr (.inl ⟨host, rfl, rfl, rfl⟩))
      | none => exact .inr (.inr (.inr ⟨true, rfl, fun _ => rfl, rfl⟩))

theorem exec_active : (s.exec who argv).2.active = s.active := by
  rcases exec_cases who s argv with
    ⟨host, -, -, h⟩ | ⟨stderr, -, h⟩ | ⟨host, -, -, h⟩ | ⟨performed, -, -, h⟩ <;> rw [h] <;> rfl

/-- The outcomes of the other commands are still to come. -/
theorem exec_outcomes {other : List Arg} (hne : other ≠ argv) :
    (s.exec who argv).2.outcomes other = s.outcomes other := by
  have hspend : (s.spend argv).outcomes other = s.outcomes other := spent_other hne s.outcomes
  rcases exec_cases who s argv with
    ⟨host, -, -, h⟩ | ⟨stderr, -, h⟩ | ⟨host, -, -, h⟩ | ⟨performed, -, -, h⟩ <;> rw [h] <;> exact hspend

/-- A command takes effect or leaves the host as it is. -/
theorem exec_host (who : ω) (s : Site ω) (argv : List Arg) : (s.exec who argv).2.host = s.host ∨ s.effect who argv =
    some (s.exec who argv).2.host := by
  rcases exec_cases who s argv with
    ⟨host, -, he, h⟩ | ⟨stderr, -, h⟩ | ⟨host, -, he, h⟩ | ⟨performed, -, -, h⟩ <;> rw [h]
  · exact .inr he
  · exact .inl rfl
  · exact .inr he
  · exact .inl rfl

/-- What comes of a command that leaves the host as it is. -/
def plainly : Outcome → Except PyExc Unit
  | .done => .ok ()
  | .refused stderr => .error (refusal stderr)
  | .timedOut _ => .error expiry

theorem exec_plain (h : s.effect who argv = some s.host) :
    s.exec who argv = (plainly (s.outcomes argv 0), s.spend argv) := by
  unfold exec
  rw [h]
  cases s.outcomes argv 0 with
  | done => rfl
  | refused stderr => rfl
  | timedOut performed => cases performed <;> rfl

section Runs

open Coroutine

variable {α β : Type}

@[simp] theorem runs_ret (v : α) : s.runs who out (.ret v : Prog α) = (.ok v, s) := rfl

@[simp] theorem runs_throw (e : PyExc) : s.runs who out (.throw e : Prog α) = (.error e, s) := rfl

theorem runs_bind (x : Prog α) (f : α → Prog β) :
    s.runs who out (x.bind f) = onValue (fun v (t : Site ω) => t.runs who out (f v)) (s.runs who out x) :=
  handle_bind f x s

theorem runs_tryCatch (x : Prog α) (c : PyExc → Prog α) :
    s.runs who out (x.tryCatch c) = onError (fun e (t : Site ω) => t.runs who out (c e)) (s.runs who out x) :=
  handle_tryCatch c x s

theorem runs_tryFinally (x : Prog α) (fin : Prog Unit) :
    s.runs who out (x.tryFinally fin) = keeping (s.runs who out x).1 ((s.runs who out x).2.runs who out fin) :=
  handle_tryFinally fin x s

theorem runs_forEach (f : β → Prog Unit) (x : β) (xs : List β) :
    s.runs who out (Co.forEach (x :: xs) f) =
      onValue (fun _ (t : Site ω) => t.runs who out (Co.forEach xs f)) (s.runs who out (f x)) :=
  handle_forEach f x xs s

theorem runs_perform (a : Req) : s.runs who out (perform a) = s.answer who out a := handle_request a s

theorem runs_sleep (ms : Nat) : s.runs who out (perform (.sleep ms) : Prog Unit) = (.ok (), s) := rfl

theorem runs_addActive (name : String) : s.runs who out (perform (.addActive name) : Prog Unit) =
    (.ok (), { s with active := if name ∈ s.active then s.active else name :: s.active }) := rfl

theorem runs_discardActive (name : String) :
    s.runs who out (perform (.discardActive name) : Prog Unit) =
      (.ok (), { s with active := s.active.filter (· != name) }) := rfl

/-- What the answers to every request keep, the run keeps. -/
theorem runs_keeps {p : Req → Prop} {P : Site ω → Prop} (hP : ∀ s a, p a → P s → P (s.answer who out a).2) {x : Prog α}
    (hx : Only p x) (hs : P s) : P (s.runs who out x).2 :=
  handle_keeps hP hx hs

theorem runs_run : s.runs who out (NetnsController.run argv) = s.exec who argv := by
  show s.runs who out ((perform (.run { argv, check := true, timeout := some 10000 })).bind fun _ => .ret ()) = _
  rw [runs_bind, runs_perform]
  simp only [answer]
  rcases s.exec who argv with ⟨r | r, t⟩
  · simp [report]
  · rfl

/-- A command succeeds as it is meant to exactly when the outside and the host both let it. -/
theorem exec_ok {t : Site ω} : s.exec who argv = (.ok (), t) ↔
    s.outcomes argv 0 = .done ∧ s.effect who argv = some t.host ∧ t = { s.spend argv with host := t.host } := by
  constructor
  · intro h
    rcases exec_cases who s argv with
      ⟨host, hout, heffect, he⟩ | ⟨stderr, -, he⟩ | ⟨host, -, -, he⟩ | ⟨performed, -, -, he⟩
        <;> rw [he] at h <;> cases h
    exact ⟨hout, heffect, rfl⟩
  · intro ⟨hout, heffect, ht⟩
    rw [exec, hout, heffect, ht]

theorem runs_runAll : ∀ {argvs : List (List Arg)} {s t : Site ω}, s.runs who out (NetnsController.runAll argvs) =
    (.ok (), t) ↔
    Granted s.outcomes argvs ∧ s.host.performAll who (argvs.map commandOf) = some t.host ∧
      t = { host := t.host, active := s.active, outcomes := argvs.foldl (fun o argv => spent argv o) s.outcomes }
  | [], s, t => by
    show (Except.ok (), s) = ((.ok (), t) : Except PyExc Unit × Site ω) ↔ _
    simp only [Granted, Host.performAll, List.map_nil, List.foldl_nil, Prod.mk.injEq, true_and, Option.some.injEq]
    constructor
    · rintro rfl
      exact ⟨rfl, rfl⟩
    · intro ⟨hhost, ht⟩
      rw [ht, ← hhost]
  | argv :: argvs, s, t => by
    show s.runs who out (Co.forEach (argv :: argvs) NetnsController.run) = _ ↔ _
    rw [runs_forEach, runs_run, Granted, List.map_cons, Host.performAll, List.foldl_cons]
    show _ ↔ _ ∧ (s.effect who argv).bind _ = _ ∧ _
    constructor
    · intro h
      rcases hexec : s.exec who argv with ⟨r | r, u⟩
      · rw [hexec] at h
        cases h
      · cases r
        obtain ⟨hout, heffect, hu⟩ := exec_ok.mp hexec
        rw [hexec] at h
        obtain ⟨hgranted, hperform, ht⟩ := runs_runAll.mp h
        rw [hu] at hgranted ht
        rw [heffect]
        exact ⟨⟨hout, hgranted⟩, hperform, ht⟩
    · intro ⟨⟨hout, hgranted⟩, hperform, ht⟩
      obtain ⟨host, heffect, hperform⟩ := Option.bind_eq_some_iff.mp hperform
      have hexec : s.exec who argv = (.ok (), { s.spend argv with host }) := exec_ok.mpr ⟨hout, heffect, rfl⟩
      rw [hexec]
      exact runs_runAll.mpr ⟨hgranted, hperform, ht⟩

end Runs

end Site

end Nse
