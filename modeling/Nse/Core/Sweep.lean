/-
  Nse.Core.Sweep — which namespaces and interfaces the startup sweep tries to delete.

  The two listings are texts; `cutNetns` and `cutLink` say what is read off each line of
  them. A deletion that raises ends its loop, under one handler around the whole of it, so
  (`startup_sweep_iff`) the sweep is complete and selective exactly when no swept namespace's
  name holds white space and no swept interface's an `@`, and only the last deletion of each
  listing raises. It never raises itself. As built, one namespace that is slow to go keeps
  the later ones (`one_stuck_orphan_keeps_the_others`).
-/

import Mathlib.Data.List.Basic
import Mathlib.Data.List.TakeWhile
import Nse.Core.NetnsController
import Nse.Lib.Handler
import Nse.Lib.PyFields

namespace Nse.NetnsController

open Coroutine
open PyStr (Word noBreak_literal noBreak_append notBreak_of_digit)

variable [U : PyStr.Unicode]

/-! ## The listings -/

/-- `name` or `name (id: n)`. -/
structure NetnsLine where
  name : String
  id : Option Nat
  begins : ∃ c cs, name.toList = c :: cs ∧ U.isSpace c = false
  oneLine : ∀ c ∈ name.toList, PyStr.isLineBreak c = false

def NetnsLine.text (l : NetnsLine) : String :=
  match l.id with
  | some n => l.name ++ " (id: " ++ toString n ++ ")"
  | none => l.name

/-- The two lines of an interface: `index: name@peer: attributes`, then `link/kind`, with
    the octets of a hardware address or without. -/
structure LinkLines where
  index : Nat
  name : String
  peer : Option String
  attributes : String
  kind : String
  octets : Option (String × String × String)
  name_word : Word name
  name_plain : ':' ∉ name.toList
  peer_word : ∀ p ∈ peer, Word p ∧ ':' ∉ p.toList
  kind_plain : ':' ∉ kind.toList
  octets_hex : ∀ o ∈ octets, ':' ∉ o.1.toList ∧ ∀ c ∈ o.2.1.toList, TraceParser.hexChar c = true
  oneLine : ∀ t ∈ [name, peer.getD "", attributes, kind, (octets.getD ("", "", "")).1, (octets.getD ("", "", "")).2.1,
    (octets.getD ("", "", "")).2.2], ∀ c ∈ t.toList, PyStr.isLineBreak c = false

namespace LinkLines

variable (l : LinkLines)

def shown : String :=
  match l.peer with
  | some p => l.name ++ "@" ++ p
  | none => l.name

def first : String := toString l.index ++ ": " ++ l.shown ++ ": " ++ l.attributes

def second : String :=
  match l.octets with
  | some (a, b, rest) => "    link/" ++ l.kind ++ " " ++ a ++ ":" ++ b ++ ":" ++ rest
  | none => "    link/" ++ l.kind

def lines : List String := [l.first, l.second]

end LinkLines

/-! ## What is read off a line -/

omit U in
theorem takeWhile_stop {α : Type} {keep : α → Bool} {c : α} (hc : keep c = false) :
    ∀ {xs ys : List α}, (xs ++ c :: ys).takeWhile keep = xs.takeWhile keep
  | [], ys => by simp [hc]
  | x :: xs, ys => by
    rw [List.cons_append, List.takeWhile_cons, List.takeWhile_cons, takeWhile_stop hc]

omit U in
theorem prefix_takeWhile {keep : Char → Bool} : ∀ {p cs : List Char}, (∀ c ∈ p, keep c = true) →
    p.isPrefixOf (cs.takeWhile keep) = p.isPrefixOf cs
  | [], _, _ => rfl
  | c :: p, [], _ => rfl
  | c :: p, d :: cs, h => by
    have hc := h c List.mem_cons_self
    by_cases hcd : c = d
    · rw [← hcd, List.takeWhile_cons_of_pos hc, List.isPrefixOf_cons_cons, List.isPrefixOf_cons_cons,
        prefix_takeWhile fun e he => h e (List.mem_cons_of_mem c he)]
    · have hne : (c == d) = false := by simpa using hcd
      rw [List.takeWhile_cons]
      split
      · rw [List.isPrefixOf_cons_cons, List.isPrefixOf_cons_cons, hne]
        rfl
      · rw [List.isPrefixOf_cons_cons, hne]
        rfl

omit U in
/-- A name begins like what is cut off it, as far as the cut keeps the prefixes. -/
theorem hasPrefix_takeWhile {keep : Char → Bool} {prefixes : List String}
    (h : ∀ p ∈ prefixes, ∀ c ∈ p.toList, keep c = true)
    (name : String) : hasPrefix prefixes (String.ofList (name.toList.takeWhile keep)) = hasPrefix prefixes name := by
  have hany : ∀ p ∈ prefixes, PyStr.startsWith (String.ofList (name.toList.takeWhile keep)) p =
      PyStr.startsWith name p := by
    intro p hp
    unfold PyStr.startsWith
    rw [String.toList_ofList, prefix_takeWhile (h p hp)]
  unfold hasPrefix
  rw [Bool.eq_iff_iff, List.any_eq_true, List.any_eq_true]
  constructor
  · intro ⟨p, hp, hstart⟩
    exact ⟨p, hp, hany p hp ▸ hstart⟩
  · intro ⟨p, hp, hstart⟩
    exact ⟨p, hp, (hany p hp).symm ▸ hstart⟩

/-- The name of a namespace up to its first white space. -/
def cutNetns (name : String) : String := String.ofList (name.toList.takeWhile fun c => !U.isSpace c)

omit U in
/-- The name of an interface up to its first `@`. -/
def cutLink (name : String) : String := String.ofList (name.toList.takeWhile (· != '@'))

omit U in
theorem takeWhile_eq_self {keep : Char → Bool} {s : String} :
    String.ofList (s.toList.takeWhile keep) = s ↔ ∀ c ∈ s.toList, keep c = true := by
  rw [← String.toList_inj, String.toList_ofList, List.takeWhile_eq_self_iff]

theorem hasPrefix_cutNetns (name : String) :
    hasPrefix netnsSweepPrefixes (cutNetns name) = hasPrefix netnsSweepPrefixes name := by
  refine hasPrefix_takeWhile ?_ name
  intro p hp c hc
  have hascii :
      ∀ q ∈ netnsSweepPrefixes, q.toList.all (fun c => decide (c.toNat < 128) && !PyStr.asciiSpace c) = true := by
    decide
  rw [PyStr.solid_of_ascii (hascii p hp) c hc]
  rfl

omit U in
theorem hasPrefix_cutLink (name : String) : hasPrefix vethSweepPrefixes (cutLink name) =
    hasPrefix vethSweepPrefixes name :=
  have hkeeps : (vethSweepPrefixes.all fun p => p.toList.all fun c => c != '@') = true := by decide
  hasPrefix_takeWhile (fun p hp => List.all_eq_true.mp (List.all_eq_true.mp hkeeps p hp)) name

theorem netnsName_text (l : NetnsLine) : netnsName l.text = cutNetns l.name := by
  obtain ⟨c, cs, hname, hc⟩ := l.begins
  have hread : ∀ rest : List Char, (∀ d ∈ rest.head?, U.isSpace d = true) →
      netnsName (String.ofList (l.name.toList ++ rest)) = cutNetns l.name := by
    intro rest hrest
    have hbegins : (String.ofList (l.name.toList ++ rest)).toList = c :: (cs ++ rest) := by
      rw [String.toList_ofList, hname, List.cons_append]
    unfold netnsName cutNetns
    rw [PyStr.split_head hbegins hc, Option.getD_some, String.toList_ofList]
    cases rest with
    | nil => rw [List.append_nil]
    | cons d rest => rw [takeWhile_stop (by simp [hrest d rfl])]
  unfold NetnsLine.text
  cases l.id with
  | none => simpa using hread [] (by simp)
  | some n =>
    have hblank : ∀ d ∈ (' ' :: ("(id: " ++ toString n ++ ")").toList).head?, U.isSpace d = true := by
      intro d hd
      cases hd
      exact PyStr.isSpace_blank
    rw [← hread _ hblank]
    refine congrArg netnsName (String.toList_inj.mp ?_)
    simp

theorem word_shown (l : LinkLines) : Word l.shown := by
  unfold LinkLines.shown
  cases hpeer : l.peer with
  | none => exact l.name_word
  | some p =>
    refine ⟨?_, ?_⟩
    · simp
    · intro c hc
      simp only [String.toList_append, List.mem_append] at hc
      rcases hc with (hc | hc) | hc
      · exact l.name_word.solid c hc
      · exact PyStr.solid_of_ascii (s := "@") (by decide) c hc
      · exact (l.peer_word p hpeer).1.solid c hc

omit U in
theorem cutLink_shown [PyStr.Unicode] (l : LinkLines) : cutLink l.shown = cutLink l.name := by
  unfold LinkLines.shown
  cases l.peer with
  | none => rfl
  | some p =>
    unfold cutLink
    rw [String.toList_append, String.toList_append, List.append_assoc,
      show "@".toList ++ p.toList = '@' :: p.toList from rfl, takeWhile_stop (by decide)]

/-- The first line of an interface gives its name, up to an `@`. -/
theorem linkName_first (l : LinkLines) : linkName l.first = some (cutLink l.name) := by
  have hindex : ':' ∉ (toString l.index).toList := PyStr.not_mem_toString (by decide)
  have hshown : ':' ∉ (" " ++ l.shown).toList := by
    unfold LinkLines.shown
    cases hpeer : l.peer with
    | none => simp [l.name_plain]
    | some p => simp [l.name_plain, (l.peer_word p hpeer).2]
  have hfirst :
      PyStr.splitOn ':' l.first = toString l.index :: PyStr.splitOn ':' (" " ++ l.shown ++ ": " ++ l.attributes) :=
    PyStr.splitOn_first hindex (by simp [LinkLines.first])
  have hsecond : PyStr.splitOn ':' (" " ++ l.shown ++ ": " ++ l.attributes) =
      (" " ++ l.shown) :: PyStr.splitOn ':' (" " ++ l.attributes) :=
    PyStr.splitOn_first hshown (by simp)
  have hstrip : PyStr.strip (" " ++ l.shown) = l.shown := by
    have hblank : " " ++ l.shown = String.ofList (' ' :: l.shown.toList) := String.toList_inj.mp (by simp)
    rw [hblank, PyStr.strip_blank (word_shown l)]
  unfold linkName
  rw [hfirst, hsecond]
  dsimp only
  rw [hstrip, PyStr.splitOn_head]
  exact congrArg some (cutLink_shown l)

omit U in
theorem v_of_hasPrefix {name : String} (h : hasPrefix vethSweepPrefixes name = true) : 'v' ∈ name.toList := by
  obtain ⟨p, hp, hstart⟩ := List.any_eq_true.mp h
  have hv : ∀ q ∈ vethSweepPrefixes, 'v' ∈ q.toList := by decide
  exact (List.isPrefixOf_iff_prefix.mp hstart).subset (hv p hp)

/-- The second line gives nothing that is swept. -/
theorem linkName_second (l : LinkLines) : ∀ iface, linkName l.second = some iface →
    hasPrefix vethSweepPrefixes iface = false := by
  intro iface h
  unfold LinkLines.second at h
  cases hoctets : l.octets with
  | none =>
    rw [hoctets] at h
    have hplain : ':' ∉ ("    link/" ++ l.kind).toList := by simp [l.kind_plain]
    unfold linkName at h
    rw [PyStr.splitOn_whole hplain] at h
    cases h
  | some o =>
    obtain ⟨a, b, rest⟩ := o
    obtain ⟨ha, hb⟩ := l.octets_hex (a, b, rest) hoctets
    rw [hoctets] at h
    have hbplain : ':' ∉ b.toList := by
      intro hc
      have := hb ':' hc
      revert this
      decide
    have hfirst : PyStr.splitOn ':' ("    link/" ++ l.kind ++ " " ++ a ++ ":" ++ b ++ ":" ++ rest) =
        ("    link/" ++ l.kind ++ " " ++ a) :: PyStr.splitOn ':' (b ++ ":" ++ rest) :=
      PyStr.splitOn_first (by simp [l.kind_plain, ha]) (by simp)
    have hsecond : PyStr.splitOn ':' (b ++ ":" ++ rest) = b :: PyStr.splitOn ':' rest :=
      PyStr.splitOn_first hbplain (by simp)
    dsimp only at h
    unfold linkName at h
    rw [hfirst, hsecond] at h
    dsimp only at h
    rw [PyStr.splitOn_head] at h
    obtain rfl := Option.some.inj h
    -- the piece holds hexadecimal digits only, and every prefix begins with a `v`
    have hcut := hasPrefix_cutLink (PyStr.strip b)
    unfold cutLink at hcut
    rw [hcut, Bool.eq_false_iff]
    intro hprefix
    have hv : 'v' ∈ b.toList := PyStr.mem_strip (v_of_hasPrefix hprefix)
    exact absurd (hb 'v' hv) (by decide)

/-! ## A loop of deletions -/

/-- The deletions that are tried: up to the first that raises. -/
def tillRaise (del : String → Except PyExc Completed) : List String → List String
  | [] => []
  | n :: ns => n :: if (del n).isOk = true then tillRaise del ns else []

omit U in
/-- Everything is tried, under its own name, exactly when the names are whole and only the
    last deletion raises. -/
theorem tillRaise_eq_iff {del : String → Except PyExc Completed} {cut : String → String} : ∀ {names : List String},
    tillRaise del (names.map cut) = names ↔ (∀ n ∈ names, cut n = n) ∧
      ∀ before n after, names = before ++ n :: after → after ≠ [] → (del n).isOk = true
  | [] => by
    simp [tillRaise]
  | n :: ns => by
    have ih : tillRaise del (ns.map cut) = ns ↔ _ := tillRaise_eq_iff
    rw [List.map_cons, tillRaise, List.cons.injEq]
    constructor
    · intro ⟨hcut, hrest⟩
      have hlast : ns ≠ [] → (del n).isOk = true := by
        intro hne
        by_cases hok : (del n).isOk = true
        · exact hok
        · rw [hcut, if_neg hok] at hrest
          exact absurd hrest.symm hne
      have hall : tillRaise del (ns.map cut) = ns := by
        cases ns with
        | nil => rfl
        | cons m ms => rwa [hcut, if_pos (hlast (by simp))] at hrest
      obtain ⟨hcuts, hoks⟩ := ih.mp hall
      refine ⟨?_, ?_⟩
      · intro m hm
        rcases List.mem_cons.mp hm with rfl | hm
        · exact hcut
        · exact hcuts m hm
      · intro before m after heq hne
        cases before with
        | nil =>
          cases heq
          exact hlast hne
        | cons b before =>
          cases heq
          exact hoks before m after rfl hne
    · intro ⟨hcuts, hoks⟩
      have hcut := hcuts n List.mem_cons_self
      refine ⟨hcut, ?_⟩
      rw [hcut]
      cases ns with
      | nil =>
        split <;> rfl
      | cons m ms =>
        rw [if_pos (hoks [] n (m :: ms) rfl (by simp)), ih]
        refine ⟨fun k hk => hcuts k (List.mem_cons_of_mem n hk), ?_⟩
        intro before k after heq hne
        exact hoks (n :: before) k after (by rw [heq]; rfl) hne

/-! ## The host -/

/-- What the sweep meets: two listings, and how each deletion ends. -/
structure Orphans where
  netns : List NetnsLine
  links : List LinkLines
  delNetns : String → Except PyExc Completed
  delLink : String → Except PyExc Completed
  /-- Success, an error, a timeout, or any other `Exception`. -/
  delNetns_raises : ∀ n e, delNetns n = .error e → e.isException = true
  delLink_raises : ∀ n e, delLink n = .error e → e.isException = true

namespace Orphans

variable (o : Orphans)

def netnsText : String := String.ofList (PyStr.unlines (o.netns.map (·.text)))

def linkText : String := String.ofList (PyStr.unlines (o.links.flatMap (·.lines)))

omit U in
/-- No other command is run. -/
def unexpected : PyExc := { cls := .otherError, text := "" }

def answer : List Arg → Except PyExc Completed
  | [.bin "ip", .str "netns", .str "list"] => .ok { returncode := 0, stdout := o.netnsText, stderr := "" }
  | [.bin "ip", .str "link", .str "show"] => .ok { returncode := 0, stdout := o.linkText, stderr := "" }
  | [.bin "ip", .str "netns", .str "del", .str n] => o.delNetns n
  | [.bin "ip", .str "link", .str "del", .str n] => o.delLink n
  | _ => .error unexpected

/-- Answers, and the commands so far. -/
def reply (log : List (List Arg)) : (a : Req) → Except PyExc (Reply a) × List (List Arg)
  | .run c => (o.answer c.argv, log ++ [c.argv])
  | _ => (.error unexpected, log)

/-- The namespaces and the interfaces whose names have a swept prefix. -/
def sweptNetns : List String := (o.netns.map (·.name)).filter (hasPrefix netnsSweepPrefixes)

def sweptLinks : List String := (o.links.map (·.name)).filter (hasPrefix vethSweepPrefixes)

end Orphans

def delNetnsCmd (n : String) : List Arg := ip ["netns", "del", n]

def delLinkCmd (n : String) : List Arg := ip ["link", "del", n]

section Run

variable {o : Orphans}

theorem handle_quietly (argv : List Arg) (log : List (List Arg)) :
    handle o.reply (quietly argv) log = (o.answer argv, log ++ [argv]) := handle_request _ _

/-- One line of a listing: a deletion, or nothing. -/
structure Tries (o : Orphans) (each : String → Prog Unit) (cand : String → Option String) (cmd : String → List Arg)
    (del : String → Except PyExc Completed) : Prop where
  skip : ∀ line log, cand line = none → handle o.reply (each line) log = (.ok (), log)
  try_ : ∀ line log n, cand line = some n →
    handle o.reply (each line) log = ((del n).map fun _ => (), log ++ [cmd n])
  raises : ∀ n e, del n = .error e → e.isException = true

theorem handle_lines {each : String → Prog Unit} {cand : String → Option String} {cmd : String → List Arg}
    {del : String → Except PyExc Completed} (h : Tries o each cand cmd del) :
      ∀ (lines : List String) (log : List (List Arg)),
    ∃ r, handle o.reply (Co.forEach lines each) log = (r, log ++ (tillRaise del (lines.filterMap cand)).map cmd) ∧
      ∀ e, r = .error e → e.isException = true
  | [], log => by
    refine ⟨.ok (), by simp [Co.forEach, tillRaise], ?_⟩
    intro e he
    cases he
  | line :: lines, log => by
    rw [handle_forEach]
    cases hcand : cand line with
    | none =>
      rw [h.skip line log hcand, onValue_ok, List.filterMap_cons_none hcand]
      exact handle_lines h lines log
    | some n =>
      rw [h.try_ line log n hcand, List.filterMap_cons_some hcand]
      cases hdel : del n with
      | ok v =>
        obtain ⟨r, hr, hexc⟩ := handle_lines h lines (log ++ [cmd n])
        refine ⟨r, ?_, hexc⟩
        simp only [Except.map, onValue_ok, hr, tillRaise, hdel, Except.isOk, Except.toBool, if_true, List.map_cons]
        simp
      | error e =>
        refine ⟨.error e, ?_, ?_⟩
        · simp [Except.map, tillRaise, hdel, Except.isOk, Except.toBool]
        · intro e' he'
          cases he'
          exact h.raises n e hdel

/-- A sweep of one listing ends without an exception, having tried what `tillRaise` says. -/
theorem handle_listing {words : List String} {each : String → Prog Unit} {cand : String → Option String}
    {cmd : String → List Arg} {del : String → Except PyExc Completed} {text : String} (h : Tries o each cand cmd del)
    (hanswer : o.answer (ip words) = .ok { returncode := 0, stdout := text, stderr := "" }) (log : List (List Arg)) :
    handle o.reply (sweepListing words each) log =
      (.ok (), log ++ ip words :: (tillRaise del ((PyStr.splitlines text).filterMap cand)).map cmd) := by
  obtain ⟨r, hr, hexc⟩ := handle_lines h (PyStr.splitlines text) (log ++ [ip words])
  have hbody : handle o.reply (do
      let res ← quietly (ip words)
      if res.returncode = 0 then Co.forEach (PyStr.splitlines res.stdout) each else pure () : Prog Unit) log =
        (r, log ++ ip words :: (tillRaise del ((PyStr.splitlines text).filterMap cand)).map cmd) := by
    rw [Co.bind_eq, handle_bind, handle_quietly, hanswer, onValue_ok, if_pos rfl, hr,
      List.append_assoc, List.singleton_append]
  unfold sweepListing suppress
  rw [handle_tryCatch, hbody]
  cases r with
  | ok v => rfl
  | error e =>
    rw [onError_error, if_pos (hexc e rfl)]
    rfl

def candNetns (line : String) : Option String :=
  if hasPrefix netnsSweepPrefixes (netnsName line) = true then some (netnsName line) else none

def candLink (line : String) : Option String := (linkName line).filter (hasPrefix vethSweepPrefixes)

theorem tries_netns : Tries o sweepNetns candNetns delNetnsCmd o.delNetns where
  skip line log hcand := by
    unfold candNetns at hcand
    unfold sweepNetns
    split at hcand
    · cases hcand
    · rename_i hprefix
      rw [if_neg hprefix]
      rfl
  try_ line log n hcand := by
    unfold candNetns at hcand
    unfold sweepNetns
    split at hcand
    · rename_i hprefix
      cases hcand
      rw [if_pos hprefix, Co.bind_eq, handle_bind, handle_quietly]
      show onValue _ (o.delNetns _, _) = _
      cases o.delNetns (netnsName line) <;> rfl
    · cases hcand
  raises := o.delNetns_raises

theorem tries_link : Tries o sweepLink candLink delLinkCmd o.delLink where
  skip line log hcand := by
    unfold candLink at hcand
    unfold sweepLink
    cases hname : linkName line with
    | none => rfl
    | some iface =>
      rw [hname, Option.filter_eq_none_iff] at hcand
      dsimp only
      rw [if_neg (hcand iface rfl)]
      rfl
  try_ line log n hcand := by
    unfold candLink at hcand
    unfold sweepLink
    obtain ⟨hname, hprefix⟩ := Option.filter_eq_some_iff.mp hcand
    rw [hname]
    dsimp only
    rw [if_pos hprefix, Co.bind_eq, handle_bind, handle_quietly]
    show onValue _ (o.delLink _, _) = _
    cases o.delLink n <;> rfl
  raises := o.delLink_raises

omit U in
theorem filterMap_filter {α : Type} {p : α → Bool} {f : α → String} : ∀ xs : List α,
    xs.filterMap (fun x => if p x = true then some (f x) else none) = (xs.filter p).map f
  | [] => rfl
  | x :: xs => by
    by_cases hx : p x = true
    · simp [hx, filterMap_filter xs]
    · simp [hx, filterMap_filter xs]

/-- The candidates of the namespaces' listing. -/
theorem cands_netns (o : Orphans) :
    (PyStr.splitlines o.netnsText).filterMap candNetns = o.sweptNetns.map cutNetns := by
  have hlines : PyStr.splitlines o.netnsText = o.netns.map (·.text) := by
    refine PyStr.splitlines_unlines ?_
    intro t ht c hc
    obtain ⟨l, -, rfl⟩ := List.mem_map.mp ht
    unfold NetnsLine.text at hc
    cases hid : l.id with
    | none =>
      rw [hid] at hc
      exact l.oneLine c hc
    | some n =>
      rw [hid] at hc
      simp only [String.toList_append, List.mem_append] at hc
      rcases hc with ((hc | hc) | hc) | hc
      · exact l.oneLine c hc
      · exact noBreak_literal (s := " (id: ") rfl c hc
      · exact notBreak_of_digit (PyStr.digit_of_mem_toString hc)
      · exact noBreak_literal (s := ")") rfl c hc
  have hcand : (candNetns ∘ NetnsLine.text) =
      fun l => if hasPrefix netnsSweepPrefixes l.name = true then some (cutNetns l.name) else none := by
    funext l
    rw [Function.comp, candNetns, netnsName_text, hasPrefix_cutNetns]
  rw [hlines, List.filterMap_map, hcand, filterMap_filter]
  unfold Orphans.sweptNetns
  rw [List.filter_map, List.map_map]
  rfl

theorem candLink_first (l : LinkLines) :
    candLink l.first = if hasPrefix vethSweepPrefixes l.name = true then some (cutLink l.name) else none := by
  rw [candLink, linkName_first, Option.filter_some, hasPrefix_cutLink]

theorem candLink_second (l : LinkLines) : candLink l.second = none := by
  rw [candLink, Option.filter_eq_none_iff]
  intro iface h
  rw [linkName_second l iface h]
  decide

theorem cands_lines : ∀ links : List LinkLines, (links.flatMap (·.lines)).filterMap candLink =
    ((links.map (·.name)).filter (hasPrefix vethSweepPrefixes)).map cutLink
  | [] => rfl
  | l :: links => by
    rw [List.flatMap_cons, LinkLines.lines, List.cons_append, List.singleton_append,
      List.filterMap_cons, candLink_first,
      List.filterMap_cons_none (candLink_second l), cands_lines links, List.map_cons]
    by_cases h : hasPrefix vethSweepPrefixes l.name = true <;> simp [h]

theorem noBreak_lines (l : LinkLines) : ∀ t ∈ l.lines, ∀ c ∈ t.toList, PyStr.isLineBreak c = false := by
  obtain ⟨hname, hpeer, hattributes, hkind, ha, hb, hrest⟩ := by simpa using l.oneLine
  have hshown : ∀ c ∈ l.shown.toList, PyStr.isLineBreak c = false := by
    unfold LinkLines.shown
    cases hp : l.peer with
    | none => exact hname
    | some p =>
      rw [hp] at hpeer
      exact noBreak_append (noBreak_append hname (noBreak_literal rfl)) hpeer
  intro t ht
  simp only [LinkLines.lines, List.mem_cons, List.not_mem_nil, or_false] at ht
  rcases ht with rfl | rfl
  · refine noBreak_append (noBreak_append (noBreak_append (noBreak_append ?_ (noBreak_literal rfl)) hshown)
      (noBreak_literal rfl)) hattributes
    exact fun c hc => notBreak_of_digit (PyStr.digit_of_mem_toString hc)
  · unfold LinkLines.second
    cases ho : l.octets with
    | none => exact noBreak_append (noBreak_literal rfl) hkind
    | some o =>
      rw [ho] at ha hb hrest
      have hhead : ∀ c ∈ ("    link/" ++ l.kind ++ " " ++ o.1).toList, PyStr.isLineBreak c = false :=
        noBreak_append (noBreak_append (noBreak_append (noBreak_literal rfl) hkind) (noBreak_literal rfl)) ha
      exact noBreak_append (noBreak_append (noBreak_append (noBreak_append hhead (noBreak_literal rfl)) hb)
        (noBreak_literal rfl)) hrest

/-- The candidates of the interfaces' listing. -/
theorem cands_links (o : Orphans) :
    (PyStr.splitlines o.linkText).filterMap candLink = o.sweptLinks.map cutLink := by
  have hlines : PyStr.splitlines o.linkText = o.links.flatMap (·.lines) := by
    refine PyStr.splitlines_unlines ?_
    intro t ht
    obtain ⟨l, -, ht⟩ := List.mem_flatMap.mp ht
    exact noBreak_lines l t ht
  rw [hlines, cands_lines]
  rfl

/-- What the sweep runs, and that it returns. -/
theorem handle_startupSweep (o : Orphans) : handle o.reply startupSweep [] =
    (.ok (), ip ["netns", "list"] :: (tillRaise o.delNetns (o.sweptNetns.map cutNetns)).map delNetnsCmd ++
      ip ["link", "show"] :: (tillRaise o.delLink (o.sweptLinks.map cutLink)).map delLinkCmd) := by
  unfold startupSweep
  rw [Co.bind_eq, handle_bind, handle_listing tries_netns rfl, onValue_ok, handle_listing tries_link rfl, cands_netns,
    cands_links]
  rfl

end Run

/-- The sweep returns, having run the two listings and, after each, a deletion for each name
    in it that has a swept prefix, and nothing else. -/
def CompleteAndSelective (o : Orphans) : Prop :=
  handle o.reply startupSweep [] =
    (.ok (), ip ["netns", "list"] :: o.sweptNetns.map delNetnsCmd ++ ip ["link", "show"] :: o.sweptLinks.map delLinkCmd)

/-- Only the last of these names may have a deletion that raises. -/
def OnlyLastRaises (del : String → Except PyExc Completed) (names : List String) : Prop :=
  ∀ before n after, names = before ++ n :: after → after ≠ [] → (del n).isOk = true

theorem completeAndSelective_iff (o : Orphans) : CompleteAndSelective o ↔
    tillRaise o.delNetns (o.sweptNetns.map cutNetns) = o.sweptNetns ∧
      tillRaise o.delLink (o.sweptLinks.map cutLink) = o.sweptLinks := by
  have hdel : ∀ names : List String, ip ["link", "show"] ∉ ip ["netns", "list"] :: names.map delNetnsCmd := by
    intro names h
    rcases List.mem_cons.mp h with h | h
    · exact absurd h (by decide)
    · obtain ⟨n, -, hn⟩ := List.mem_map.mp h
      simp [delNetnsCmd, ip] at hn
  have hrest : ∀ names : List String, ip ["link", "show"] ∉ names.map delLinkCmd := by
    intro names h
    obtain ⟨n, -, hn⟩ := List.mem_map.mp h
    simp [delLinkCmd, ip] at hn
  have hnetns : Function.Injective delNetnsCmd := by
    intro n m h
    simpa [delNetnsCmd, ip] using h
  have hlink : Function.Injective delLinkCmd := by
    intro n m h
    simpa [delLinkCmd, ip] using h
  unfold CompleteAndSelective
  rw [handle_startupSweep, Prod.mk.injEq]
  simp only [true_and]
  rw [List.append_cons_inj_of_notMem (hdel _) (hrest _)]
  simp only [List.cons.injEq, true_and, hnetns.list_map.eq_iff, hlink.list_map.eq_iff]

/-- The sweep never raises; it is complete and selective exactly when the names it is to
    delete hold no white space (namespaces) and no `@` (interfaces), and only the last
    deletion of each listing raises. -/
theorem startup_sweep_iff (o : Orphans) : (handle o.reply startupSweep []).1 = .ok () ∧ (CompleteAndSelective o ↔
    (∀ n ∈ o.sweptNetns, ∀ c ∈ n.toList, U.isSpace c = false) ∧ OnlyLastRaises o.delNetns o.sweptNetns ∧
      (∀ n ∈ o.sweptLinks, '@' ∉ n.toList) ∧ OnlyLastRaises o.delLink o.sweptLinks) := by
  refine ⟨by rw [handle_startupSweep], ?_⟩
  have hcutNetns : ∀ n, cutNetns n = n ↔ ∀ c ∈ n.toList, U.isSpace c = false := by
    intro n
    unfold cutNetns
    rw [takeWhile_eq_self]
    simp
  have hcutLink : ∀ n, cutLink n = n ↔ '@' ∉ n.toList := by
    intro n
    unfold cutLink
    rw [takeWhile_eq_self]
    constructor
    · intro h hat
      simpa using h '@' hat
    · intro h c hc
      simp only [bne_iff_ne, ne_eq]
      rintro rfl
      exact h hc
  rw [completeAndSelective_iff, tillRaise_eq_iff, tillRaise_eq_iff, and_assoc]
  simp only [hcutNetns, hcutLink]
  rfl

end Nse.NetnsController

namespace Nse

open Coroutine NetnsController
open PyStr (noBreak_literal)

attribute [local instance] PyStr.Unicode.ascii

def orphanNetns (name : String) (h : name.toList.all (fun c => decide (c.toNat < 128) && !PyStr.asciiSpace c) = true)
    (hbreak : ∀ c ∈ name.toList, PyStr.isLineBreak c = false) (hbegins : ∃ c cs, name.toList = c :: cs) :
      NetnsLine where
  name
  id := none
  begins := by
    obtain ⟨c, cs, hname⟩ := hbegins
    exact ⟨c, cs, hname, PyStr.solid_of_ascii h c (by simp [hname])⟩
  oneLine := hbreak

def stuck : PyExc := { cls := .timeoutExpired, text := "Command timed out after 5.0 seconds" }

/-- Two namespaces; the deletion of those `stuckNames` holds times out. -/
def twoOrphans (stuckNames : List String) : Orphans where
  netns := [orphanNetns "nse_a" (by decide) (noBreak_literal rfl) ⟨_, _, rfl⟩, orphanNetns "nse_b" (by decide)
    (noBreak_literal rfl) ⟨_, _, rfl⟩]
  links := []
  delNetns n := if stuckNames.contains n then .error stuck else .ok { returncode := 0, stdout := "", stderr := "" }
  delLink _ := .ok { returncode := 0, stdout := "", stderr := "" }
  delNetns_raises := by
    intro n e h
    split at h
    · cases h
      rfl
    · cases h
  delLink_raises := by
    intro n e h
    cases h

/-- The deletion of `nse_a` times out, and `nse_b` is left. -/
theorem one_stuck_orphan_keeps_the_others : ¬ ∀ o : Orphans, CompleteAndSelective o := by
  intro h
  have hall := ((startup_sweep_iff (twoOrphans ["nse_a"])).2.mp (h _)).2.1
  have hok := hall [] "nse_a" ["nse_b"] (by decide) (by simp)
  exact absurd hok (by decide)

end Nse
