/-
  Nse.Core.PathCache — the paths that are resolved once, and then taken from a cache.

  `resolve` is cached for the life of the process: a path that was checked once is handed out
  without another look at the files. In the meantime users do what they may, and root installs
  packages, after which `clear_cache` is to be called.

  Proved: `cached_agrees`, over a whole run, every call gets what a check at that moment would
  have answered, exceptions included, as long as no user can write a directory in which a name
  is looked up on the way to a candidate, and the cache is cleared after an installation before
  it is used again. `a_cached_path_is_not_checked_again`: where a directory on the way is
  writable, the cache hands out a path that `resolve` itself would refuse by then.
-/

import Nse.Core.Paths
import Nse.Lib.Memo

namespace Nse

namespace Paths

open FileSystem (Barred Evolves Inode Op Tree User)

/-! ## The process -/

inductive Move where
  | attack (user : User) (op : Op)
  /-- What root does. -/
  | install (fs : Tree)

def Move.act : Move → Tree → Tree
  | .attack user op, fs => fs.perform user op
  | .install fs, _ => fs

abbrev Ev := Memo.Ev String String PyExc Move (Except PyExc (Option String))

/-- A call of `resolve`. -/
def callResolve (binary : String) : Ev := .call binary (Except.map some)

/-- A call of `resolve_optional`, which calls `resolve`. -/
def callOptional (binary : String) : Ev := .call binary optional

def clearCache : Ev := .clear

variable [U : PyStr.Unicode]

/-- From an empty cache. -/
def cachedRun (fs : Tree) (es : List Ev) : List (Except PyExc (Option String)) :=
  Memo.run resolve Move.act { world := fs } es

/-- With the check made each time. -/
def checkedRun (fs : Tree) (es : List Ev) : List (Except PyExc (Option String)) := Memo.plain resolve Move.act fs es

example (fs : Tree) (binary : String) : checkedRun fs [callOptional binary] = [resolveOptional fs binary] := rfl

/-- No call comes between an installation and the next `clear_cache`. -/
def Ordered : Bool → List Ev → Bool
  | _, [] => true
  | fresh, .call _ _ :: es => fresh && Ordered fresh es
  | _, .clear :: es => Ordered true es
  | fresh, .move (.attack _ _) :: es => Ordered fresh es
  | _, .move (.install _) :: es => Ordered false es

/-- The paths a binary's candidates are looked at with. -/
def waysOf (binary : String) : List String :=
  trustedDirs.flatMap fun directory =>
    [(Path.join (Path.parts directory) binary).str, (Path.join (Path.parts directory) binary).parent.str]

/-- No user can divert the way to a candidate. -/
def Secure (users : User → Prop) (names : String → Prop) (fs : Tree) : Prop :=
  ∀ binary, names binary → ∀ path ∈ waysOf binary, Barred users fs path

def Move.Fair (users : User → Prop) (names : String → Prop) : Move → Prop
  | .attack user _ => users user
  | .install fs => Secure users names fs

/-! ## A check, before and after -/

section Check

omit U

variable {fs fs' : Tree} {user : User} {p : Path} {users : User → Prop} {names : String → Prop} {binary : String}

/-- What a check looks at. -/
def look (fs : Tree) (p : Path) : Option (Nat × Nat × FileSystem.Shape) :=
  (stat fs p).map fun x => (x.uid, x.mode, x.node.shape)

theorem look_same (h : Evolves user fs fs') (hu : users user) (hb : Barred users fs p.str) :
    look fs' p = look fs p := by
  have hreach : fs'.reach p.str = fs.reach p.str := hb.reach hu h
  unfold look stat Tree.opened
  rw [hreach]
  cases hr : fs.reach p.str with
  | none => rfl
  | some r =>
    obtain ⟨x, hx⟩ := hb.reached hr
    obtain ⟨y, hy, hxy⟩ := h r.ino x hx
    simp [hx, hy, hxy.uid, hxy.mode, hxy.shape]

theorem isFile_look (fs : Tree) (p : Path) : isFile fs p = (look fs p).any fun x => x.2.2 == .file := by
  unfold isFile look
  cases stat fs p <;> rfl

theorem accessX_look (fs : Tree) (p : Path) : accessX fs p = (look fs p).any fun x => x.2.1 &&& 0o111 != 0 := by
  unfold accessX look
  cases stat fs p <;> rfl

theorem isSafelyOwned_look (fs : Tree) (p : Path) :
    isSafelyOwned fs p = [p, p.parent].all fun t => (look fs t).any fun x => x.1 == 0 &&
      x.2.1 &&& (S_IWGRP ||| S_IWOTH) == 0 := by
  have hone : ∀ t, (look fs t).any (fun x => x.1 == 0 && x.2.1 &&& (S_IWGRP ||| S_IWOTH) == 0) =
      (stat fs t).any fun x => x.uid == 0 && x.mode &&& (S_IWGRP ||| S_IWOTH) == 0 := by
    intro t
    unfold look
    cases stat fs t <;> rfl
  simp only [hone]
  unfold isSafelyOwned
  simp only [List.all_cons, List.all_nil]
  cases stat fs p <;> cases stat fs p.parent <;> rfl

theorem resolveIn_same {directories : List String}
    (h : ∀ d ∈ directories, ∀ t ∈ [Path.join (Path.parts d) binary, (Path.join (Path.parts d) binary).parent],
      look fs' t = look fs t)
    (searched : List String) : resolveIn fs' binary directories searched =
      resolveIn fs binary directories searched := by
  induction directories generalizing searched with
  | nil => rfl
  | cons directory rest ih =>
    have hhere := h directory List.mem_cons_self
    have hcandidate := hhere _ List.mem_cons_self
    have hparent := hhere _ (List.mem_cons_of_mem _ List.mem_cons_self)
    have hrest :=
      ih (fun d hd => h d (List.mem_cons_of_mem _ hd)) (searched ++ [(Path.join (Path.parts directory) binary).str])
    have hsafe : isSafelyOwned fs' (Path.join (Path.parts directory) binary) =
        isSafelyOwned fs (Path.join (Path.parts directory) binary) := by
      rw [isSafelyOwned_look, isSafelyOwned_look]
      simp only [List.all_cons, List.all_nil, hcandidate, hparent]
    unfold resolveIn
    dsimp only
    rw [isFile_look, accessX_look, hcandidate, ← isFile_look, ← accessX_look, hsafe, hrest]

end Check

/-- Every directory on the way is root's, and nobody else's to write. -/
def rootOnly (fs : Tree) (path : String) : Bool :=
  (fs.shape FileSystem.root.ino).isSome && (fs.lookups path).all fun l =>
    ((fs.inode l.1).all fun x => x.uid == 0 && x.mode &&& (S_IWGRP ||| S_IWOTH) == 0) &&
      (fs.entry l.1 l.2).all fun i => (fs.shape i).isSome

omit U in
theorem barred_of_rootOnly {fs : Tree} {path : String} (h : rootOnly fs path = true) (users : User → Prop) :
    Barred users fs path := by
  obtain ⟨hroot, hall⟩ := Bool.and_eq_true_iff.mp h
  have hway : ∀ l ∈ fs.lookups path, _ := List.all_eq_true.mp hall
  refine ⟨hroot, fun v _ l hl => ?_, fun l hl i hi => ?_⟩
  · have hdir := (Bool.and_eq_true_iff.mp (hway l hl)).1
    unfold Tree.writable
    cases hx : fs.inode l.1 with
    | none => rfl
    | some x =>
      simp only [hx, Option.all_some, Bool.and_eq_true, beq_iff_eq] at hdir
      exact not_mayWrite hdir.1 hdir.2
  · have hentry := (Bool.and_eq_true_iff.mp (hway l hl)).2
    simpa [hi] using hentry

/-! ## A run -/

section Run

variable {users : User → Prop} {names : String → Prop} {fs : Tree}

/-- What one user does changes no answer, and diverts no way. -/
theorem attack_keeps (h : Secure users names fs) {user : User} (hu : users user) (op : Op) :
    Memo.Keeps names resolve fs (fs.perform user op) ∧ Secure users names (fs.perform user op) := by
  have hev : Evolves user fs (fs.perform user op) := FileSystem.evolves_perform op
  refine ⟨fun binary hname p hp => ?_, fun binary hname path hpath => (h binary hname path hpath).evolves hu hev⟩
  have hsame : ∀ d ∈ trustedDirs, ∀ t ∈ [Path.join (Path.parts d) binary, (Path.join (Path.parts d) binary).parent],
      look (fs.perform user op) t = look fs t := by
    intro d hd t ht
    refine look_same hev hu (h binary hname t.str (List.mem_flatMap.mpr ⟨d, hd, ?_⟩))
    simp only [List.mem_cons, List.not_mem_nil, or_false] at ht ⊢
    rcases ht with rfl | rfl
    · exact .inl rfl
    · exact .inr rfl
  unfold resolve at hp ⊢
  rwa [resolveIn_same hsame]

/-- An ordered run never asks a cache that may be wrong. -/
theorem fresh_of_ordered {es : List Ev} {fresh : Bool} {valid : Prop} (hsecure : Secure users names fs)
    (hmoves : ∀ m, .move m ∈ es → m.Fair users names) (hcalls : ∀ binary use, .call binary use ∈ es → names binary)
    (hordered : Ordered fresh es = true) (hvalid : fresh = true → valid) :
      Memo.Fresh names resolve Move.act valid fs es := by
  induction es generalizing fs fresh valid with
  | nil => trivial
  | cons e es ih =>
    have hmoves' : ∀ m, .move m ∈ es → m.Fair users names := fun m hm => hmoves m (List.mem_cons_of_mem _ hm)
    have hcalls' : ∀ binary use, .call binary use ∈ es → names binary :=
      fun b use hb => hcalls b use (List.mem_cons_of_mem _ hb)
    cases e with
    | call binary use =>
      obtain ⟨hfresh, hrest⟩ := Bool.and_eq_true_iff.mp hordered
      exact ⟨hvalid hfresh, hcalls binary use List.mem_cons_self, ih hsecure hmoves' hcalls' hrest hvalid⟩
    | clear => exact ih hsecure hmoves' hcalls' hordered fun _ => trivial
    | move m =>
      cases m with
      | attack user op =>
        obtain ⟨hkeeps, hsecure'⟩ := attack_keeps hsecure (hmoves _ List.mem_cons_self) op
        exact ih hsecure' hmoves' hcalls' hordered fun hfresh => ⟨hvalid hfresh, hkeeps⟩
      | install fs' =>
        exact ih (hmoves _ List.mem_cons_self) hmoves' hcalls' hordered fun hfresh => by cases hfresh

/-- Whatever the users do between the calls, the cache loses no check. -/
theorem cached_agrees {es : List Ev} (hsecure : Secure users names fs) (hmoves : ∀ m, .move m ∈ es → m.Fair users names)
    (hcalls : ∀ binary use, .call binary use ∈ es → names binary) (hordered : Ordered true es = true) :
    cachedRun fs es = checkedRun fs es := by
  have hfresh : Memo.Fresh names resolve Move.act True fs es :=
    fresh_of_ordered hsecure hmoves hcalls hordered fun _ => trivial
  exact Memo.run_plain (fun _ => Memo.valid_empty fs) hfresh

end Run

end Paths

end Nse

namespace Nse

namespace Paths

open FileSystem (Barred Op Tree User)

attribute [local instance] PyStr.Unicode.ascii

/-- `/bin` is a link to `/usr/bin`; a user has a directory of their own. -/
def systemTree (updated : Bool) : Tree :=
  ⟨[⟨0, 0, 0o755, .dir [("usr", 1), ("bin", 3), ("home", 4)]⟩,
    ⟨0, 0, 0o755, .dir [("bin", 2)]⟩,
    ⟨0, 0, 0o755, .dir [("nft", 6)]⟩,
    ⟨0, 0, 0o777, .symlink "usr/bin"⟩,
    ⟨0, 0, 0o755, .dir [("bob", 5)]⟩,
    ⟨1000, 1000, 0o755, .dir []⟩,
    ⟨0, 0, 0o755, .file [if updated then 1 else 0]⟩]⟩

theorem systemTree_secure (updated : Bool) (users : User → Prop) : Secure users (· = "nft") (systemTree updated) := by
  intro binary hbinary path hpath
  subst hbinary
  have hall : ∀ b, (waysOf "nft").all (rootOnly (systemTree b)) = true := by decide +kernel
  exact barred_of_rootOnly (List.all_eq_true.mp (hall updated) path hpath) users

/-- The user tries to replace nft; root updates it. -/
def busyEvents : List Ev :=
  [callResolve "nft", .move (.attack bob (.creat 5 "nft" 1000 0o755 [0])), .move (.attack bob (.unlink 2 "nft")),
    callResolve "nft", .move (.install (systemTree true)), clearCache, callOptional "nft"]

theorem cached_agrees_sample : cachedRun (systemTree false) busyEvents = checkedRun (systemTree false) busyEvents := by
  have hsecure : Secure (fun _ => True) (· = "nft") (systemTree false) := systemTree_secure false _
  refine cached_agrees hsecure (fun m hm => ?_) (fun binary use hcall => ?_) (by decide)
  · simp only [busyEvents, callResolve, callOptional, clearCache, List.mem_cons, List.not_mem_nil,
      or_false, reduceCtorEq, false_or,
      Memo.Ev.move.injEq] at hm
    rcases hm with rfl | rfl | rfl
    · trivial
    · trivial
    · exact systemTree_secure true _
  · simp only [busyEvents, callResolve, callOptional, clearCache, List.mem_cons, List.not_mem_nil,
      or_false, reduceCtorEq, false_or,
      Memo.Ev.call.injEq] at hcall
    rcases hcall with ⟨h, -⟩ | ⟨h, -⟩ | ⟨h, -⟩
    · exact h
    · exact h
    · exact h

/-- The link is resolved while the file is root's; the user replaces it, and it is handed out
    again, where a check would refuse it. -/
theorem a_cached_path_is_not_checked_again :
    let es := [callResolve "nft", .move (.attack bob (.unlink 6 "nft")),
      .move (.attack bob (.creat 6 "nft" 1000 0o755 [0x23, 0x21])), callResolve "nft"]
    cachedRun linkedTree es = [.ok (some "/usr/local/bin/nft"), .ok (some "/usr/local/bin/nft")] ∧
      (checkedRun linkedTree es).map (fun r => r.isOk) = [true, false] := by
  decide +kernel

end Paths

end Nse
