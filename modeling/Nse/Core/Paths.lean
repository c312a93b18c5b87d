/-
  Nse.Core.Paths — the trusted resolution of the binaries that are executed as root.

  A binary is searched in a fixed list of directories. The one found is refused unless root
  owns it and the directory it is in, and neither is group- or world-writable; both are looked
  at with `stat`, which follows links.

  Proved: `resolve_ok_iff`, what `resolve` returns; `resolve_irreplaceable_iff`, a user who is
  not root cannot change what the path returned leads to, exactly when no directory in which
  a name is looked up on the way there is writable to that user: the ancestors and the
  directories of a link's target are, unlike the two that are checked, up to chance.
  `a_link_into_a_writable_directory_is_trusted` is a link that is followed out of the
  directories that were checked.
-/

import Nse.Core.Effects
import Nse.Lib.FileSystem

namespace Nse

namespace Paths

open FileSystem (Inode Tree User)

/-! ## `pathlib` -/

/-- An absolute `Path`, by its parts. -/
abbrev Path := List String

namespace Path

def parts (s : String) : Path := (PyStr.splitOn '/' s).filter fun c => c != "" && c != "."

def join (p : Path) (s : String) : Path := if PyStr.startsWith s "/" then parts s else p ++ parts s

def parent (p : Path) : Path := p.dropLast

def str (p : Path) : String := "/" ++ PyStr.join "/" p

end Path

/-! ## The functions -/

def trustedDirs : List String := ["/usr/sbin", "/sbin", "/usr/bin", "/bin", "/usr/local/sbin", "/usr/local/bin"]

/-- `os.stat`, which follows links. -/
def stat (fs : Tree) (p : Path) : Option Inode := (fs.opened p.str).map (·.2)

def isFile (fs : Tree) (p : Path) : Bool := (stat fs p).any fun info => info.node.shape == .file

/-- `os.access(p, os.X_OK)` as root: somebody may execute it. -/
def accessX (fs : Tree) (p : Path) : Bool := (stat fs p).any fun info => info.mode &&& 0o111 != 0

def S_IWGRP : Nat := 0o020

def S_IWOTH : Nat := 0o002

def isSafelyOwned (fs : Tree) (path : Path) : Bool :=
  [path, path.parent].all fun target =>
    match stat fs target with
    | none => false
    | some info => info.uid == 0 && info.mode &&& (S_IWGRP ||| S_IWOTH) == 0

def resolveIn (fs : Tree) (binary : String) : List String → List String → Except PyExc String
  | [], searched =>
    .error ⟨.binaryNotFoundError,
      "Required binary '" ++ binary ++ "' was not found in any trusted directory. Searched: " ++
        PyStr.join ", " searched ++
        ". NSE deliberately does not consult $PATH, because a caller-controlled PATH would let an attacker choose which program " ++
        "runs as root.", "", []⟩
  | directory :: rest, searched =>
    let candidate := Path.join (Path.parts directory) binary
    let searched := searched ++ [candidate.str]
    if !isFile fs candidate || !accessX fs candidate then resolveIn fs binary rest searched
    else if !isSafelyOwned fs candidate then
      .error ⟨.unsafeBinaryError,
        candidate.str ++ " is executable but not owned exclusively by root, so a non-root user could replace it before NSE runs " ++
          "it with full privileges. Refusing to execute it.", "", []⟩
    else .ok candidate.str

def isBareName (binary : String) : Bool := binary != "" && !PyStr.contains '/' binary

def resolve [U : PyStr.Unicode] (fs : Tree) (binary : String) : Except PyExc String :=
  if !isBareName binary then .error ⟨.valueError, "resolve() takes a bare binary name, not " ++ U.repr binary, "", []⟩
  else resolveIn fs binary trustedDirs []

/-- What `resolve_optional` makes of the answer of `resolve`. -/
def optional : Except PyExc String → Except PyExc (Option String)
  | .ok path => .ok (some path)
  | .error e => if e.cls == .binaryNotFoundError then .ok none else .error e

def resolveOptional [U : PyStr.Unicode] (fs : Tree) (binary : String) : Except PyExc (Option String) :=
  optional (resolve fs binary)

/-! ## What is returned -/

variable {fs : Tree} {binary p : String} {user : User} {candidate : Path}

/-- The first executable file of the name in the directories. -/
def chosen (fs : Tree) (binary : String) (directories : List String) : Option Path :=
  (directories.map fun directory => Path.join (Path.parts directory) binary).find? fun c => isFile fs c && accessX fs c

theorem resolveIn_ok_iff {directories searched : List String} : resolveIn fs binary directories searched = .ok p ↔
    ∃ c, chosen fs binary directories = some c ∧ isSafelyOwned fs c = true ∧ p = c.str := by
  induction directories generalizing searched with
  | nil => simp [resolveIn, chosen]
  | cons directory rest ih =>
    rw [resolveIn, chosen, List.map_cons, List.find?_cons]
    cases hfile : isFile fs (Path.join (Path.parts directory) binary) with
    | false => simpa [hfile, chosen] using ih
    | true =>
      cases haccess : accessX fs (Path.join (Path.parts directory) binary) with
      | false => simpa [hfile, haccess, chosen] using ih
      | true =>
        cases hsafe : isSafelyOwned fs (Path.join (Path.parts directory) binary) with
        | false => simp [hsafe]
        | true =>
          simp only [Bool.not_true, Bool.or_self, Bool.false_eq_true, if_false, Bool.and_self]
          constructor
          · intro h
            cases h
            exact ⟨_, rfl, hsafe, rfl⟩
          · intro ⟨c, hc, _, hp⟩
            cases hc
            rw [hp]

theorem resolve_ok_iff [U : PyStr.Unicode] : resolve fs binary = .ok p ↔
    isBareName binary = true ∧ ∃ c, chosen fs binary trustedDirs = some c ∧ isSafelyOwned fs c = true ∧ p = c.str := by
  unfold resolve
  cases isBareName binary with
  | true => simp [resolveIn_ok_iff]
  | false => simp

/-- What is chosen is a file. -/
theorem chosen_file {directories : List String} (h : chosen fs binary directories = some candidate) :
    ∃ r x, fs.reach candidate.str = some r ∧ fs.inode r.ino = some x ∧ x.node.shape = .file ∧
      stat fs candidate = some x := by
  unfold chosen at h
  have hboth := List.find?_some h
  have hfile := (Bool.and_eq_true_iff.mp hboth).1
  unfold isFile at hfile
  cases hstat : stat fs candidate with
  | none => simp [hstat] at hfile
  | some x =>
    obtain ⟨⟨i, y⟩, hopened, rfl⟩ := Option.map_eq_some_iff.mp hstat
    obtain ⟨r, hr, hinode⟩ := Option.bind_eq_some_iff.mp hopened
    obtain ⟨z, hz, heq⟩ := Option.map_eq_some_iff.mp hinode
    cases heq
    exact ⟨r, y, hr, hz, by simpa [hstat] using hfile, rfl⟩

/-! ## Who can replace it -/

/-- Only root can write an inode that root owns and that is neither group- nor
    world-writable. -/
theorem not_mayWrite {x : Inode} (huid : x.uid = 0) (hmode : x.mode &&& (S_IWGRP ||| S_IWOTH) = 0) :
    user.mayWrite x = false := by
  rw [Nat.and_or_distrib_left, Nat.or_eq_zero_iff] at hmode
  unfold User.mayWrite
  rw [if_neg (by rw [huid]; exact user.uid_ne.symm)]
  split
  · simpa [S_IWGRP] using hmode.1
  · simpa [S_IWOTH] using hmode.2

theorem safelyOwned_kept {x : Inode} (hsafe : isSafelyOwned fs candidate = true) (hx : stat fs candidate = some x) :
    user.mayWrite x = false := by
  have hchecked := List.all_eq_true.mp hsafe candidate List.mem_cons_self
  rw [hx] at hchecked
  simp only [Bool.and_eq_true, beq_iff_eq] at hchecked
  exact not_mayWrite hchecked.1 hchecked.2

/-- The directories in which a name is looked up on the way of a path. -/
def directoriesOf (fs : Tree) (p : Path) : List FileSystem.Ino :=
  ((fs.reach p.str).map fun r => r.lookups.map (·.1)).getD []

/-- A user cannot change what the path that `resolve` returns leads to, exactly when no
    directory on the way is writable to that user. -/
theorem resolve_irreplaceable_iff [U : PyStr.Unicode] (fs : Tree) (binary : String) (user : User) :
    (∀ p, resolve fs binary = .ok p → ∀ ops, (fs.attack user ops).opened p = fs.opened p) ↔
      (isBareName binary = true → ∀ c, chosen fs binary trustedDirs = some c → isSafelyOwned fs c = true →
        ∀ d ∈ directoriesOf fs c, fs.writable user d = false) := by
  have hway : ∀ c, chosen fs binary trustedDirs = some c → isSafelyOwned fs c = true →
      ((∀ ops, (fs.attack user ops).opened c.str = fs.opened c.str) ↔ ∀ d ∈ directoriesOf fs c,
        fs.writable user d = false) := by
    intro c hchosen hsafe
    obtain ⟨r, x, hr, hx, hshape, hstat⟩ := chosen_file hchosen
    have hkept : fs.writable user r.ino = false := by simpa [Tree.writable, hx] using safelyOwned_kept hsafe hstat
    rw [FileSystem.opened_fixed_iff hr (by simp [Tree.shape, hx, hshape])]
    simp [hkept, directoriesOf, hr]
  constructor
  · intro h hbare c hchosen hsafe
    exact (hway c hchosen hsafe).mp (h c.str (resolve_ok_iff.mpr ⟨hbare, c, hchosen, hsafe, rfl⟩))
  · intro h p hp
    obtain ⟨hbare, c, hchosen, hsafe, rfl⟩ := resolve_ok_iff.mp hp
    exact (hway c hchosen hsafe).mpr (h hbare c hchosen hsafe)

/-- `/usr/local/bin/nft` is a link to a file of root's in the directory of a user. -/
def linkedTree : Tree :=
  ⟨[⟨0, 0, 0o755, .dir [("usr", 1), ("home", 2)]⟩,
    ⟨0, 0, 0o755, .dir [("local", 3)]⟩,
    ⟨0, 0, 0o755, .dir [("bob", 6)]⟩,
    ⟨0, 0, 0o755, .dir [("bin", 4)]⟩,
    ⟨0, 0, 0o755, .dir [("nft", 5)]⟩,
    ⟨0, 0, 0o777, .symlink "/home/bob/nft"⟩,
    ⟨1000, 1000, 0o755, .dir [("nft", 7)]⟩,
    ⟨0, 0, 0o755, .file [0x7f, 0x45, 0x4c, 0x46]⟩]⟩

def bob : User := ⟨1000, [1000], by decide⟩

attribute [local instance] PyStr.Unicode.ascii

/-- The link is resolved, and then leads to a file of the user's. -/
theorem a_link_into_a_writable_directory_is_trusted :
    (linkedTree.inode FileSystem.root.ino).any (fun x => x.uid == 0 && x.mode &&& (S_IWGRP ||| S_IWOTH) == 0) = true ∧
      resolve linkedTree "nft" = .ok "/usr/local/bin/nft" ∧
      linkedTree.opened "/usr/local/bin/nft" = some (7, ⟨0, 0, 0o755, .file [0x7f, 0x45, 0x4c, 0x46]⟩) ∧
      (linkedTree.attack bob [.unlink 6 "nft", .creat 6 "nft" 1000 0o755 [0x23, 0x21]]).opened "/usr/local/bin/nft" =
        some (8, ⟨1000, 1000, 0o755, .file [0x23, 0x21]⟩) := by
  decide +kernel

end Paths

end Nse
