/-
  Nse.Lib.FileSystem — a tree of files as Linux walks it, and what a user who is not root can
  do to it.

  An inode has an owner, a group, permission bits and its contents. A path is walked one
  component at a time: a name is looked up in the current directory, a symbolic link on the
  way is followed, wherever it stands, and at most forty of them. The walk keeps the
  directories it came down through, so `..` is the one above.

  Proved: `opened_fixed_iff`, opening a path that leads to a file gives the same unmodified
  file after whatever a user does, exactly when the user can write neither the file nor any
  directory the walk looks a name up in.
-/

import Mathlib.Data.Fintype.EquivFin
import Nse.Lib.PyStr

namespace FileSystem

/-! ## Inodes -/

abbrev Ino := Nat

inductive Node where
  | file (content : List UInt8)
  | dir (entries : List (String × Ino))
  | symlink (target : String)
  deriving DecidableEq, Repr

structure Inode where
  uid : Nat
  gid : Nat
  mode : Nat
  node : Node
  deriving DecidableEq, Repr

/-- What a node is, apart from what can be written into it. -/
inductive Shape where
  | file
  | dir
  | symlink (target : String)
  deriving DecidableEq, Repr

def Node.shape : Node → Shape
  | .file _ => .file
  | .dir _ => .dir
  | .symlink target => .symlink target

def Node.entries : Node → List (String × Ino)
  | .dir es => es
  | _ => []

structure Tree where
  inodes : List Inode
  deriving DecidableEq, Repr

namespace Tree

variable (fs : Tree)

def inode (i : Ino) : Option Inode := fs.inodes[i]?

def shape (i : Ino) : Option Shape := (fs.inode i).map (·.node.shape)

def entry (d : Ino) (name : String) : Option Ino := (fs.inode d).bind fun x => x.node.entries.lookup name

end Tree

/-! ## Walking a path -/

/-- A component that is looked up. An empty one, as in `a//b`, stays in the directory. -/
def isName (c : String) : Bool := c != "" && c != "." && c != ".."

/-- Where a walk is: an inode, and the directories above it, the nearest first. -/
structure Place where
  ino : Ino
  above : List Ino
  deriving DecidableEq, Repr

def root : Place := ⟨0, []⟩

inductive Hop where
  | into (p : Place)
  | via (target : String)
  deriving DecidableEq, Repr

/-- Where a walk ended, and what it looked up on the way. -/
structure Reached where
  ino : Ino
  lookups : List (Ino × String)
  deriving DecidableEq, Repr

def Reached.after (earlier : List (Ino × String)) (r : Reached) : Reached := { r with lookups := earlier ++ r.lookups }

/-- What the component `c` leads to. -/
def Tree.hop (fs : Tree) (p : Place) (c : String) : Option Hop :=
  if fs.shape p.ino ≠ some .dir then none
  else if c = ".." then
    match p.above with
    | [] => some (.into p)
    | d :: ds => some (.into ⟨d, ds⟩)
  else if isName c then
    (fs.entry p.ino c).bind fun i => (fs.shape i).map fun
      | .symlink target => .via target
      | _ => .into ⟨i, p.ino :: p.above⟩
  else some (.into p)

def looked (p : Place) (c : String) : List (Ino × String) := if isName c then [(p.ino, c)] else []

def components (path : String) : List String := PyStr.splitOn '/' path

/-- Where a link met at `p` sets out from. -/
def Place.start (p : Place) (target : String) : Place := if PyStr.startsWith target "/" then root else p

def Tree.walkWith (fs : Tree) (follow : Place → String → List String → Option Reached) :
    Place → List String → Option Reached
  | p, [] => some ⟨p.ino, []⟩
  | p, c :: cs =>
    (fs.hop p c).bind fun
      | .into q => (fs.walkWith follow q cs).map (Reached.after (looked p c))
      | .via target => (follow p target cs).map (Reached.after (looked p c))

/-- The walk of `cs` from `p`, on which `links` links may be followed. -/
def Tree.walk (fs : Tree) : Nat → Place → List String → Option Reached
  | 0 => fs.walkWith fun _ _ _ => none
  | links + 1 => fs.walkWith fun p target cs =>
    if target = "" then none else Tree.walk fs links (p.start target) (components target ++ cs)

/-- The walk of an absolute path. -/
def Tree.reach (fs : Tree) (path : String) : Option Reached :=
  if PyStr.startsWith path "/" then fs.walk 40 root (components path) else none

/-- The inode a path leads to, with what is in it. -/
def Tree.opened (fs : Tree) (path : String) : Option (Ino × Inode) :=
  (fs.reach path).bind fun r => (fs.inode r.ino).map fun x => (r.ino, x)

/-! ## What a user can do -/

/-- A user who is not root. -/
structure User where
  uid : Nat
  groups : List Nat
  uid_ne : uid ≠ 0

def User.mayWrite (u : User) (x : Inode) : Bool :=
  if x.uid = u.uid then x.mode &&& 0o200 != 0
  else if x.gid ∈ u.groups then x.mode &&& 0o020 != 0
  else x.mode &&& 0o002 != 0

def Tree.writable (fs : Tree) (u : User) (i : Ino) : Bool := (fs.inode i).any u.mayWrite

inductive Op where
  | write (file : Ino) (content : List UInt8)
  | creat (dir : Ino) (name : String) (gid mode : Nat) (content : List UInt8)
  | mkdir (dir : Ino) (name : String) (gid mode : Nat)
  | symlink (dir : Ino) (name : String) (gid : Nat) (target : String)
  | link (dir : Ino) (name : String) (file : Ino)
  | rename (dir : Ino) (name : String) (dir' : Ino) (name' : String)
  | unlink (dir : Ino) (name : String)
  deriving DecidableEq, Repr

namespace Tree

def modify (fs : Tree) (i : Ino) (f : Inode → Inode) : Tree := ⟨fs.inodes.modify i f⟩

def removed (name : String) (es : List (String × Ino)) : List (String × Ino) := es.filter (·.1 != name)

def bound (name : String) (i : Ino) (es : List (String × Ino)) : List (String × Ino) := (name, i) :: removed name es

/-- A directory with other entries. -/
def updateEntries (f : List (String × Ino) → List (String × Ino)) (x : Inode) : Inode :=
  match x.node with
  | .dir es => { x with node := .dir (f es) }
  | _ => x

def overwrite (content : List UInt8) (x : Inode) : Inode :=
  match x.node with
  | .file _ => { x with node := .file content }
  | _ => x

def update (fs : Tree) (d : Ino) (f : List (String × Ino) → List (String × Ino)) : Tree := fs.modify d (updateEntries f)

def make (fs : Tree) (u : User) (d : Ino) (name : String) (x : Inode) : Tree :=
  if fs.writable u d && (fs.entry d name).isNone then
    (Tree.mk (fs.inodes ++ [x])).update d (bound name fs.inodes.length)
  else fs

/-- An operation that is not permitted, or fails, changes nothing. -/
def perform (u : User) (fs : Tree) : Op → Tree
  | .write i content => if fs.writable u i then fs.modify i (overwrite content) else fs
  | .creat d name gid mode content => fs.make u d name ⟨u.uid, gid, mode, .file content⟩
  | .mkdir d name gid mode => fs.make u d name ⟨u.uid, gid, mode, .dir []⟩
  | .symlink d name gid target => fs.make u d name ⟨u.uid, gid, 0o777, .symlink target⟩
  | .link d name i =>
    if fs.writable u d && (fs.entry d name).isNone && fs.shape i == some .file then fs.update d (bound name i) else fs
  | .rename d name d' name' =>
    if fs.writable u d && fs.writable u d' then
      match fs.entry d name with
      | none => fs
      | some i => (fs.update d (removed name)).update d' (bound name' i)
    else fs
  | .unlink d name => if fs.writable u d then fs.update d (removed name) else fs

def attack (u : User) (fs : Tree) (ops : List Op) : Tree := ops.foldl (perform u) fs

end Tree

/-! ## What no operation changes -/

/-- What can become of an inode: it keeps its owner, its permissions and its kind, and all of
    it where the user cannot write it. -/
structure Becomes (u : User) (x y : Inode) : Prop where
  uid : y.uid = x.uid
  gid : y.gid = x.gid
  mode : y.mode = x.mode
  shape : y.node.shape = x.node.shape
  kept : u.mayWrite x = false → y = x

def Evolves (u : User) (fs fs' : Tree) : Prop := ∀ i x, fs.inode i = some x → ∃ y, fs'.inode i = some y ∧ Becomes u x y

variable {u : User} {fs fs' fs'' : Tree} {x y z : Inode}

theorem Becomes.refl : Becomes u x x := ⟨rfl, rfl, rfl, rfl, fun _ => rfl⟩

theorem Becomes.mayWrite (h : Becomes u x y) : u.mayWrite y = u.mayWrite x := by
  simp only [User.mayWrite, h.uid, h.gid, h.mode]

theorem Becomes.trans (h : Becomes u x y) (h' : Becomes u y z) : Becomes u x z where
  uid := h'.uid.trans h.uid
  gid := h'.gid.trans h.gid
  mode := h'.mode.trans h.mode
  shape := h'.shape.trans h.shape
  kept := by
    intro hx
    rw [h'.kept (by rw [h.mayWrite, hx]), h.kept hx]

theorem Evolves.refl : Evolves u fs fs := fun _ x hx => ⟨x, hx, .refl⟩

theorem Evolves.trans (h : Evolves u fs fs') (h' : Evolves u fs' fs'') : Evolves u fs fs'' := by
  intro i x hx
  obtain ⟨y, hy, hxy⟩ := h i x hx
  obtain ⟨z, hz, hyz⟩ := h' i y hy
  exact ⟨z, hz, hxy.trans hyz⟩

theorem writable_iff {i : Ino} : fs.writable u i = true ↔ ∃ x, fs.inode i = some x ∧ u.mayWrite x = true := by
  cases h : fs.inode i with
  | none => simp [Tree.writable, h]
  | some x => simp [Tree.writable, h]

theorem Evolves.writable (h : Evolves u fs fs') {i : Ino} (hi : fs.writable u i = true) : fs'.writable u i = true := by
  obtain ⟨x, hx, hw⟩ := writable_iff.mp hi
  obtain ⟨y, hy, hxy⟩ := h i x hx
  exact writable_iff.mpr ⟨y, hy, by rw [hxy.mayWrite, hw]⟩

/-- A change of one inode that the user can write. -/
theorem evolves_modify {i : Ino} {f : Inode → Inode} (hw : fs.writable u i = true)
    (hf : ∀ x, (f x).uid = x.uid ∧ (f x).gid = x.gid ∧ (f x).mode = x.mode ∧ (f x).node.shape = x.node.shape) :
    Evolves u fs (fs.modify i f) := by
  intro j x hx
  by_cases hij : i = j
  · subst hij
    obtain ⟨huid, hgid, hmode, hshape⟩ := hf x
    have hx' : u.mayWrite x = true := by simpa [Tree.writable, hx] using hw
    refine ⟨f x, ?_, huid, hgid, hmode, hshape, fun h => by rw [hx'] at h; cases h⟩
    simpa [Tree.inode, Tree.modify] using congrArg (Option.map f) hx
  · exact ⟨x, by simpa [Tree.inode, Tree.modify, hij] using hx, .refl⟩

theorem updateEntries_frame (f : List (String × Ino) → List (String × Ino)) (x : Inode) :
    (Tree.updateEntries f x).uid = x.uid ∧ (Tree.updateEntries f x).gid = x.gid ∧
      (Tree.updateEntries f x).mode = x.mode ∧
      (Tree.updateEntries f x).node.shape = x.node.shape := by
  unfold Tree.updateEntries
  split
  · rename_i hes
    simp [hes, Node.shape]
  · simp

theorem overwrite_frame (content : List UInt8) (x : Inode) :
    (Tree.overwrite content x).uid = x.uid ∧ (Tree.overwrite content x).gid = x.gid ∧
      (Tree.overwrite content x).mode = x.mode ∧ (Tree.overwrite content x).node.shape = x.node.shape := by
  unfold Tree.overwrite
  split
  · rename_i hfile
    simp [hfile, Node.shape]
  · simp

theorem evolves_update {d : Ino} {f : List (String × Ino) → List (String × Ino)} (hw : fs.writable u d = true) :
    Evolves u fs (fs.update d f) :=
  evolves_modify hw (updateEntries_frame f)

theorem evolves_append (x : Inode) : Evolves u fs ⟨fs.inodes ++ [x]⟩ := by
  intro i y hy
  have hlt : i < fs.inodes.length := (List.getElem?_eq_some_iff.mp hy).1
  exact ⟨y, by simpa [Tree.inode, List.getElem?_append_left hlt] using hy, .refl⟩

/-- An operation that is refused changes nothing. -/
theorem evolves_if {c : Bool} (h : c = true → Evolves u fs fs') : Evolves u fs (if c then fs' else fs) := by
  cases c with
  | true => exact h rfl
  | false => exact .refl

theorem evolves_make {d : Ino} {name : String} : Evolves u fs (fs.make u d name x) := by
  refine evolves_if fun h => (evolves_append x).trans (evolves_update ?_)
  exact (evolves_append x).writable (Bool.and_eq_true_iff.mp h).1

theorem evolves_perform (op : Op) : Evolves u fs (fs.perform u op) := by
  cases op with
  | write i content => exact evolves_if fun h => evolves_modify h (overwrite_frame content)
  | creat d name gid mode content => exact evolves_make
  | mkdir d name gid mode => exact evolves_make
  | symlink d name gid target => exact evolves_make
  | link d name i =>
    refine evolves_if fun h => ?_
    simp only [Bool.and_eq_true] at h
    exact evolves_update h.1.1
  | rename d name d' name' =>
    refine evolves_if fun h => ?_
    simp only [Bool.and_eq_true] at h
    split
    · exact .refl
    · have hstep : Evolves u fs (fs.update d (Tree.removed name)) := evolves_update h.1
      exact hstep.trans (evolves_update (hstep.writable h.2))
  | unlink d name => exact evolves_if evolves_update

theorem evolves_attack (ops : List Op) : Evolves u fs (fs.attack u ops) := by
  induction ops generalizing fs with
  | nil => exact .refl
  | cons op ops ih => exact (evolves_perform op).trans ih

/-! ## The walk in a tree that has evolved -/

variable {p : Place} {c : String} {cs : List String} {r : Reached}

theorem Evolves.shape (h : Evolves u fs fs') {i : Ino} {s : Shape} (hs : fs.shape i = some s) :
    fs'.shape i = some s := by
  obtain ⟨x, hx, rfl⟩ := Option.map_eq_some_iff.mp hs
  obtain ⟨y, hy, hxy⟩ := h i x hx
  simp [Tree.shape, hy, hxy.shape]

theorem Evolves.entry (h : Evolves u fs fs') {d i : Ino} {name : String} (hw : fs.writable u d = false)
    (hi : fs.entry d name = some i) : fs'.entry d name = some i := by
  obtain ⟨x, hx, hlookup⟩ := Option.bind_eq_some_iff.mp hi
  obtain ⟨y, hy, hxy⟩ := h d x hx
  rw [hxy.kept (by simpa [Tree.writable, hx] using hw)] at hy
  exact Option.bind_eq_some_iff.mpr ⟨x, hy, hlookup⟩

/-- A component leads to the same place where kinds are kept and its entry, if it is looked
    up, is there. -/
theorem hop_same {next : Hop} (hshape : ∀ i s, fs.shape i = some s → fs'.shape i = some s)
    (hentry : ∀ l ∈ looked p c, ∀ i, fs.entry l.1 l.2 = some i → fs'.entry l.1 l.2 = some i)
      (h : fs.hop p c = some next) :
    fs'.hop p c = some next := by
  unfold Tree.hop at h ⊢
  by_cases hdir : fs.shape p.ino = some .dir
  · rw [if_neg (by simpa using hdir)] at h
    rw [if_neg (by simpa using hshape _ _ hdir)]
    split
    · rename_i hup
      rwa [if_pos hup] at h
    · rename_i hup
      rw [if_neg hup] at h
      split
      · rename_i hname
        rw [if_pos hname] at h
        obtain ⟨i, hi, hnext⟩ := Option.bind_eq_some_iff.mp h
        obtain ⟨s, hs, rfl⟩ := Option.map_eq_some_iff.mp hnext
        have hthere := hentry (p.ino, c) (by simp [looked, hname]) i hi
        exact Option.bind_eq_some_iff.mpr ⟨i, hthere, Option.map_eq_some_iff.mpr ⟨s, hshape i s hs, rfl⟩⟩
      · rename_i hname
        rwa [if_neg hname] at h
  · rw [if_pos (by simpa using hdir)] at h
    cases h

theorem hop_lost (hname : isName c = true) (hlost : fs.entry p.ino c = none) : fs.hop p c = none := by
  have hup : c ≠ ".." := by
    intro hc
    rw [hc] at hname
    simp [isName] at hname
  simp [Tree.hop, hup, hname, hlost]

/-- The rest of a walk, after one component. -/
def Tree.onward (fs : Tree) (follow : Place → String → List String → Option Reached) (p : Place) (cs : List String) :
    Hop → Option Reached
  | .into q => fs.walkWith follow q cs
  | .via target => follow p target cs

variable {follow follow' : Place → String → List String → Option Reached}

theorem walkWith_cons : fs.walkWith follow p (c :: cs) =
    (fs.hop p c).bind fun next => (fs.onward follow p cs next).map (Reached.after (looked p c)) := by
  rw [Tree.walkWith]
  congr 1
  funext next
  cases next <;> rfl

theorem walkWith_cons_some : fs.walkWith follow p (c :: cs) = some r ↔
    ∃ next r', fs.hop p c = some next ∧ fs.onward follow p cs next = some r' ∧ r = r'.after (looked p c) := by
  rw [walkWith_cons, Option.bind_eq_some_iff]
  constructor
  · intro ⟨next, hnext, h⟩
    obtain ⟨r', hr', rfl⟩ := Option.map_eq_some_iff.mp h
    exact ⟨next, r', hnext, hr', rfl⟩
  · intro ⟨next, r', hnext, hr', h⟩
    exact ⟨next, hnext, Option.map_eq_some_iff.mpr ⟨r', hr', h.symm⟩⟩

section Same

variable (hshape : ∀ i s, fs.shape i = some s → fs'.shape i = some s)

/-- What was looked up is there. -/
def Found (fs fs' : Tree) (r : Reached) : Prop := ∀ l ∈ r.lookups, ∀ i, fs.entry l.1 l.2 = some i →
    fs'.entry l.1 l.2 = some i

include hshape

theorem walkWith_same (hfollow : ∀ p target cs r, follow p target cs = some r → Found fs fs' r →
    follow' p target cs = some r)
    (h : fs.walkWith follow p cs = some r) (hr : Found fs fs' r) : fs'.walkWith follow' p cs = some r := by
  induction cs generalizing p r with
  | nil => exact h
  | cons c cs ih =>
    obtain ⟨next, r', hhop, honward, rfl⟩ := walkWith_cons_some.mp h
    have hhop' : fs'.hop p c = some next := hop_same hshape (fun l hl => hr l (List.mem_append_left _ hl)) hhop
    have hr' : Found fs fs' r' := fun l hl => hr l (List.mem_append_right _ hl)
    refine walkWith_cons_some.mpr ⟨next, r', hhop', ?_, rfl⟩
    cases next with
    | into q => exact ih honward hr'
    | via target => exact hfollow p target cs r' honward hr'

theorem walk_same {links : Nat} (h : fs.walk links p cs = some r) (hr : Found fs fs' r) :
    fs'.walk links p cs = some r := by
  induction links generalizing p cs r with
  | zero => exact walkWith_same hshape (fun _ _ _ _ h _ => by cases h) h hr
  | succ links ih =>
    refine walkWith_same hshape (fun p target cs r h hr => ?_) h hr
    split
    · rename_i hempty
      rw [if_pos hempty] at h
      cases h
    · rename_i hempty
      rw [if_neg hempty] at h
      exact ih h hr

variable {lost : Ino × String} (hlost : fs'.entry lost.1 lost.2 = none)
  (hentry : ∀ l, l ≠ lost → ∀ i, fs.entry l.1 l.2 = some i → fs'.entry l.1 l.2 = some i)

include hlost hentry

theorem walkWith_lost
    (hfollow : ∀ p target cs r, follow p target cs = some r → lost ∈ r.lookups → follow' p target cs = none)
    (h : fs.walkWith follow p cs = some r) (hr : lost ∈ r.lookups) : fs'.walkWith follow' p cs = none := by
  induction cs generalizing p r with
  | nil =>
    cases h
    cases hr
  | cons c cs ih =>
    obtain ⟨next, r', hhop, honward, rfl⟩ := walkWith_cons_some.mp h
    rw [walkWith_cons]
    by_cases hhere : lost ∈ looked p c
    · -- the walk stops here
      unfold looked at hhere
      split at hhere
      · rename_i hname
        cases List.mem_singleton.mp hhere
        rw [hop_lost hname hlost]
        rfl
      · cases hhere
    · have hhop' : fs'.hop p c = some next := by
        refine hop_same hshape (fun l hl => hentry l ?_) hhop
        intro heq
        exact hhere (heq ▸ hl)
      have hr' : lost ∈ r'.lookups := (List.mem_append.mp hr).resolve_left hhere
      rw [hhop', Option.bind_some]
      cases next with
      | into q =>
        show (fs'.walkWith follow' q cs).map _ = none
        rw [ih honward hr']
        rfl
      | via target =>
        show (follow' p target cs).map _ = none
        rw [hfollow p target cs r' honward hr']
        rfl

theorem walk_lost {links : Nat} (h : fs.walk links p cs = some r) (hr : lost ∈ r.lookups) :
    fs'.walk links p cs = none := by
  induction links generalizing p cs r with
  | zero => exact walkWith_lost hshape hlost hentry (fun _ _ _ _ h _ => by cases h) h hr
  | succ links ih =>
    refine walkWith_lost hshape hlost hentry (fun p target cs r h hr => ?_) h hr
    split
    · rfl
    · rename_i hempty
      rw [if_neg hempty] at h
      exact ih h hr

end Same

/-! ## Entries of a directory that was updated -/

variable {d i : Ino} {name other path : String} {es : List (String × Ino)}
    {f : List (String × Ino) → List (String × Ino)}

theorem lookup_head : List.lookup other ((name, i) :: es) = if other = name then some i else es.lookup other := by
  rw [List.lookup_cons]
  by_cases h : other = name
  · simp [h]
  · simp [h, beq_eq_false_iff_ne.mpr h]

theorem lookup_removed : (Tree.removed name es).lookup other = if other = name then none else es.lookup other := by
  unfold Tree.removed
  induction es with
  | nil => simp
  | cons e es ih =>
    obtain ⟨n, i⟩ := e
    by_cases hn : n = name
    · rw [List.filter_cons_of_neg (by simp [hn]), ih, lookup_head, hn]
      split
      · rfl
      · rfl
    · rw [List.filter_cons_of_pos (by simp [hn]), lookup_head, lookup_head, ih]
      by_cases ho : other = name
      · simp [ho, Ne.symm hn]
      · simp [ho]

theorem lookup_bound : (Tree.bound name i es).lookup other = if other = name then some i else es.lookup other := by
  rw [Tree.bound, lookup_head, lookup_removed]
  by_cases h : other = name
  · simp [h]
  · simp [h]

theorem entry_update_ne {d' : Ino} (h : d' ≠ d) : (fs.update d f).entry d' name = fs.entry d' name := by
  simp [Tree.entry, Tree.inode, Tree.update, Tree.modify, Ne.symm h]

theorem entry_update (hx : fs.inode d = some x) (hes : x.node = .dir es) :
    (fs.update d f).entry d name = (f es).lookup name := by
  have hx' : (fs.update d f).inode d = some (Tree.updateEntries f x) := by
    simpa [Tree.inode, Tree.update, Tree.modify] using congrArg (Option.map (Tree.updateEntries f)) hx
  simp [Tree.entry, hx', Tree.updateEntries, hes, Node.entries]

/-- Only a directory has entries. -/
theorem entry_some (h : fs.entry d name = some i) : ∃ x es, fs.inode d = some x ∧ x.node = .dir es ∧
    es.lookup name = some i := by
  obtain ⟨x, hx, hlookup⟩ := Option.bind_eq_some_iff.mp h
  cases hnode : x.node with
  | dir es => exact ⟨x, es, hx, hnode, by simpa [hnode, Node.entries] using hlookup⟩
  | file _ => simp [hnode, Node.entries] at hlookup
  | symlink _ => simp [hnode, Node.entries] at hlookup

/-! ## Who can change what a path leads to -/

/-- Everything a walk looked up is there. -/
theorem walk_found {links : Nat} (h : fs.walk links p cs = some r) (l : Ino × String) (hl : l ∈ r.lookups) :
    ∃ i, fs.entry l.1 l.2 = some i := by
  cases hentry : fs.entry l.1 l.2 with
  | some i => exact ⟨i, rfl⟩
  | none =>
    rw [walk_lost (fun _ _ hs => hs) hentry (fun _ _ _ hi => hi) h hl] at h
    cases h

theorem reach_eq (h : fs.reach path = some r) :
    PyStr.startsWith path "/" = true ∧ fs.walk 40 root (components path) = some r := by
  unfold Tree.reach at h
  split at h
  · rename_i habs
    exact ⟨habs, h⟩
  · cases h

theorem opened_inode (h : fs.opened path = some (i, x)) : fs.inode i = some x := by
  obtain ⟨r, -, h⟩ := Option.bind_eq_some_iff.mp h
  obtain ⟨y, hy, heq⟩ := Option.map_eq_some_iff.mp h
  cases heq
  exact hy

/-- Moving an entry away in a directory the user can write loses it, and nothing else. -/
theorem rename_loses {lost : Ino × String} (hw : fs.writable u lost.1 = true) (hi : fs.entry lost.1 lost.2 = some i) :
    ∃ op, (fs.perform u op).entry lost.1 lost.2 = none ∧
      ∀ l, l ≠ lost → ∀ j, fs.entry l.1 l.2 = some j → (fs.perform u op).entry l.1 l.2 = some j := by
  obtain ⟨d, name⟩ := lost
  obtain ⟨x, es, hx, hes, hlookup⟩ := entry_some hi
  obtain ⟨fresh, hfresh⟩ := Infinite.exists_notMem_finset (es.map (·.1)).toFinset
  have hfree : es.lookup fresh = none := by
    rw [List.lookup_eq_none_iff]
    intro e he
    have hne : fresh ≠ e.1 := by
      intro heq
      exact hfresh (List.mem_toFinset.mpr (heq ▸ List.mem_map_of_mem he))
    simpa using hne
  have hne : name ≠ fresh := by
    intro heq
    rw [heq, hfree] at hlookup
    cases hlookup
  have hrename : fs.perform u (.rename d name d fresh) = (fs.update d (Tree.removed name)).update d
      (Tree.bound fresh i) := by
    simp [Tree.perform, hw, hi]
  have hmoved : ∀ n, ((fs.update d (Tree.removed name)).update d (Tree.bound fresh i)).entry d n =
      if n = fresh then some i else if n = name then none else es.lookup n := by
    intro n
    have hx' : (fs.update d (Tree.removed name)).inode d = some (Tree.updateEntries (Tree.removed name) x) := by
      simpa [Tree.inode, Tree.update, Tree.modify] using congrArg
        (Option.map (Tree.updateEntries (Tree.removed name))) hx
    have hes' : (Tree.updateEntries (Tree.removed name) x).node = .dir (Tree.removed name es) := by
      simp [Tree.updateEntries, hes]
    rw [entry_update hx' hes', lookup_bound, lookup_removed]
  refine ⟨.rename d name d fresh, ?_, ?_⟩
  · rw [hrename]
    simp [hmoved, hne]
  · intro ⟨d', n⟩ hl j hj
    rw [hrename]
    by_cases hd : d' = d
    · subst hd
      obtain ⟨y, es', hy, hes', hj'⟩ := entry_some hj
      cases hx.symm.trans hy
      cases hes.symm.trans hes'
      have hnf : n ≠ fresh := by
        intro heq
        rw [heq, hfree] at hj'
        cases hj'
      have hnn : n ≠ name := by
        intro heq
        exact hl (by rw [heq])
      simpa [hmoved, hnf, hnn] using hj'
    · rw [entry_update_ne hd, entry_update_ne hd]
      exact hj

/-- Whatever a user does, a path that leads to a file leads to the same unmodified file,
    exactly when the user can write neither the file nor a directory the walk looks a name up
    in. -/
theorem opened_fixed_iff (h : fs.reach path = some r) (hfile : fs.shape r.ino = some .file) :
    (∀ ops, (fs.attack u ops).opened path = fs.opened path) ↔
      fs.writable u r.ino = false ∧ ∀ l ∈ r.lookups, fs.writable u l.1 = false := by
  obtain ⟨x, hx, hshape⟩ := Option.map_eq_some_iff.mp hfile
  have hopened : fs.opened path = some (r.ino, x) := by simp [Tree.opened, h, hx]
  obtain ⟨habs, hwalk⟩ := reach_eq h
  constructor
  · intro hfixed
    constructor
    · -- writing the file changes it
      by_contra hw
      rw [Bool.not_eq_false] at hw
      cases hnode : x.node with
      | file content =>
        have hsame : (fs.attack u [.write r.ino (0 :: content)]).inode r.ino = some x :=
          opened_inode ((hfixed _).trans hopened)
        have hwritten : (fs.attack u [.write r.ino (0 :: content)]).inode r.ino =
            some { x with node := .file (0 :: content) } := by
          simpa [Tree.attack, Tree.perform, hw, Tree.inode, Tree.modify, Tree.overwrite, hnode] using
            congrArg (Option.map (Tree.overwrite (0 :: content))) hx
        have hcontent : x.node = .file (0 :: content) :=
          congrArg Inode.node (Option.some.inj (hsame.symm.trans hwritten))
        rw [hnode] at hcontent
        simp at hcontent
      | dir es => simp [hnode, Node.shape] at hshape
      | symlink target => simp [hnode, Node.shape] at hshape
    · intro l hl
      by_contra hw
      rw [Bool.not_eq_false] at hw
      obtain ⟨i, hi⟩ := walk_found hwalk l hl
      obtain ⟨op, hlost, hkept⟩ := rename_loses hw hi
      have hgone : (fs.attack u [op]).opened path = none := by
        have hnone : (fs.perform u op).walk 40 root (components path) = none :=
          walk_lost (fun _ _ => (evolves_perform op).shape) hlost hkept hwalk hl
        simp [Tree.opened, Tree.reach, Tree.attack, habs, hnone]
      rw [hfixed [op], hopened] at hgone
      cases hgone
  · intro ⟨hkeep, hsafe⟩ ops
    have hevolves : Evolves u fs (fs.attack u ops) := evolves_attack ops
    have hwalk' : (fs.attack u ops).walk 40 root (components path) = some r :=
      walk_same (fun _ _ => hevolves.shape) hwalk fun l hl i hi => hevolves.entry (hsafe l hl) hi
    obtain ⟨y, hy, hxy⟩ := hevolves r.ino x hx
    have hsame : y = x := hxy.kept (by simpa [Tree.writable, hx] using hkeep)
    rw [hopened]
    simp [Tree.opened, Tree.reach, habs, hwalk', hy, hsame]

/-! ## A walk, found or not -/

/-- Everything a walk looks up, as far as it gets. -/
def Tree.triedWith (fs : Tree) (follow : Place → String → List String → List (Ino × String)) :
    Place → List String → List (Ino × String)
  | _, [] => []
  | p, c :: cs =>
    looked p c ++ match fs.hop p c with
      | none => []
      | some (.into q) => fs.triedWith follow q cs
      | some (.via target) => follow p target cs

def Tree.tried (fs : Tree) : Nat → Place → List String → List (Ino × String)
  | 0 => fs.triedWith fun _ _ _ => []
  | links + 1 => fs.triedWith fun p target cs =>
    if target = "" then [] else Tree.tried fs links (p.start target) (components target ++ cs)

/-- What is looked up on the way of an absolute path. -/
def Tree.lookups (fs : Tree) (path : String) : List (Ino × String) := fs.tried 40 root (components path)

/-- The directories a walk has come down through are there. -/
def Place.There (fs : Tree) (p : Place) : Prop := ∀ i ∈ p.ino :: p.above, (fs.shape i).isSome = true

/-- What is looked up leads to the same, and to nothing that is not there. -/
def Settled (fs fs' : Tree) (ls : List (Ino × String)) : Prop :=
  ∀ l ∈ ls, fs'.entry l.1 l.2 = fs.entry l.1 l.2 ∧ ∀ i, fs.entry l.1 l.2 = some i → (fs.shape i).isSome = true

theorem Evolves.shape_there (h : Evolves u fs fs') {i : Ino} (hi : (fs.shape i).isSome = true) :
    fs'.shape i = fs.shape i := by
  obtain ⟨s, hs⟩ := Option.isSome_iff_exists.mp hi
  rw [hs]
  exact h.shape hs

/-- A component leads to the same place, or still nowhere. -/
theorem hop_settled (h : Evolves u fs fs') (hp : p.There fs) (hc : Settled fs fs' (looked p c)) :
    fs'.hop p c = fs.hop p c := by
  unfold Tree.hop
  rw [h.shape_there (hp p.ino List.mem_cons_self)]
  by_cases hname : isName c = true
  · obtain ⟨hentry, hthere⟩ := hc (p.ino, c) (by simp [looked, hname])
    rw [hentry]
    cases hi : fs.entry p.ino c with
    | none => rfl
    | some i =>
      have hshape := h.shape_there (hthere i hi)
      simp only [Option.bind_some, hshape]
  · simp only [hname]
    rfl

/-- It leads to a place that is there. -/
theorem hop_there {q : Place} (hp : p.There fs) (h : fs.hop p c = some (.into q)) : q.There fs := by
  unfold Tree.hop at h
  split at h
  · cases h
  · split at h
    · split at h
      · cases h
        exact hp
      · rename_i d ds habove
        cases h
        intro i hi
        exact hp i (List.mem_cons_of_mem _ (habove ▸ hi))
    · split at h
      · obtain ⟨i, -, hnext⟩ := Option.bind_eq_some_iff.mp h
        obtain ⟨s, hs, hq⟩ := Option.map_eq_some_iff.mp hnext
        have hq : q = ⟨i, p.ino :: p.above⟩ := by
          cases s with
          | file => exact (Hop.into.inj hq).symm
          | dir => exact (Hop.into.inj hq).symm
          | symlink target => cases hq
        rw [hq]
        intro j hj
        rcases List.mem_cons.mp hj with rfl | hj
        · simp [hs]
        · exact hp j hj
      · cases h
        exact hp

section Settled

variable {tries tries' : Place → String → List String → List (Ino × String)}

/-- What the rest of a walk looks up, after one component. -/
def Tree.triedOnward (fs : Tree) (tries : Place → String → List String → List (Ino × String))
    (p : Place) (cs : List String) :
    Option Hop → List (Ino × String)
  | none => []
  | some (.into q) => fs.triedWith tries q cs
  | some (.via target) => tries p target cs

theorem triedWith_cons : fs.triedWith tries p (c :: cs) = looked p c ++ fs.triedOnward tries p cs (fs.hop p c) := by
  rw [Tree.triedWith]
  congr 1

/-- Where everything that is looked up is settled, the walk ends as it did and looks up the
    same. -/
theorem walkWith_settled (h : Evolves u fs fs')
    (hfollow : ∀ p target cs, p.There fs → Settled fs fs' (tries p target cs) →
      follow' p target cs = follow p target cs ∧ tries' p target cs = tries p target cs)
    (hp : p.There fs) (hs : Settled fs fs' (fs.triedWith tries p cs)) :
    fs'.walkWith follow' p cs = fs.walkWith follow p cs ∧ fs'.triedWith tries' p cs = fs.triedWith tries p cs := by
  induction cs generalizing p with
  | nil => exact ⟨rfl, rfl⟩
  | cons c cs ih =>
    rw [triedWith_cons] at hs
    have hhop : fs'.hop p c = fs.hop p c := hop_settled h hp fun l hl => hs l (List.mem_append_left _ hl)
    rw [walkWith_cons, walkWith_cons, triedWith_cons, triedWith_cons, hhop]
    cases hnext : fs.hop p c with
    | none => exact ⟨rfl, rfl⟩
    | some next =>
      rw [hnext] at hs
      cases next with
      | into q =>
        obtain ⟨hwalk, htried⟩ := ih (hop_there hp hnext) fun l hl => hs l (List.mem_append_right _ hl)
        simp only [Option.bind_some, Tree.onward, Tree.triedOnward, hwalk, htried, and_self]
      | via target =>
        obtain ⟨hwalk, htried⟩ := hfollow p target cs hp fun l hl => hs l (List.mem_append_right _ hl)
        simp only [Option.bind_some, Tree.onward, Tree.triedOnward, hwalk, htried, and_self]

theorem start_there (hroot : root.There fs) (hp : p.There fs) (target : String) : (p.start target).There fs := by
  unfold Place.start
  split
  · exact hroot
  · exact hp

theorem walk_settled (h : Evolves u fs fs') (hroot : root.There fs) {links : Nat} (hp : p.There fs)
    (hs : Settled fs fs' (fs.tried links p cs)) :
    fs'.walk links p cs = fs.walk links p cs ∧ fs'.tried links p cs = fs.tried links p cs := by
  induction links generalizing p cs with
  | zero => exact walkWith_settled h (fun _ _ _ _ _ => ⟨rfl, rfl⟩) hp hs
  | succ links ih =>
    refine walkWith_settled h (fun p target cs hp hs => ?_) hp hs
    by_cases hempty : target = ""
    · simp [hempty]
    · simp only [hempty, if_false] at hs ⊢
      exact ih (start_there hroot hp target) hs

/-- What is looked up, is looked up in a directory that is there. -/
theorem triedWith_there (hfollow : ∀ p target cs, p.There fs → ∀ l ∈ tries p target cs, (fs.shape l.1).isSome = true)
    (hp : p.There fs) : ∀ l ∈ fs.triedWith tries p cs, (fs.shape l.1).isSome = true := by
  induction cs generalizing p with
  | nil => exact fun l hl => by cases hl
  | cons c cs ih =>
    intro l hl
    rw [triedWith_cons] at hl
    rcases List.mem_append.mp hl with hl | hl
    · unfold looked at hl
      split at hl
      · rw [List.mem_singleton.mp hl]
        exact hp p.ino List.mem_cons_self
      · cases hl
    · cases hnext : fs.hop p c with
      | none =>
        rw [hnext] at hl
        cases hl
      | some next =>
        rw [hnext] at hl
        cases next with
        | into q => exact ih (hop_there hp hnext) l hl
        | via target => exact hfollow p target cs hp l hl

theorem tried_there (hroot : root.There fs) {links : Nat} (hp : p.There fs) :
    ∀ l ∈ fs.tried links p cs, (fs.shape l.1).isSome = true := by
  induction links generalizing p cs with
  | zero => exact triedWith_there (fun _ _ _ _ l hl => by cases hl) hp
  | succ links ih =>
    refine triedWith_there (fun p target cs hp l hl => ?_) hp
    by_cases hempty : target = ""
    · simp [hempty] at hl
    · simp only [hempty, if_false] at hl
      exact ih (start_there hroot hp target) l hl

end Settled

/-- A walk ends at an inode that is there. -/
theorem walkWith_there (hfollow : ∀ p target cs r, p.There fs → follow p target cs = some r →
    (fs.shape r.ino).isSome = true)
    (hp : p.There fs) (h : fs.walkWith follow p cs = some r) : (fs.shape r.ino).isSome = true := by
  induction cs generalizing p r with
  | nil =>
    cases h
    exact hp p.ino List.mem_cons_self
  | cons c cs ih =>
    obtain ⟨next, r', hnext, honward, rfl⟩ := walkWith_cons_some.mp h
    have hthere : (fs.shape r'.ino).isSome = true := by
      cases next with
      | into q => exact ih (hop_there hp hnext) honward
      | via target => exact hfollow p target cs r' hp honward
    exact hthere

theorem walk_there (hroot : root.There fs) {links : Nat} (hp : p.There fs) (h : fs.walk links p cs = some r) :
    (fs.shape r.ino).isSome = true := by
  induction links generalizing p cs r with
  | zero => exact walkWith_there (fun _ _ _ _ _ h => by cases h) hp h
  | succ links ih =>
    refine walkWith_there (fun p target cs r hp h => ?_) hp h
    by_cases hempty : target = ""
    · simp [hempty] at h
    · simp only [hempty, if_false] at h
      exact ih (start_there hroot hp target) h

/-! ## A path that nobody can divert -/

/-- None of these users can write a directory in which a name is looked up on the way, and
    no name there leads to nothing. -/
structure Barred (users : User → Prop) (fs : Tree) (path : String) : Prop where
  root : (fs.shape root.ino).isSome = true
  unwritable : ∀ v, users v → ∀ l ∈ fs.lookups path, fs.writable v l.1 = false
  there : ∀ l ∈ fs.lookups path, ∀ i, fs.entry l.1 l.2 = some i → (fs.shape i).isSome = true

theorem root_there (h : (fs.shape root.ino).isSome = true) : root.There fs := by
  intro i hi
  rw [List.mem_singleton.mp hi]
  exact h

variable {users : User → Prop}

/-- An inode that one user cannot write is the same after what the user does. -/
theorem Evolves.inode (h : Evolves u fs fs') (hi : (fs.shape i).isSome = true) (hw : fs.writable u i = false) :
    fs'.inode i = fs.inode i := by
  cases hx : fs.inode i with
  | none => simp [Tree.shape, hx] at hi
  | some x =>
    obtain ⟨y, hy, hxy⟩ := h i x hx
    rw [hy, hxy.kept (by simpa [Tree.writable, hx] using hw)]

theorem Barred.settled (hb : Barred users fs path) (hu : users u) (h : Evolves u fs fs') :
    Settled fs fs' (fs.lookups path) := by
  intro l hl
  refine ⟨?_, hb.there l hl⟩
  have hroot := root_there hb.root
  have hinode := h.inode (tried_there hroot hroot l hl) (hb.unwritable u hu l hl)
  simp only [Tree.entry, hinode]

theorem Barred.reach (hb : Barred users fs path) (hu : users u) (h : Evolves u fs fs') :
    fs'.reach path = fs.reach path := by
  have hroot := root_there hb.root
  unfold Tree.reach
  rw [(walk_settled h hroot hroot (hb.settled hu h)).1]

theorem Barred.reached (hb : Barred users fs path) (h : fs.reach path = some r) : ∃ x, fs.inode r.ino = some x := by
  have hroot := root_there hb.root
  have hthere := walk_there hroot hroot (reach_eq h).2
  cases hx : fs.inode r.ino with
  | none => simp [Tree.shape, hx] at hthere
  | some x => exact ⟨x, rfl⟩

/-- It stays barred, whatever one of the users does. -/
theorem Barred.evolves (hb : Barred users fs path) (hu : users u) (h : Evolves u fs fs') : Barred users fs' path := by
  have hroot := root_there hb.root
  have hlookups : fs'.lookups path = fs.lookups path := (walk_settled h hroot hroot (hb.settled hu h)).2
  refine ⟨?_, fun v hv l hl => ?_, fun l hl i hi => ?_⟩
  · rw [h.shape_there hb.root]
    exact hb.root
  · rw [hlookups] at hl
    have hinode := h.inode (tried_there hroot hroot l hl) (hb.unwritable u hu l hl)
    have hkept := hb.unwritable v hv l hl
    unfold Tree.writable at hkept ⊢
    rw [hinode]
    exact hkept
  · rw [hlookups] at hl
    rw [(hb.settled hu h l hl).1] at hi
    have hthere := hb.there l hl i hi
    rw [h.shape_there hthere]
    exact hthere

end FileSystem
