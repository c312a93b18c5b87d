/-
  Nse.Lib.PyValue — the values a YAML or JSON document loads to, and Python's `str`,
  `repr`, truth and order on them.
-/

import Nse.Lib.PyStr

namespace Nse

inductive PyFloat where
  | finite (value : Rat)
  | posInf
  | negInf
  | nan
  deriving DecidableEq, Repr

/-- Dates do not compare with datetimes, nor naive datetimes with aware ones. -/
inductive StampKind where
  | date
  | naive
  | aware
  deriving DecidableEq, Repr

inductive PyValue where
  | none
  | bool (b : Bool)
  | int (n : Int)
  | float (value : PyFloat) (text : String)
  | str (s : String)
  /-- A date or a datetime: its position in time, its `str` and its `repr`. -/
  | stamp (kind : StampKind) (key : Int) (text repr : String)
  | list (xs : List PyValue)
  | dict (items : List (PyValue × PyValue))

namespace PyValue

variable [U : PyStr.Unicode]

mutual

def repr : PyValue → String
  | .none => "None"
  | .bool b => if b then "True" else "False"
  | .int n => toString n
  | .float _ text => text
  | .str s => U.repr s
  | .stamp _ _ _ r => r
  | .list xs => "[" ++ PyStr.join ", " (reprs xs) ++ "]"
  | .dict items => "\x7b" ++ PyStr.join ", " (reprItems items) ++ "\x7d"

def reprs : List PyValue → List String
  | [] => []
  | x :: xs => repr x :: reprs xs

def reprItems : List (PyValue × PyValue) → List String
  | [] => []
  | (k, v) :: items => (repr k ++ ": " ++ repr v) :: reprItems items

end

mutual

/-- `str` and `repr` can write every number in the value. -/
def printable : PyValue → Bool
  | .int n => PyStr.withinLimit (Nat.toDigits 10 n.natAbs).length
  | .list xs => printables xs
  | .dict items => printableItems items
  | _ => true

def printables : List PyValue → Bool
  | [] => true
  | x :: xs => printable x && printables xs

def printableItems : List (PyValue × PyValue) → Bool
  | [] => true
  | (k, v) :: items => printable k && printable v && printableItems items

end

/-- `str(value)`. -/
def toStr : PyValue → String
  | .str s => s
  | .stamp _ _ text _ => text
  | v => v.repr

omit U

/-- `bool(value)`. -/
def truthy : PyValue → Bool
  | .none => false
  | .bool b => b
  | .int n => n != 0
  | .float v _ => v != .finite 0
  | .str s => s != ""
  | .stamp .. => true
  | .list xs => !xs.isEmpty
  | .dict items => !items.isEmpty

/-- The number a value counts as. -/
def number : PyValue → Option PyFloat
  | .bool b => some (.finite (if b then 1 else 0))
  | .int n => some (.finite n)
  | .float v _ => some v
  | _ => Option.none

def ltFloat : PyFloat → PyFloat → Bool
  | .finite a, .finite b => a < b
  | .finite _, .posInf => true
  | .negInf, .finite _ => true
  | .negInf, .posInf => true
  | _, _ => false

/-- `a < b`; `none` where it raises `TypeError`. Lists and mappings are no keys. -/
def lt : PyValue → PyValue → Option Bool
  | .str a, .str b => some (a < b)
  | .stamp k a _ _, .stamp k' b _ _ => if k = k' then some (a < b) else Option.none
  | a, b =>
    match a.number, b.number with
    | some x, some y => some (ltFloat x y)
    | _, _ => Option.none

def insertKey (a : PyValue) : List PyValue → Option (List PyValue)
  | [] => some [a]
  | b :: bs => (lt b a).bind fun less => if less then (insertKey a bs).map (b :: ·) else some (a :: b :: bs)

/-- `sorted(keys)`; `none` where it raises `TypeError`. -/
def sorted : List PyValue → Option (List PyValue)
  | [] => some []
  | a :: as => (sorted as).bind (insertKey a)

/-- `items.get(key)`, for a key that is a string. -/
def lookup (key : String) (items : List (PyValue × PyValue)) : Option PyValue :=
  (items.find? fun kv => match kv.1 with | .str s => s == key | _ => false).map (·.2)

def get (items : List (PyValue × PyValue)) (key : String) (default : PyValue) : PyValue :=
  (lookup key items).getD default

/-- `set(items) - keys`. -/
def unknownKeys (keys : List String) (items : List (PyValue × PyValue)) : List PyValue :=
  (items.map (·.1)).filter fun k => match k with | .str s => !keys.contains s | _ => true

/-! ## Sorting -/

inductive Kind where
  | text
  | stamp (kind : StampKind)
  | number
  deriving DecidableEq

/-- What a value compares with. -/
def kind : PyValue → Option Kind
  | .bool _ | .int _ | .float _ _ => some .number
  | .str _ => some .text
  | .stamp k _ _ _ => some (.stamp k)
  | .none | .list _ | .dict _ => Option.none

/-- `a < b` does not raise. -/
def Comparable (a b : PyValue) : Prop := (lt a b).isSome = true

theorem comparable_iff {a b : PyValue} : Comparable a b ↔ ∃ k, a.kind = some k ∧ b.kind = some k := by
  unfold Comparable
  cases a <;> cases b <;> simp [lt, kind, number]
  exact eq_comm

theorem Comparable.symm {a b : PyValue} (h : Comparable a b) : Comparable b a := by
  obtain ⟨k, ha, hb⟩ := comparable_iff.mp h
  exact comparable_iff.mpr ⟨k, hb, ha⟩

theorem Comparable.trans {a b c : PyValue} (h : Comparable a b) (h' : Comparable b c) : Comparable a c := by
  obtain ⟨k, ha, hb⟩ := comparable_iff.mp h
  obtain ⟨k', hb', hc⟩ := comparable_iff.mp h'
  cases hb.symm.trans hb'
  exact comparable_iff.mpr ⟨k, ha, hc⟩

theorem insertKey_perm {a : PyValue} : ∀ {bs cs : List PyValue}, insertKey a bs = some cs → cs.Perm (a :: bs)
  | [], cs, h => by
    cases h
    exact .refl _
  | b :: bs, cs, h => by
    obtain ⟨less, -, h⟩ := Option.bind_eq_some_iff.mp h
    cases less with
    | true =>
      obtain ⟨ds, hds, rfl⟩ := Option.map_eq_some_iff.mp h
      exact ((insertKey_perm hds).cons b).trans (.swap a b bs)
    | false =>
      cases h
      exact .refl _

theorem insertKey_isSome {a : PyValue} : ∀ {bs : List PyValue}, (∀ b ∈ bs, Comparable a b) →
    (insertKey a bs).isSome = true
  | [], _ => rfl
  | b :: bs, h => by
    obtain ⟨less, hless⟩ := Option.isSome_iff_exists.mp (h b List.mem_cons_self).symm
    have hrest := insertKey_isSome fun c hc => h c (List.mem_cons_of_mem b hc)
    unfold insertKey
    rw [hless]
    cases less with
    | true => simpa using hrest
    | false => rfl

theorem sorted_perm : ∀ {as bs : List PyValue}, sorted as = some bs → bs.Perm as
  | [], bs, h => by
    cases h
    exact .refl _
  | a :: as, bs, h => by
    obtain ⟨cs, hcs, h⟩ := Option.bind_eq_some_iff.mp h
    exact (insertKey_perm h).trans ((sorted_perm hcs).cons a)

/-- `sorted` raises nothing exactly where every two of the keys compare. -/
theorem sorted_isSome_iff {as : List PyValue} : (sorted as).isSome = true ↔ as.Pairwise Comparable := by
  induction as with
  | nil => simp [sorted]
  | cons a as ih =>
    rw [List.pairwise_cons, ← ih]
    constructor
    · intro h
      obtain ⟨bs, h⟩ := Option.isSome_iff_exists.mp h
      obtain ⟨cs, hcs, hins⟩ := Option.bind_eq_some_iff.mp h
      have hsome : (sorted as).isSome = true := by simp [hcs]
      have hperm := sorted_perm hcs
      have hpair : cs.Pairwise Comparable := (hperm.pairwise_iff fun h => h.symm).mpr (ih.mp hsome)
      refine ⟨?_, hsome⟩
      intro x hx
      have hx := hperm.mem_iff.mpr hx
      cases cs with
      | nil => cases hx
      | cons c cs =>
        -- the insertion has compared `a` with the least of the others
        obtain ⟨less, hless, -⟩ := Option.bind_eq_some_iff.mp hins
        have hac : Comparable a c := Comparable.symm (by simp [Comparable, hless])
        rcases List.mem_cons.mp hx with rfl | hx
        · exact hac
        · exact hac.trans ((List.pairwise_cons.mp hpair).1 x hx)
    · intro ⟨ha, has⟩
      obtain ⟨cs, hcs⟩ := Option.isSome_iff_exists.mp has
      show ((sorted as).bind (insertKey a)).isSome = true
      rw [hcs]
      exact insertKey_isSome fun c hc => ha c ((sorted_perm hcs).mem_iff.mp hc)

theorem printables_iff [PyStr.Unicode] : ∀ {xs : List PyValue}, printables xs = true ↔ ∀ x ∈ xs, x.printable = true
  | [] => by simp [printables]
  | x :: xs => by simp [printables, @printables_iff _ xs]

/-! ## Lookups -/

def scalar : PyValue → Bool
  | .list _ | .dict _ => false
  | _ => true

mutual

/-- Every key of every mapping in the value is a scalar, as the loaders leave it. -/
def scalarKeys : PyValue → Bool
  | .list xs => scalarKeysAll xs
  | .dict items => scalarKeysItems items
  | _ => true

def scalarKeysAll : List PyValue → Bool
  | [] => true
  | x :: xs => scalarKeys x && scalarKeysAll xs

def scalarKeysItems : List (PyValue × PyValue) → Bool
  | [] => true
  | (k, v) :: items => scalar k && scalarKeys v && scalarKeysItems items

end

theorem scalarKeysItems_iff : ∀ {items : List (PyValue × PyValue)},
    scalarKeysItems items = true ↔ ∀ kv ∈ items, scalar kv.1 = true ∧ scalarKeys kv.2 = true
  | [] => by simp [scalarKeysItems]
  | (k, v) :: items => by simp [scalarKeysItems, @scalarKeysItems_iff items, and_assoc]

theorem lookup_mem {key : String} {items : List (PyValue × PyValue)} {v : PyValue} (h : lookup key items = some v) :
    ∃ k, (k, v) ∈ items := by
  obtain ⟨⟨k, w⟩, hfind, rfl⟩ := Option.map_eq_some_iff.mp h
  exact ⟨k, List.mem_of_find?_eq_some hfind⟩

theorem get_eq {key : String} {items : List (PyValue × PyValue)} {v d : PyValue} (h : lookup key items = some v) :
    get items key d = v := by
  simp [get, h]

theorem get_default {key : String} {items : List (PyValue × PyValue)} {d : PyValue}
    (h : lookup key items = Option.none) :
    get items key d = d := by
  simp [get, h]

end PyValue

end Nse
