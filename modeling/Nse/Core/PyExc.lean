/-
  Nse.Core.PyExc — the exceptions of the engine, and the one conversion that raises.

  An exception is its class and what is read of it later: its text, the output of the
  command that failed, the errors of a rejected ruleset. `int` raises where the text is no
  number, and where the number has more digits than the interpreter reads.
-/

import Nse.Lib.PyStr

namespace Nse

inductive ExcClass where
  | calledProcessError
  | timeoutExpired
  | osError
  /-- `asyncio.TimeoutError`. -/
  | timeoutError
  | binaryNotFoundError
  | unsafeBinaryError
  | runtimeError
  | valueError
  | ruleValidationError
  | cancelledError
  /-- Any other subclass of `Exception`. -/
  | otherError
  deriving DecidableEq, Repr

/-- One entry of `_parse_nft_errors`: the keys of a located error, or a raw line. -/
inductive NftError where
  | located (line : Int) (columnRange level message : String) (context : List String)
  | raw (line : String) (context : List String)
  deriving DecidableEq, Repr

structure PyExc where
  cls : ExcClass
  /-- `str(exc)`. -/
  text : String
  stderr : String := ""
  /-- `exc.errors` of a `RuleValidationError`. -/
  errors : List NftError := []
  deriving DecidableEq, Repr

namespace PyExc

/-- Caught by `except Exception`. -/
def isException (e : PyExc) : Bool := e.cls != .cancelledError

def isOSError (e : PyExc) : Bool := e.cls == .osError || e.cls == .timeoutError || e.cls == .binaryNotFoundError

def isSubprocessError (e : PyExc) : Bool := e.cls == .calledProcessError || e.cls == .timeoutExpired

end PyExc

/-! ## Numbers -/

variable [U : PyStr.Unicode]

/-- `int(s)`. -/
def intOf (s : String) : Except PyExc Int :=
  match PyStr.int s with
  | some n =>
    if PyStr.withinLimit (PyStr.digitCount s) then .ok n
    else
      .error { cls := .valueError
               text := "Exceeds the limit (" ++ toString U.maxStrDigits ++
                 " digits) for integer string conversion: value has " ++
                 toString (PyStr.digitCount s) ++ " digits; use sys.set_int_max_str_digits() to increase the limit" }
  | none => .error { cls := .valueError, text := "invalid literal for int() with base 10: " ++ U.repr s }

theorem intOf_error {s : String} {e : PyExc} (h : intOf s = .error e) : e.cls = .valueError := by
  unfold intOf at h
  split at h
  · split at h <;> cases h
    rfl
  · cases h
    rfl

theorem intOf_eq {s : String} {n : Int} (hn : PyStr.int s = some n)
    (h : PyStr.withinLimit (PyStr.digitCount s) = true) :
    intOf s = .ok n := by
  unfold intOf
  rw [hn]
  exact if_pos h

theorem intOf_toString {n : Nat} (h : PyStr.withinLimit (PyStr.digitCount (toString n)) = true) :
    intOf (toString n) = .ok (n : Int) :=
  intOf_eq (PyStr.int_toString n) h

theorem intOf_printed {n : Nat} {m : Int} (h : intOf (toString n) = .ok m) : m = n := by
  unfold intOf at h
  rw [PyStr.int_toString] at h
  dsimp only at h
  split at h
  · exact (Except.ok.inj h).symm
  · cases h

/-- A number of too many digits is refused, whatever its value. -/
theorem intOf_overlong {s : String} (h : PyStr.withinLimit (PyStr.digitCount s) = false) :
    ∃ exc, intOf s = .error exc := by
  unfold intOf
  cases PyStr.int s with
  | none => exact ⟨_, rfl⟩
  | some n => exact ⟨_, if_neg (by rw [h]; decide)⟩

end Nse
