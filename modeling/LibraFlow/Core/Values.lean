import Mathlib

/-! Values shared by the whole domain model: points in time, the truth value of
optional identifiers, and the upper-casing of the words that select a format, a
role or a payment method. -/

set_option autoImplicit false

namespace LibraFlow.Core

/-- Number of microseconds in the years 1 to 9999, the range a datetime covers. -/
def datetimeRange : Nat := 3652059 * 86400 * 1000000

/-- A representable point in time, in microseconds from the start of year 1. -/
structure Datetime where
  micros : Nat
  representable : micros < datetimeRange
  deriving DecidableEq, Repr

namespace Datetime

def min : Datetime := ⟨0, by decide⟩

/-- Add a signed duration in microseconds. Outside the representable range the
addition raises an overflow error, here `none`. A duration that is itself out
of range overflows as well, and it never leads back into the range. -/
@[irreducible] def addMicros? (time : Datetime) (duration : Int) : Option Datetime :=
  if bound : (time.micros + duration).toNat < datetimeRange then
    if 0 ≤ (time.micros : Int) + duration then
      some ⟨(time.micros + duration).toNat, bound⟩
    else none
  else none

def addHours? (time : Datetime) (hours : Int) : Option Datetime :=
  time.addMicros? (hours * 3600 * 1000000)

def addDays? (time : Datetime) (days : Int) : Option Datetime :=
  time.addMicros? (days * 86400 * 1000000)

/-- The calendar day, counted from the first day of year 1. -/
def date (time : Datetime) : Nat := time.micros / (86400 * 1000000)

/-- The same point in time in seconds, as the cache reads the clock. -/
def timestamp (time : Datetime) : ℚ := (time.micros : ℚ) / 1000000

theorem timestamp_mono {earlier later : Datetime} (ordered : earlier.micros ≤ later.micros) :
    earlier.timestamp ≤ later.timestamp := by
  unfold timestamp
  gcongr

end Datetime

/-- An optional string counts as set when it is present and not empty. -/
def truthy : Option String → Bool
  | none => false
  | some text => text ≠ ""

@[simp] theorem truthy_none : truthy none = false := rfl

theorem truthy_some {text : String} (nonempty : text ≠ "") : truthy (some text) = true := by
  simp [truthy, nonempty]

/-- The upper case of one character. Besides the ASCII letters these are the
characters whose upper case is plain ASCII; any other upper case stays outside
ASCII and cannot complete a keyword, so such characters are left alone. -/
def upperChar (char : Char) : List Char :=
  match char with
  | 'ı' => ['I']
  | 'ſ' => ['S']
  | 'ß' => ['S', 'S']
  | 'ﬀ' => ['F', 'F']
  | 'ﬁ' => ['F', 'I']
  | 'ﬂ' => ['F', 'L']
  | 'ﬃ' => ['F', 'F', 'I']
  | 'ﬄ' => ['F', 'F', 'L']
  | 'ﬅ' => ['S', 'T']
  | 'ﬆ' => ['S', 'T']
  | other => [other.toUpper]

def upper (text : String) : String := String.ofList (text.toList.flatMap upperChar)

end LibraFlow.Core
