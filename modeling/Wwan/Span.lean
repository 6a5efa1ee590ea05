import Wwan.Bytes
import Wwan.Text.Blank
import Wwan.Text.Number

/-!
# Lengths of time

A span is a number of nanoseconds.  It is shown in the largest unit that it reaches, and a setting
gives it as a number of seconds or milliseconds.
-/

namespace Wwan

/-- A length of time. -/
structure Span where
  nanos : Nat
  deriving DecidableEq

namespace Span

/-- A span of `n` seconds. -/
def ofSeconds (n : Nat) : Span :=
  ⟨n * 1000000000⟩

/-- A span of `n` milliseconds. -/
def ofMillis (n : Nat) : Span :=
  ⟨n * 1000000⟩

/-- The whole seconds of a span. -/
def seconds (s : Span) : Nat :=
  s.nanos / 1000000000

/-- The whole milliseconds of a span. -/
def millis (s : Span) : Nat :=
  s.nanos / 1000000

/-- The decimal fraction whose digits, of which there are `places`, are those of `part`, without
trailing zeros; empty for zero. -/
def fraction (places part : Nat) : String :=
  let digits := (Text.padZeros places (toString part)).toList
  let kept := (digits.reverse.dropWhile (· = '0')).reverse
  if kept.isEmpty then "" else "." ++ String.ofList kept

/-- `n` nanoseconds in a unit of `size` nanoseconds, which is a one with `places` zeros. -/
def inUnit (n size places : Nat) (unit : String) : String :=
  toString (n / size) ++ fraction places (n % size) ++ unit

/-- A span in the largest of seconds, milliseconds, microseconds and nanoseconds that it reaches. -/
def text (s : Span) : String :=
  if s.nanos ≥ 1000000000 then inUnit s.nanos 1000000000 9 "s"
  else if s.nanos ≥ 1000000 then inUnit s.nanos 1000000 6 "ms"
  else if s.nanos ≥ 1000 then inUnit s.nanos 1000 3 "µs"
  else inUnit s.nanos 1 0 "ns"

/-- Why a setting is no length of time. -/
inductive ReadFailure where
  | blank
  /-- The setting, without the white space around it, is no number with a known unit. -/
  | notANumber (input : String)
  | zero

/-- The wording of a failure. -/
def ReadFailure.message : ReadFailure → String
  | .blank => "duration must not be empty"
  | .notANumber input => s!"invalid duration value: {input}"
  | .zero => "duration must be greater than zero"

/-- The number of a setting and its unit: milliseconds after `ms`, else seconds. -/
def splitUnit (cs : List Char) : List Char × (Nat → Span) :=
  match cs.reverse with
  | 's' :: 'm' :: number => (number.reverse, ofMillis)
  | 's' :: number => (number.reverse, ofSeconds)
  | _ => (cs, ofSeconds)

/-- Reads a setting: a positive 64-bit number with the unit `s`, `ms` or none for seconds. -/
def read (input : String) : Except ReadFailure Span :=
  let cs := Text.trimBlank input.toList
  if cs.isEmpty then .error .blank
  else
    let (number, unit) := splitUnit cs
    match Text.readUnsigned? 10 (Bytes.bound 8) number with
    | none => .error (.notANumber (String.ofList cs))
    | some 0 => .error .zero
    | some n => .ok (unit n)

end Span

end Wwan
