import FrameCache.Instant
import FrameCache.Text.Blank

/-!
# Durations as text

A duration is written as a run of terms such as `1m30s` or `1.5h`: a decimal number, with
at most one point, followed by one of the units `ns`, `us`, `ms`, `s`, `m`, `h`.  Blanks
around the text and one leading plus sign are ignored, and a bare `0` needs no unit.

`Duration.parse` reads such a text.  `Duration.splitTerms` cuts it into terms, each a run
of digits and points followed by a run of other characters, `Term.nanos` gives the value
of one term, and `sumTerms` adds the terms up.  Whole numbers and sums are limited to
words of 128 bits and the result to the horizon of a clock.
-/

namespace FrameCache.Duration

/-- Why a text is not a duration. -/
inductive Fault where
  /-- There is nothing but blanks. -/
  | empty
  /-- The text starts with a minus sign. -/
  | negative
  /-- A term has no digit, more than one point, or more digits than a word holds. -/
  | invalidNumber
  /-- The text ends where a unit is expected. -/
  | missingUnit
  /-- A number is followed by something that is not a unit. -/
  | unknownUnit (unit : String)
  /-- The value is too long. -/
  | overflow
deriving DecidableEq

/-- A text that is not a duration, with the reason. -/
structure TextError where
  /-- The reason. -/
  fault : Fault
  /-- The whole text as it was given. -/
  input : String
deriving DecidableEq

/-- The wording of an error. -/
def TextError.message (e : TextError) : String :=
  match e.fault with
  | .empty => "empty duration"
  | .negative => "negative duration `" ++ e.input ++ "`"
  | .invalidNumber => "invalid number in duration `" ++ e.input ++ "`"
  | .missingUnit => "missing unit in duration `" ++ e.input ++ "`"
  | .unknownUnit unit => "unknown unit `" ++ unit ++ "` in duration `" ++ e.input ++ "`"
  | .overflow => "duration `" ++ e.input ++ "` is out of range"

/-- The number of values of a word of 128 bits. -/
def wordSize : Nat := 1 <<< 128

/-- The characters of numbers: the ASCII digits and the point. -/
def isNumeric (c : Char) : Bool := c.isDigit || c == '.'

/-- The nanoseconds in one of the unit that `cs` spells.  Both the micro sign and the
Greek letter mu spell the prefix of microseconds. -/
def unitNanos? (cs : List Char) : Option Nat :=
  match cs with
  | ['n', 's'] => some 1
  | ['u', 's'] => some 1000
  | ['µ', 's'] => some 1000
  | ['μ', 's'] => some 1000
  | ['m', 's'] => some 1000000
  | ['s'] => some 1000000000
  | ['m'] => some 60000000000
  | ['h'] => some 3600000000000
  | _ => none

/-- The value of a run of digits, most significant first. -/
def digitsValue (cs : List Char) : Nat :=
  cs.foldl (fun n c => 10 * n + (c.toNat - '0'.toNat)) 0

/-- One term of a duration: a number and the unit that follows it. -/
structure Term where
  /-- The digits and points of the number. -/
  number : List Char
  /-- The characters up to the next number. -/
  unit : List Char
deriving DecidableEq

/-- A text cut into terms.  Only the first number and the last unit can be empty. -/
def splitTerms : List Char → List Term
  | [] => []
  | c :: cs =>
    match splitTerms cs with
    | [] => if isNumeric c then [⟨[c], []⟩] else [⟨[], [c]⟩]
    | t :: ts =>
      if isNumeric c then ⟨c :: t.number, t.unit⟩ :: ts
      else if t.number.isEmpty then ⟨[], c :: t.unit⟩ :: ts
      else ⟨[], [c]⟩ :: t :: ts

/-- The nanoseconds of the digits after the point, the first of them worth a tenth of
`place`.  Digits below a nanosecond are dropped. -/
def fractionNanos (place : Nat) : List Char → Nat
  | [] => 0
  | c :: cs =>
    if place / 10 = 0 then 0
    else (c.toNat - '0'.toNat) * (place / 10) + fractionNanos (place / 10) cs

/-- A number has at least one digit and at most one point. -/
def isNumber (cs : List Char) : Bool :=
  cs.any Char.isDigit && cs.count '.' ≤ 1

/-- The nanoseconds of one term, rounded down.  The fraction is added to the whole part
in words of 128 bits. -/
def Term.nanos (t : Term) : Except Fault Nat :=
  if !isNumber t.number then .error .invalidNumber
  else if t.unit.isEmpty then .error .missingUnit
  else
    match unitNanos? t.unit with
    | none => .error (.unknownUnit (String.ofList t.unit))
    | some scale =>
      let whole := digitsValue (t.number.takeWhile Char.isDigit)
      let fraction := (t.number.dropWhile Char.isDigit).drop 1
      if wordSize ≤ whole then .error .invalidNumber
      else if wordSize ≤ whole * scale then .error .overflow
      else .ok ((whole * scale + fractionNanos scale fraction) % wordSize)

/-- The sum of `total` and the terms, which stays within a word of 128 bits. -/
def sumTerms (total : Nat) : List Term → Except Fault Nat
  | [] => .ok total
  | t :: ts =>
    match t.nanos with
    | .error fault => .error fault
    | .ok n => if wordSize ≤ total + n then .error .overflow else sumTerms (total + n) ts

/-- The duration that `cs`, a text without sign and outer blanks, spells. -/
def parseUnsigned (cs : List Char) : Except Fault Duration :=
  if cs = ['0'] then .ok .zero
  else if cs.isEmpty then .error .invalidNumber
  else
    match sumTerms 0 (splitTerms cs) with
    | .error fault => .error fault
    | .ok n => if horizon < n then .error .overflow else .ok ⟨n⟩

/-- The duration that `cs`, a text without outer blanks, spells. -/
def parseSigned : List Char → Except Fault Duration
  | [] => .error .empty
  | '-' :: _ => .error .negative
  | '+' :: cs => parseUnsigned cs
  | cs => parseUnsigned cs

/-- The duration that a text spells. -/
def parse (input : String) : Except TextError Duration :=
  (parseSigned (Text.trim input.toList)).mapError (⟨·, input⟩)

end FrameCache.Duration
