import SdkWiring.Text.Number
import SdkWiring.Toml.Value

/-!
# TOML numbers, booleans and dates

Values that are written without quotes: a run of characters that must be a number, a boolean, or a
date or time.

* `scalar?`: the value that such a run is.
* `isTimeOfDay`: whether a run can follow a date behind a space.
-/

namespace SdkWiring.Toml

/-- Whether a character is a digit of a base. -/
def isDigitOf (base : Nat) (c : Char) : Bool := (Text.digit? c).any (· < base)

/-- Whether a character is a decimal digit. -/
def isDecimal : Char → Bool := isDigitOf 10

/-- Whether a text is digits with at most single underscores between them. -/
def isDigitRun (base : Nat) : Text → Bool
  | [] => false
  | [c] => isDigitOf base c
  | c :: '_' :: rest => isDigitOf base c && isDigitRun base rest
  | c :: rest => isDigitOf base c && isDigitRun base rest

/-- The number that digits write, underscores not counting. -/
def valueOf (base : Nat) (digits : Text) : Nat :=
  digits.foldl (fun n c => match Text.digit? c with | some d => n * base + d | none => n) 0

/-- Whether a text is a decimal digit run without a zero in front of other digits. -/
def isPlainRun (t : Text) : Bool :=
  isDigitRun 10 t && (t.length == 1 || t.head? != some '0')

/-- The greatest whole number that is read. -/
def greatest : Nat := Nat.pow 2 128 - 1

/-- The greatest whole number that is read behind a minus sign. -/
def greatestNegated : Nat := Nat.pow 2 127

/-- A text behind its sign, and whether that is a minus sign. -/
def unsigned : Text → Bool × Text
  | '-' :: rest => (true, rest)
  | '+' :: rest => (false, rest)
  | t => (false, t)

/-- Whether the whole number that a decimal text writes is in range. -/
def whole? (t : Text) : Option Bool :=
  let (negative, digits) := unsigned t
  if isPlainRun digits then
    some (valueOf 10 digits ≤ (if negative then greatestNegated else greatest))
  else none

/-- Whether the whole number that a text writes behind the mark of a base is in range. A mark alone
is a number too, but never in range. -/
def based? (t : Text) : Option Bool :=
  let inRange? (base : Nat) (digits : Text) : Option Bool :=
    if digits.isEmpty then some false
    else if isDigitRun base digits then some (valueOf base digits ≤ greatest)
    else none
  match t with
  | '0' :: 'x' :: digits => inRange? 16 digits
  | '0' :: 'o' :: digits => inRange? 8 digits
  | '0' :: 'b' :: digits => inRange? 2 digits
  | _ => none

/-- The parts of a text before and behind the first character of a class. -/
def cutAt (f : Char → Bool) (t : Text) : Text × Option Text :=
  match t.dropWhile (!f ·) with
  | [] => (t, none)
  | _ :: rest => (t.takeWhile (!f ·), some rest)

/-- The least number that is too large for a double: halfway from the greatest double to the next
power of two. -/
def doubleLimit : Nat := Nat.pow 2 1024 - Nat.pow 2 970

/-- Whether `mantissa` times ten to the `exponent` is small enough for a double. -/
def fitsDouble (mantissa : Nat) (exponent : Int) : Bool :=
  if mantissa = 0 then true
  else
    let magnitude : Int := (Nat.toDigits 10 mantissa).length + exponent
    if magnitude > 400 then false
    else if magnitude < 300 then true
    else if exponent < 0 then mantissa < doubleLimit * Nat.pow 10 (-exponent).toNat
    else mantissa * Nat.pow 10 exponent.toNat < doubleLimit

/-- The exponent that a text writes. -/
def exponent? (t : Text) : Option Int :=
  let (negative, digits) := unsigned t
  if isDigitRun 10 digits then
    some (if negative then -(valueOf 10 digits : Int) else valueOf 10 digits)
  else none

/-- Whether a double can hold the decimal fraction that a text writes. -/
def fraction? (t : Text) : Option Bool :=
  let (_, body) := unsigned t
  let (mantissa, exponent) := cutAt (fun c => c == 'e' || c == 'E') body
  let (whole, places) := cutAt (· == '.') mantissa
  let digits := whole ++ places.getD []
  let shift : Int := ((places.getD []).filter isDecimal).length
  if isPlainRun whole && places.all (isDigitRun 10) && (places.isSome || exponent.isSome) then
    match exponent with
    | none => some (fitsDouble (valueOf 10 digits) (-shift))
    | some e => (exponent? e).map fun n => fitsDouble (valueOf 10 digits) (n - shift)
  else none

/-- Whether a text names infinity or the value that is no number. -/
def isSpecial (t : Text) : Bool :=
  (unsigned t).2 ∈ ["inf".toList, "nan".toList]

/-- Whether the number of any kind that a text writes is in range. -/
def number? (t : Text) : Option Bool :=
  if isSpecial t then some true
  else
    match whole? t, based? t with
    | some inRange, _ => some inRange
    | none, some inRange => some inRange
    | none, none => fraction? t

/-- The number that a text of as many decimal digits writes. -/
def fixed? (width : Nat) (t : Text) : Option Nat :=
  if t.length = width ∧ t.all isDecimal then some (valueOf 10 t) else none

/-- The number of days of a month. -/
def daysOf (year month : Nat) : Nat :=
  if month = 2 then
    if year % 4 = 0 ∧ (year % 100 ≠ 0 ∨ year % 400 = 0) then 29 else 28
  else if month = 4 ∨ month = 6 ∨ month = 9 ∨ month = 11 then 30
  else 31

/-- Whether a text is a day of the calendar. -/
def isDay (t : Text) : Bool :=
  match t with
  | [a, b, c, d, '-', e, f, '-', g, h] =>
    match fixed? 4 [a, b, c, d], fixed? 2 [e, f], fixed? 2 [g, h] with
    | some year, some month, some day =>
      1 ≤ month && month ≤ 12 && 1 ≤ day && day ≤ daysOf year month
    | _, _, _ => false
  | _ => false

/-- Whether a text is two digits that do not exceed a number. -/
def isUpTo (most : Nat) (t : Text) : Bool := (fixed? 2 t).any (· ≤ most)

/-- Whether a text is a time of day. Seconds and their fractions may be left out. -/
def isClock (t : Text) : Bool :=
  match t with
  | a :: b :: ':' :: c :: d :: rest =>
    isUpTo 23 [a, b] && isUpTo 59 [c, d]
      && match rest with
        | [] => true
        | ':' :: e :: f :: [] => isUpTo 60 [e, f]
        | ':' :: e :: f :: '.' :: places =>
          isUpTo 60 [e, f] && !places.isEmpty && places.all isDecimal
        | _ => false
  | _ => false

/-- Whether a text is a time of day, with an offset if it has one. -/
def isTimeOfDay (t : Text) : Bool :=
  let (clock, offset) := cutAt (fun c => c == '+' || c == '-') t
  match offset with
  | some [a, b, ':', c, d] => isClock clock && isUpTo 23 [a, b] && isUpTo 59 [c, d]
  | some _ => false
  | none =>
    match t.getLast? with
    | some 'Z' => isClock t.dropLast
    | some 'z' => isClock t.dropLast
    | _ => isClock t

/-- Whether a text is a day, a time of day, or both with a `T` between them. -/
def isDateTime (t : Text) : Bool :=
  isDay t || isClock t
    || (isDay (t.take 10) && ((t[10]? == some 'T') || (t[10]? == some 't'))
      && isTimeOfDay (t.drop 11))

/-- The value that a run of characters without quotes is. -/
def scalar? (t : Text) : Option Value :=
  if t = "true".toList then some (.boolean true)
  else if t = "false".toList then some (.boolean false)
  else
    match number? t with
    | some inRange => some (.number inRange)
    | none => if isDateTime t then some .dateTime else none

end SdkWiring.Toml
