import Scenario.Binary64.Basic

/-!
# Decimal text of binary64 numbers

* `Finite.shortest` picks, among the decimal numbers that read back as the given number, one with
  the fewest digits, and of those the nearest one.
* Three styles write it: `exponentStyle` (the form of JSON texts), `plainStyle` (never an exponent)
  and `fixedStyle` (a given number of places, ties to even).
* `ofDecimal` rounds a decimal number to the nearest binary64 number, and `ofText?` reads a text.
-/

namespace Scenario

namespace Binary64

/-! ### The fewest digits that read back -/

/-- The decimal number `digits · 10^exponent`. -/
structure Decimal where
  digits : Nat
  exponent : Int
deriving DecidableEq, Repr

/-- A positive ratio together with the ends of the interval that rounds to it, over one common
denominator. -/
structure Interval where
  low : Nat
  mid : Nat
  high : Nat
  den : Nat
  /-- Whether the ends themselves round to the number. -/
  closed : Bool

/-- The interval of a nonzero number: half a unit to each side, but a quarter unit below a power of
two, where the numbers lie twice as close. -/
def Finite.interval (x : Finite) : Interval :=
  let m := x.significand
  let atPower := m = 2 ^ 52 && decide (-1074 < x.exponent)
  let low := if atPower then 4 * m - 1 else 4 * m - 2
  let up := 2 ^ (x.exponent - 2).toNat
  let down := 2 ^ (2 - x.exponent).toNat
  ⟨low * up, 4 * m * up, (4 * m + 2) * up, down, m % 2 = 0⟩

/-- Whether `n / d` lies in the interval. -/
def Interval.holds (i : Interval) (n d : Nat) : Bool :=
  if i.closed then i.low * d ≤ n * i.den && n * i.den ≤ i.high * d
  else i.low * d < n * i.den && n * i.den < i.high * d

/-- The multiple of `10^place` that lies in the interval nearest to its middle, of two equally near
the even one. -/
def Interval.onGrid? (i : Interval) (place : Int) : Option Nat :=
  let up := 10 ^ place.toNat
  let down := 10 ^ (-place).toNat
  let below := i.mid * down / (i.den * up)
  let above := below + 1
  let twiceMid := 2 * i.mid * down
  let twiceHalf := (below + above) * (i.den * up)
  let preferBelow := twiceMid < twiceHalf || (twiceMid = twiceHalf && below % 2 = 0)
  let fits (n : Nat) := n ≠ 0 && i.holds (n * up) down
  if preferBelow then
    if fits below then some below else if fits above then some above else none
  else
    if fits above then some above else if fits below then some below else none

/-- The position of the leading decimal digit: `e` with `10^e ≤ mid/den < 10^(e+1)`. -/
def Interval.leadingPlace (i : Interval) : Int :=
  let scale : Int := (Nat.log2 i.mid : Int) - Nat.log2 i.den
  let guess : Int := (scale * 30103).fdiv 100000 - 1
  let reaches (e : Int) : Bool := 10 ^ e.toNat * i.den ≤ i.mid * 10 ^ (-e).toNat
  if reaches (guess + 2) then guess + 2 else if reaches (guess + 1) then guess + 1 else guess

/-- Tries the grids of `count`, `count + 1`, … digits. -/
def Interval.searchGrids (i : Interval) (leading : Int) (count : Nat) : Nat → Decimal
  | 0 => ⟨i.mid / i.den, 0⟩
  | more + 1 =>
    let place := leading - count + 1
    match i.onGrid? place with
    | some digits => ⟨digits, place⟩
    | none => i.searchGrids leading (count + 1) more

/-- Strips zeros at the end of the digits, at most `limit` of them. -/
def Decimal.stripZeros (d : Decimal) : Nat → Decimal
  | 0 => d
  | limit + 1 =>
    if d.digits ≠ 0 && d.digits % 10 = 0 then
      Decimal.stripZeros ⟨d.digits / 10, d.exponent + 1⟩ limit
    else d

/-- **The fewest digits that read back** as the number; seventeen always do. -/
def Finite.shortest (x : Finite) : Decimal :=
  if x.significand = 0 then ⟨0, 0⟩
  else
    let i := x.interval
    (i.searchGrids i.leadingPlace 1 18).stripZeros 18

/-! ### Writing -/

/-- The decimal digits of a natural number. -/
def digitsOf (n : Nat) : String := String.ofList (Nat.toDigits 10 n)

/-- `n` zeros. -/
def zeros (n : Nat) : String := String.ofList (List.replicate n '0')

/-- `digits · 10^exponent` without an exponent and without a point that nothing follows. -/
def Decimal.plain (d : Decimal) : String :=
  let digits := digitsOf d.digits
  if d.digits = 0 then "0"
  else if 0 ≤ d.exponent then digits ++ zeros d.exponent.toNat
  else
    let places := (-d.exponent).toNat
    if places < digits.length then
      (digits.take (digits.length - places)).toString ++ "." ++
        (digits.drop (digits.length - places)).toString
    else "0." ++ zeros (places - digits.length) ++ digits

/-- The digits with a point after the first and a decimal exponent; `plus` is the sign of an exponent
that is not negative. -/
def Decimal.scientific (plus : String) (d : Decimal) : String :=
  let digits := digitsOf d.digits
  let exponent : Int := d.exponent + digits.length - 1
  let mantissa :=
    if digits.length ≤ 1 then digits
    else (digits.take 1).toString ++ "." ++ (digits.drop 1).toString
  mantissa ++ "e" ++ (if exponent < 0 then "" else plus) ++ toString exponent

/-- The positional form from `1e-5` up to just below `1e16`, with a point that shows that the number
is no integer (`1.0`), and the form with an exponent elsewhere; `plus` is the sign of an exponent
that is not negative. -/
def Finite.pointStyle (plus : String) (x : Finite) : String :=
  let d := x.shortest
  let sign := if x.negative then "-" else ""
  if d.digits = 0 then sign ++ "0.0"
  else
    let point : Int := d.exponent + (digitsOf d.digits).length
    if 0 ≤ d.exponent && point ≤ 16 then sign ++ d.plain ++ ".0"
    else if d.exponent < 0 && -5 < point && point ≤ 16 then sign ++ d.plain
    else sign ++ d.scientific plus

/-- **The form of JSON texts.** -/
def Finite.exponentStyle (x : Finite) : String := x.pointStyle "+"

/-- **The plain form.** All digits are written out, an integer without a point. -/
def plainStyle : Binary64 → String
  | .finite x => (if x.negative then "-" else "") ++ x.shortest.plain
  | .infinity negative => if negative then "-inf" else "inf"
  | .nan => "NaN"

/-- **The scientific form** `1.5e300`. -/
def scientificStyle : Binary64 → String
  | .finite x => (if x.negative then "-" else "") ++ x.shortest.scientific ""
  | .infinity negative => if negative then "-inf" else "inf"
  | .nan => "NaN"

/-- `num / den` with exactly `places` digits after the point, ties to even. -/
def fixedPlaces (num den places : Nat) : String :=
  let digits := digitsOf (roundHalfEven (num * 10 ^ places) den)
  let padded := zeros (places + 1 - digits.length) ++ digits
  if places = 0 then padded
  else
    (padded.take (padded.length - places)).toString ++ "." ++
      (padded.drop (padded.length - places)).toString

/-- **The fixed form** with `places` digits after the point. -/
def fixedStyle (places : Nat) : Binary64 → String
  | .finite x => (if x.negative then "-" else "") ++ fixedPlaces x.magnitude (2 ^ 1074) places
  | .infinity negative => if negative then "-inf" else "inf"
  | .nan => "NaN"

/-! ### Reading -/

/-- The nearest number to `± digits · 10^exponent`. Exponents far outside the range are decided
without forming the power. -/
def ofDecimal (negative : Bool) (d : Decimal) : Binary64 :=
  let point : Int := d.exponent + (digitsOf d.digits).length
  if d.digits = 0 then zero negative
  else if 320 < point then .infinity negative
  else if point < -340 then zero negative
  else round negative (d.digits * 10 ^ d.exponent.toNat) (10 ^ (-d.exponent).toNat)

/-- Splits off the leading decimal digits. -/
def takeDigits (text : List Char) : List Char × List Char :=
  text.span Char.isDigit

/-- The number that decimal digits spell. -/
def valueOfDigits (digits : List Char) : Nat :=
  digits.foldl (fun n c => 10 * n + (c.toNat - 48)) 0

/-- The exponent part `e±digits` of a decimal text, all of it or nothing. -/
def exponentPart? : List Char → Option Int
  | [] => some 0
  | c :: rest =>
    if c = 'e' || c = 'E' then
      let (negative, digits) :=
        match rest with
        | '-' :: more => (true, more)
        | '+' :: more => (false, more)
        | more => (false, more)
      if digits.isEmpty || !digits.all Char.isDigit then none
      else some (if negative then -(valueOfDigits digits : Int) else valueOfDigits digits)
    else none

/-- An unsigned decimal text: digits with at most one point, at least one digit, then an optional
exponent. -/
def unsignedDecimal? (text : List Char) : Option Decimal :=
  let (whole, rest) := takeDigits text
  let (fraction, rest) :=
    match rest with
    | '.' :: more => takeDigits more
    | other => ([], other)
  if whole.isEmpty && fraction.isEmpty then none
  else (exponentPart? rest).map fun e => ⟨valueOfDigits (whole ++ fraction), e - fraction.length⟩

/-- **Reading a number.** An optional sign, then a decimal text or, in any letter case, one of the
words `inf`, `infinity`, `nan`. -/
def ofText? (text : String) : Option Binary64 :=
  let (negative, body) :=
    match text.toList with
    | '-' :: rest => (true, rest)
    | '+' :: rest => (false, rest)
    | rest => (false, rest)
  let word := String.ofList (body.map Char.toLower)
  if word = "inf" || word = "infinity" then some (.infinity negative)
  else if word = "nan" then some .nan
  else (unsignedDecimal? body).map (ofDecimal negative)

end Binary64

end Scenario
