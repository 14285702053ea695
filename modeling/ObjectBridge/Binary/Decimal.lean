import ObjectBridge.Binary.Real

/-!
# Shortest decimal text

The decimal text of a real number has the fewest digits that read back as the same number, and of
those the digits nearest to it.  The search runs over the numbers of digits; on each decimal grid
only the two neighbours of the number can lie in the interval of reals that round to it.
-/

namespace ObjectBridge
namespace Binary

/-- The open or closed interval of reals that round to a number, and the number itself, all in
units of `2 ^ exponent`. -/
structure RoundingInterval where
  /-- Lower end. -/
  low : Nat
  /-- The number. -/
  middle : Nat
  /-- Upper end. -/
  high : Nat
  /-- The unit, as a power of two. -/
  exponent : Int
  /-- Whether the ends round to the number as well. -/
  closed : Bool

/-- The interval of a positive number.  The lower end is nearer where the significand is the least
of its exponent, because the numbers below lie twice as close. -/
def Layout.interval (l : Layout) (significand : Nat) (exponent : Int) : RoundingInterval :=
  let narrow := significand = l.fractions && l.leastExponent < exponent
  { low := if narrow then 4 * significand - 1 else 4 * significand - 2
    middle := 4 * significand
    high := 4 * significand + 2
    exponent := exponent - 2
    closed := significand % 2 = 0 }

/-- A positive decimal number `digits * 10 ^ exponent`. -/
structure Decimal where
  /-- The digits, as one integer. -/
  digits : Nat
  /-- The weight of the last digit, as a power of ten. -/
  exponent : Int
  deriving DecidableEq, Repr

/-- The number `n * 2 ^ twos / 10 ^ tens` as a numerator and a denominator. -/
def gridRatio (n : Nat) (twos tens : Int) : Nat × Nat :=
  let (numerator, denominator) :=
    match twos with
    | .ofNat e => (n * Nat.pow 2 e, 1)
    | .negSucc e => (n, Nat.pow 2 (e + 1))
  match tens with
  | .ofNat e => (numerator, denominator * Nat.pow 10 e)
  | .negSucc e => (numerator * Nat.pow 10 (e + 1), denominator)

/-- Whether a point of the grid `10 ^ tens` lies in an interval. -/
def RoundingInterval.holds (i : RoundingInterval) (tens : Int) (point : Nat) : Bool :=
  let low := gridRatio i.low i.exponent tens
  let high := gridRatio i.high i.exponent tens
  if i.closed then low.1 ≤ point * low.2 && point * high.2 ≤ high.1
  else low.1 < point * low.2 && point * high.2 < high.1

/-- The point of the grid `10 ^ tens` that lies in an interval and is nearest to its number, the
upper one of two that are equally near. -/
def RoundingInterval.nearest? (i : RoundingInterval) (tens : Int) : Option Nat :=
  let middle := gridRatio i.middle i.exponent tens
  let below := middle.1 / middle.2
  let rest := middle.1 % middle.2
  let lowerFits := below ≠ 0 && i.holds tens below
  let upperFits := i.holds tens (below + 1)
  if lowerFits && upperFits then
    some (if 2 * rest < middle.2 then below else below + 1)
  else if lowerFits then some below
  else if upperFits then some (below + 1)
  else none

/-- The number of decimal digits of a positive integer. -/
def digitCount (n : Nat) : Nat :=
  (Nat.toDigits 10 n).length

/-- The power of ten of the leading digit of a positive ratio. -/
def leadingExponent (numerator denominator : Nat) : Int :=
  if denominator ≤ numerator then (digitCount (numerator / denominator) : Int) - 1
  else
    let ratio := (denominator + numerator - 1) / numerator
    (-(digitCount (ratio - 1) : Int))

/-- Search grids of more and more digits, at most `tries` of them, for a point of an interval. -/
def RoundingInterval.search (i : RoundingInterval) (leading : Int) : Nat → Nat → Decimal
  | count, 0 => ⟨0, leading - count⟩
  | count, tries + 1 =>
    let tens := leading - count
    match i.nearest? tens with
    | some point => ⟨point, tens⟩
    | none => i.search leading (count + 1) tries

/-- The shortest decimal number that reads back as a positive number, and the nearest of those. -/
def Layout.shortest (l : Layout) (significand : Nat) (exponent : Int) : Decimal :=
  let i := l.interval significand exponent
  let whole := gridRatio i.middle i.exponent 0
  i.search (leadingExponent whole.1 whole.2) 0 (l.fractionBits + 2)

/-- Drop the zeros at the end of a list of digits. -/
def trimZeros (digits : List Char) : List Char :=
  (digits.reverse.dropWhile (· = '0')).reverse

/-- The significant digits of a decimal number and the power of ten of the first of them. -/
def Decimal.significant (d : Decimal) : List Char × Int :=
  let digits := Nat.toDigits 10 d.digits
  (trimZeros digits, d.exponent + (digits.length : Int) - 1)

/-- Digits in positional notation, with at least `places` places after the point. -/
def positional (digits : List Char) (leading : Int) (places : Nat) : List Char :=
  let (whole, fraction) :=
    match leading with
    | .ofNat e =>
      (digits.take (e + 1) ++ List.replicate (e + 1 - digits.length) '0', digits.drop (e + 1))
    | .negSucc e => (['0'], List.replicate e '0' ++ digits)
  let padded := fraction ++ List.replicate (places - fraction.length) '0'
  if padded.isEmpty then whole else whole ++ '.' :: padded

/-- Digits in scientific notation. -/
def scientific (digits : List Char) (leading : Int) : List Char :=
  let mantissa :=
    match digits with
    | first :: second :: rest => first :: '.' :: second :: rest
    | other => other
  mantissa ++ 'e' :: (toString leading).toList

/-- How the text of a real number is laid out. -/
structure DecimalStyle where
  /-- Least number of places after the point in positional notation. -/
  places : Nat
  /-- Whether a number whose leading digit has this power of ten is written scientifically. -/
  isScientific : Int → Bool

/-- Every number is written positionally, and no point is written without need. -/
def DecimalStyle.plain : DecimalStyle := ⟨0, fun _ => false⟩

/-- There is always a place after the point, and numbers from `10 ^ 16` on or below `10 ^ -4` are
written scientifically. -/
def DecimalStyle.detailed : DecimalStyle := ⟨1, fun e => 16 ≤ e || e < -4⟩

/-- The text of a number of a layout. -/
def Layout.text (l : Layout) (style : DecimalStyle) (d : Datum) : String :=
  match d with
  | .invalid _ _ => "NaN"
  | .infinite negative => if negative then "-inf" else "inf"
  | .finite negative significand exponent =>
    let body :=
      if significand = 0 then positional ['0'] 0 style.places
      else
        let (digits, leading) := (l.shortest significand exponent).significant
        if style.isScientific leading then scientific digits leading
        else positional digits leading style.places
    String.ofList (if negative then '-' :: body else body)

end Binary

/-- The text of a real number in a style. -/
def Real64.text (style : Binary.DecimalStyle) (r : Real64) : String :=
  Binary.Layout.double.text style r.datum

/-- The text of a real number in a style. -/
def Real32.text (style : Binary.DecimalStyle) (r : Real32) : String :=
  Binary.Layout.single.text style r.datum

end ObjectBridge
