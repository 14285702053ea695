/-!
# Binary floating-point layouts

A floating-point word is a sign, an exponent field and a fraction.  Reading a word gives an exact
number `significand * 2 ^ exponent`; rounding takes an exact ratio back to the nearest word, ties
to the even one.  Everything is integer arithmetic, so the conversions can be reasoned about.
-/

namespace ObjectBridge
namespace Binary

/-- The field widths of a binary floating-point layout. -/
structure Layout where
  /-- Number of bits of the fraction. -/
  fractionBits : Nat
  /-- Number of bits of the exponent field. -/
  exponentBits : Nat
  deriving DecidableEq, Repr

namespace Layout

/-- The layout of a 64-bit number. -/
def double : Layout := ⟨52, 11⟩

/-- The layout of a 32-bit number. -/
def single : Layout := ⟨23, 8⟩

/-- The number of fractions, which is also the weight of the bit above them. -/
def fractions (l : Layout) : Nat :=
  Nat.pow 2 l.fractionBits

/-- The number of exponent fields. -/
def fields (l : Layout) : Nat :=
  Nat.pow 2 l.exponentBits

/-- The weight of the last fraction bit of the smallest numbers, as a power of two. -/
def leastExponent (l : Layout) : Int :=
  (2 : Int) - Nat.pow 2 (l.exponentBits - 1) - l.fractionBits

/-- The exponent field of infinities and of words that are no number. -/
def topExponent (l : Layout) : Nat :=
  l.fields - 1

/-- The word of the sign bit alone. -/
def signWord (l : Layout) : Nat :=
  l.fields * l.fractions

/-- The word of positive infinity. -/
def infinityWord (l : Layout) : Nat :=
  l.topExponent * l.fractions

/-- The word of a sign and the bits below it. -/
def withSign (l : Layout) (negative : Bool) (magnitude : Nat) : Nat :=
  if negative then l.signWord + magnitude else magnitude

end Layout

/-- What a floating-point word means. -/
inductive Datum where
  /-- No number; the fraction tells such words apart. -/
  | invalid (negative : Bool) (fraction : Nat)
  /-- An infinity. -/
  | infinite (negative : Bool)
  /-- The number `significand * 2 ^ exponent`, with its sign. -/
  | finite (negative : Bool) (significand : Nat) (exponent : Int)
  deriving DecidableEq, Repr

/-- Read a word of a layout. -/
def Layout.read (l : Layout) (word : Nat) : Datum :=
  let negative := word / l.signWord % 2 = 1
  let field := word / l.fractions % l.fields
  let fraction := word % l.fractions
  if field = l.topExponent then
    if fraction = 0 then .infinite negative else .invalid negative fraction
  else if field = 0 then .finite negative fraction l.leastExponent
  else .finite negative (l.fractions + fraction) (l.leastExponent + (field - 1))

/-- The integer nearest to a ratio, a half going to the even neighbour. -/
def roundRatio (numerator denominator : Nat) : Nat :=
  let quotient := numerator / denominator
  let rest := numerator % denominator
  if 2 * rest > denominator || (2 * rest = denominator && quotient % 2 = 1) then quotient + 1
  else quotient

/-- The ratio `numerator / (denominator * 2 ^ exponent)` as a numerator and a denominator. -/
def scaleRatio (numerator denominator : Nat) (exponent : Int) : Nat × Nat :=
  match exponent with
  | .ofNat e => (numerator, denominator * Nat.pow 2 e)
  | .negSucc e => (numerator * Nat.pow 2 (e + 1), denominator)

/-- The exponent at which a ratio has a full significand, unless that is below the least one. -/
def Layout.exponentFor (l : Layout) (numerator denominator : Nat) : Int :=
  let guess : Int := (Nat.log2 numerator : Int) - (Nat.log2 denominator : Int) - l.fractionBits
  let scaled := scaleRatio numerator denominator guess
  let exact := if scaled.1 < scaled.2 * l.fractions then guess - 1 else guess
  max exact l.leastExponent

/-- The bits below the sign of the word nearest to a ratio.  A carry out of the significand moves
into the exponent field by itself, and a magnitude past the greatest number is infinity. -/
def Layout.roundMagnitude (l : Layout) (numerator denominator : Nat) : Nat :=
  if numerator = 0 then 0
  else
    let exponent := l.exponentFor numerator denominator
    let scaled := scaleRatio numerator denominator exponent
    let significand := roundRatio scaled.1 scaled.2
    let word := (exponent - l.leastExponent).toNat * l.fractions + significand
    min word l.infinityWord

/-- The word nearest to a signed ratio. -/
def Layout.round (l : Layout) (negative : Bool) (numerator denominator : Nat) : Nat :=
  l.withSign negative (l.roundMagnitude numerator denominator)

/-- The word nearest to `significand * 2 ^ exponent`, with its sign. -/
def Layout.roundScaled (l : Layout) (negative : Bool) (significand : Nat) (exponent : Int) : Nat :=
  match exponent with
  | .ofNat e => l.round negative (significand * Nat.pow 2 e) 1
  | .negSucc e => l.round negative significand (Nat.pow 2 (e + 1))

/-- The word nearest to an integer. -/
def Layout.ofInt (l : Layout) (n : Int) : Nat :=
  l.round (n < 0) n.natAbs 1

/-- The word of another layout for a word that is no number: the leading fraction bits stay and
the first of them is set. -/
def Layout.carryInvalid (target source : Layout) (negative : Bool) (fraction : Nat) : Nat :=
  let moved :=
    if source.fractionBits ≤ target.fractionBits then
      fraction * Nat.pow 2 (target.fractionBits - source.fractionBits)
    else fraction / Nat.pow 2 (source.fractionBits - target.fractionBits)
  let quiet := target.fractions / 2
  let marked := if moved / quiet % 2 = 1 then moved else moved + quiet
  target.withSign negative (target.infinityWord + marked)

/-- The word of one layout nearest to a word of another. -/
def Layout.convert (target source : Layout) (word : Nat) : Nat :=
  match source.read word with
  | .invalid negative fraction => target.carryInvalid source negative fraction
  | .infinite negative => target.withSign negative target.infinityWord
  | .finite negative significand exponent => target.roundScaled negative significand exponent

/-- The integer part of a number, none for a word that is no number or infinite. -/
def Datum.truncate? : Datum → Option Int
  | .finite negative significand exponent =>
    let magnitude :=
      match exponent with
      | .ofNat e => significand * Nat.pow 2 e
      | .negSucc e => significand / Nat.pow 2 (e + 1)
    some (if negative then -(magnitude : Int) else magnitude)
  | _ => none

/-- The integer part of a number held between two bounds: past a bound it is the bound, and a word
that is no number gives zero. -/
def Datum.clamp (low high : Int) (d : Datum) : Int :=
  match d with
  | .invalid _ _ => 0
  | .infinite negative => if negative then low else high
  | .finite _ _ _ => max low (min high (d.truncate?.getD 0))

/-- Whether a word means zero, of either sign. -/
def Datum.isZero : Datum → Bool
  | .finite _ significand _ => significand = 0
  | _ => false

/-- Whether a word is no number. -/
def Datum.isInvalid : Datum → Bool
  | .invalid _ _ => true
  | _ => false

/-- Whether two words of one layout are equal as numbers: words that are no number differ from
everything, and the two zeros are equal. -/
def Layout.equal (l : Layout) (a b : Nat) : Bool :=
  let x := l.read a
  let y := l.read b
  !x.isInvalid && !y.isInvalid && (a = b || (x.isZero && y.isZero))

/-- The word that an operation without a result gives. -/
def Layout.defaultInvalid (l : Layout) : Nat :=
  l.withSign true (l.infinityWord + l.fractions / 2)

/-- The word nearest to the quotient of two words.  An operand that is no number is passed on, the
first one before the second. -/
def Layout.quotient (l : Layout) (a b : Nat) : Nat :=
  match l.read a, l.read b with
  | .invalid negative fraction, _ => l.carryInvalid l negative fraction
  | _, .invalid negative fraction => l.carryInvalid l negative fraction
  | .infinite _, .infinite _ => l.defaultInvalid
  | .infinite x, .finite y _ _ => l.withSign (x != y) l.infinityWord
  | .finite x _ _, .infinite y => l.withSign (x != y) 0
  | .finite x m e, .finite y n f =>
    if n = 0 then
      if m = 0 then l.defaultInvalid else l.withSign (x != y) l.infinityWord
    else
      match e - f with
      | .ofNat k => l.round (x != y) (m * Nat.pow 2 k) n
      | .negSucc k => l.round (x != y) m (n * Nat.pow 2 (k + 1))

end Binary
end ObjectBridge
