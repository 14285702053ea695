/-!
# Redacted addresses

Answers are compared across runs, and an address differs from run to run.  A text that may show
one is therefore redacted: every hexadecimal number written after `0x` becomes a star.  The scan
keeps one of four states and moves through the text once, so it is structurally recursive.
-/

namespace ObjectBridge
namespace Text

/-- A digit of a hexadecimal number, in either case. -/
def isHexDigit (c : Char) : Bool :=
  ('0' ≤ c && c ≤ '9') || ('a' ≤ c && c ≤ 'f') || ('A' ≤ c && c ≤ 'F')

/-- What has been read but not yet written while a text is redacted. -/
inductive Pending where
  /-- Nothing is pending. -/
  | nothing
  /-- A zero that may open an address. -/
  | zero
  /-- The two characters before the digits of an address. -/
  | marker
  /-- An address whose star is already written. -/
  | digits
  deriving DecidableEq, Repr

/-- Redact a list of characters, given what is pending before it. -/
def redactFrom : Pending → List Char → List Char
  | .nothing, [] => []
  | .zero, [] => ['0']
  | .marker, [] => ['0', 'x']
  | .digits, [] => []
  | .nothing, c :: rest =>
    if c = '0' then redactFrom .zero rest else c :: redactFrom .nothing rest
  | .zero, c :: rest =>
    if c = 'x' then redactFrom .marker rest
    else if c = '0' then '0' :: redactFrom .zero rest
    else '0' :: c :: redactFrom .nothing rest
  | .marker, c :: rest =>
    if isHexDigit c then '0' :: 'x' :: '*' :: redactFrom .digits rest
    else '0' :: 'x' :: c :: redactFrom .nothing rest
  | .digits, c :: rest =>
    if isHexDigit c then redactFrom .digits rest else c :: redactFrom .nothing rest

/-- Write every address of a text as `0x*`. -/
def redact (text : String) : String :=
  String.ofList (redactFrom .nothing text.toList)

/-- The digits of a number in base sixteen, in lower case. -/
def hexDigits (n : Nat) : String :=
  String.ofList (Nat.toDigits 16 n)

/-- The digits of a number in base sixteen, padded with zeros to a width. -/
def paddedHex (width n : Nat) : String :=
  let digits := Nat.toDigits 16 n
  String.ofList (List.replicate (width - digits.length) '0' ++ digits)

end Text
end ObjectBridge
