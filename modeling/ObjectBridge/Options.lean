/-!
# Options of the bridge

The options are three switches.  They can be read from the environment, where a switch is a word;
a word that is not understood leaves the switch at its default.
-/

namespace ObjectBridge

/-- The options of a bridge. -/
structure Options where
  /-- Whether diagnostics are traced from the start. -/
  diagnostics : Bool := false
  /-- Whether fatal signals of native calls are contained. -/
  containment : Bool := true
  /-- Whether floating-point exceptions are held during native calls. -/
  floatHold : Bool := true
  deriving DecidableEq, Repr

namespace Options

/-- A character that may surround the word of a switch. -/
def isBlank (c : Char) : Bool :=
  let n := c.toNat
  (0x09 ≤ n && n ≤ 0x0D) || n = 0x20 || n = 0x85 || n = 0xA0 || n = 0x1680
    || (0x2000 ≤ n && n ≤ 0x200A) || n = 0x2028 || n = 0x2029 || n = 0x202F || n = 0x205F
    || n = 0x3000

/-- A text without the blanks at its two ends. -/
def trimBlanks (chars : List Char) : List Char :=
  ((chars.dropWhile isBlank).reverse.dropWhile isBlank).reverse

/-- The letters `A` to `Z` in lower case, every other character as it is. -/
def lowerAscii (c : Char) : Char :=
  if 'A' ≤ c && c ≤ 'Z' then Char.ofNat (c.toNat + 32) else c

/-- The position of a switch that a word means. -/
def switch? (word : String) : Option Bool :=
  let plain := String.ofList ((trimBlanks word.toList).map lowerAscii)
  if ["1", "true", "yes", "on"].contains plain then some true
  else if ["", "0", "false", "no", "off"].contains plain then some false
  else none

/-- The options that the variables of an environment choose. -/
def ofEnvironment (value? : String → Option String) : Options :=
  let defaults : Options := {}
  let switch (name : String) (default : Bool) : Bool := ((value? name).bind switch?).getD default
  { diagnostics := switch "GYRE_DEBUG" defaults.diagnostics
    containment := switch "GYRE_CONTAIN_SIGNALS" defaults.containment
    floatHold := switch "GYRE_HOLD_FPE" defaults.floatHold }

/-- The options in full. -/
def render (o : Options) : String :=
  "BridgeOptions \x7b debug: " ++ toString o.diagnostics
    ++ ", contain_fatal_signals: " ++ toString o.containment
    ++ ", hold_fp_exceptions: " ++ toString o.floatHold ++ " \x7d"

end Options

end ObjectBridge
