import ObjectBridge.Text.Invisible
import ObjectBridge.Text.Redacted

/-!
# Quoted text

A quoted text stands between double quotes.  The quote, the backslash and the common control
characters have two-character escapes, and every other character without a visible form is written
by its code point.
-/

namespace ObjectBridge
namespace Text

/-- The code point of a character between braces, after a backslash and a `u`. -/
def codePointEscape (c : Char) : List Char :=
  '\\' :: 'u' :: '\x7b' :: (Nat.toDigits 16 c.toNat ++ ['\x7d'])

/-- The written form of one character of a quoted text. -/
def quoteChar (c : Char) : List Char :=
  if c = '"' then ['\\', '"']
  else if c = '\\' then ['\\', '\\']
  else if c = '\x00' then ['\\', '0']
  else if c = '\t' then ['\\', 't']
  else if c = '\n' then ['\\', 'n']
  else if c = '\r' then ['\\', 'r']
  else if c.toNat < 0x20 || c.toNat = 0x7F then codePointEscape c
  else if c.toNat < 0x7F then [c]
  else if isInvisible c then codePointEscape c
  else [c]

/-- A text between double quotes. -/
def quote (text : String) : String :=
  String.ofList ('"' :: (text.toList.flatMap quoteChar ++ ['"']))

end Text
end ObjectBridge
