/-!
# UTF-8 text in native memory

A native string is a run of bytes without a zero byte.  Writing encodes each character; reading
replaces every maximal ill-formed part by the replacement character, so it never fails.
-/

namespace ObjectBridge
namespace Text

/-- The bytes of one character in UTF-8. -/
def encodeChar (c : Char) : List UInt8 :=
  let n := c.toNat
  if n < 0x80 then [UInt8.ofNat n]
  else if n < 0x800 then [UInt8.ofNat (0xC0 + n / 64), UInt8.ofNat (0x80 + n % 64)]
  else if n < 0x10000 then
    [UInt8.ofNat (0xE0 + n / 4096), UInt8.ofNat (0x80 + n / 64 % 64), UInt8.ofNat (0x80 + n % 64)]
  else
    [UInt8.ofNat (0xF0 + n / 262144), UInt8.ofNat (0x80 + n / 4096 % 64),
      UInt8.ofNat (0x80 + n / 64 % 64), UInt8.ofNat (0x80 + n % 64)]

/-- The bytes of a list of characters in UTF-8. -/
def encodeChars (chars : List Char) : List UInt8 :=
  chars.flatMap encodeChar

/-- The bytes of a text in UTF-8. -/
def encode (text : String) : List UInt8 :=
  encodeChars text.toList

/-- The character that stands for ill-formed bytes. -/
def replacement : Char := '\uFFFD'

/-- How a multi-byte sequence goes on after its first byte. -/
structure Continuation where
  /-- Number of bytes that follow the first one. -/
  more : Nat
  /-- Least value of the second byte. -/
  low : Nat
  /-- Greatest value of the second byte. -/
  high : Nat

/-- The continuation that a first byte announces; bytes below `0x80` stand alone and are not asked
for, and a byte that starts no sequence has none. -/
def continuation? (lead : Nat) : Option Continuation :=
  if lead < 0xC2 then none
  else if lead < 0xE0 then some ⟨1, 0x80, 0xBF⟩
  else if lead = 0xE0 then some ⟨2, 0xA0, 0xBF⟩
  else if lead = 0xED then some ⟨2, 0x80, 0x9F⟩
  else if lead < 0xF0 then some ⟨2, 0x80, 0xBF⟩
  else if lead = 0xF0 then some ⟨3, 0x90, 0xBF⟩
  else if lead < 0xF4 then some ⟨3, 0x80, 0xBF⟩
  else if lead = 0xF4 then some ⟨3, 0x80, 0x8F⟩
  else none

/-- A byte that may stand third or fourth in a sequence. -/
def isTrailing (byte : UInt8) : Bool :=
  0x80 ≤ byte.toNat && byte.toNat ≤ 0xBF

/-- Read bytes as UTF-8, replacing every maximal ill-formed part. -/
def decodeChars : List UInt8 → List Char
  | [] => []
  | a :: afterA =>
    if a.toNat < 0x80 then Char.ofNat a.toNat :: decodeChars afterA
    else match continuation? a.toNat with
      | none => replacement :: decodeChars afterA
      | some next =>
        match afterA with
        | [] => [replacement]
        | b :: afterB =>
          if b.toNat < next.low || next.high < b.toNat then replacement :: decodeChars (b :: afterB)
          else if next.more = 1 then
            Char.ofNat ((a.toNat - 0xC0) * 64 + (b.toNat - 0x80)) :: decodeChars afterB
          else match afterB with
            | [] => [replacement]
            | c :: afterC =>
              if !isTrailing c then replacement :: decodeChars (c :: afterC)
              else if next.more = 2 then
                Char.ofNat ((a.toNat - 0xE0) * 4096 + (b.toNat - 0x80) * 64 + (c.toNat - 0x80))
                  :: decodeChars afterC
              else match afterC with
                | [] => [replacement]
                | d :: afterD =>
                  if !isTrailing d then replacement :: decodeChars (d :: afterD)
                  else
                    Char.ofNat ((a.toNat - 0xF0) * 262144 + (b.toNat - 0x80) * 4096
                      + (c.toNat - 0x80) * 64 + (d.toNat - 0x80)) :: decodeChars afterD

/-- Read bytes as UTF-8 text, replacing every maximal ill-formed part. -/
def decode (bytes : List UInt8) : String :=
  String.ofList (decodeChars bytes)

end Text
end ObjectBridge
