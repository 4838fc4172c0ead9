/-!
# Bytes

Contents of objects and parts are lists of bytes. Their written form is `hex`, two small digits a
byte.
-/

namespace ObjectStore

/-- A sequence of bytes. -/
abbrev Bytes := List UInt8

namespace Bytes

/-- The small hexadecimal digit of `n < 16`. -/
def hexDigit (n : UInt8) : Char :=
  if n < 10 then Char.ofUInt8 (48 + n) else Char.ofUInt8 (87 + n)

/-- Two hexadecimal digits for each byte, the high one first. -/
def hex (bytes : Bytes) : String :=
  String.ofList (bytes.flatMap fun (b : UInt8) => [hexDigit (b >>> 4), hexDigit (b &&& 15)])

end Bytes

end ObjectStore
