import ObjectStore.Bytes.Basic

/-!
# Base64

Three bytes become four characters of six bits each. One or two bytes left at the end are filled up
with zero bits, and `=` stands for each character that holds none of their bits, so the text always
has four characters for every three bytes begun (`length_base64Chars`).
-/

namespace ObjectStore.Bytes

/-- The character that stands for six bits. -/
def base64Digit (n : UInt8) : Char :=
  if n < 26 then Char.ofUInt8 (65 + n)
  else if n < 52 then Char.ofUInt8 (71 + n)
  else if n < 62 then Char.ofUInt8 (n - 4)
  else if n = 62 then '+'
  else '/'

/-- The characters that stand for a sequence of bytes. -/
def base64Chars : Bytes → List Char
  | [] => []
  | [a] => [base64Digit (a >>> 2), base64Digit ((a &&& 3) <<< 4), '=', '=']
  | [a, b] =>
    [base64Digit (a >>> 2), base64Digit ((a &&& 3) <<< 4 ||| b >>> 4),
      base64Digit ((b &&& 15) <<< 2), '=']
  | a :: b :: c :: rest =>
    base64Digit (a >>> 2) :: base64Digit ((a &&& 3) <<< 4 ||| b >>> 4) ::
      base64Digit ((b &&& 15) <<< 2 ||| c >>> 6) :: base64Digit (c &&& 63) :: base64Chars rest

/-- The Base64 text of a sequence of bytes. -/
def base64 (bytes : Bytes) : String := String.ofList (base64Chars bytes)

theorem length_base64Chars (bytes : Bytes) :
    (base64Chars bytes).length = 4 * ((bytes.length + 2) / 3) := by
  fun_induction base64Chars bytes with
  | case1 => rfl
  | case2 => simp
  | case3 => simp
  | case4 a b c rest ih => simp only [List.length_cons, ih]; omega

end ObjectStore.Bytes
