import ObjectStore.Instant
import ObjectStore.Text.Blank

/-!
# Written instants

An instant is written as a date, `T`, a time of day and `Z`. Years from 0 to 9999 have four digits,
others a sign and at least four. The fraction of a second has no digits, or 3, 6 or 9 of them, the
fewest that are exact.

Reading is more lenient: blanks may stand in front of a number and around the separators; one or two
digits make a month, day, hour, minute or second; a space may stand for the `T`; further digits of a
fraction are passed over; the zone may also be `UTC` or an offset in hours and minutes. What is
written reads back as the same instant.
-/

namespace ObjectStore.Instant

/-! ## Writing -/

/-- A number with zeros in front, so that it has at least `width` digits. -/
def padded (width n : Nat) : String :=
  let digits := Nat.toDigits 10 n
  String.ofList (List.replicate (width - digits.length) '0' ++ digits)

/-- The year as it is written. -/
def yearText : (year : Int) → String
  | .ofNat n => if n ≤ 9999 then padded 4 n else "+" ++ padded 4 n
  | .negSucc n => "-" ++ padded 4 (n + 1)

/-- The fraction of a second as it is written, with its point. -/
def fractionText (nano : Nat) : String :=
  if nano = 0 then ""
  else if nano % 1000000 = 0 then "." ++ padded 3 (nano / 1000000)
  else if nano % 1000 = 0 then "." ++ padded 6 (nano / 1000)
  else "." ++ padded 9 nano

/-- The written form of an instant. A leap second comes out as second 60. -/
def text (t : Instant) : String :=
  yearText t.year ++ "-" ++ padded 2 t.month ++ "-" ++ padded 2 t.day ++ "T" ++
    padded 2 t.hour ++ ":" ++ padded 2 t.minute ++ ":" ++
    padded 2 (t.second + t.nano / nanosPerSecond) ++ fractionText (t.nano % nanosPerSecond) ++ "Z"

/-! ## Reading -/

namespace Reader

/-- The number that a run of digits stands for. -/
def value (digits : List Char) : Nat := digits.foldl (fun n c => 10 * n + (c.toNat - 48)) 0

/-- A number of one to `most` digits at the start of a text, and what is left. -/
def digits? (most : Nat) (cs : List Char) : Option (Nat × List Char) :=
  let ds := (cs.take most).takeWhile Char.isDigit
  if ds = [] then none else some (value ds, cs.drop ds.length)

/-- Blanks and then a number of one or two digits. -/
def field? (cs : List Char) : Option (Nat × List Char) := digits? 2 (Text.trimStart cs)

/-- The character `c` at the start, and what is left. -/
def mark? (c : Char) : List Char → Option (List Char)
  | d :: rest => if d = c then some rest else none
  | [] => none

/-- A year: up to four digits, or a sign and any number of digits. -/
def year? (cs : List Char) : Option (Int × List Char) :=
  match Text.trimStart cs with
  | '-' :: rest => (digits? rest.length rest).map fun p => (-(p.1 : Int), p.2)
  | '+' :: rest => (digits? rest.length rest).map fun p => ((p.1 : Int), p.2)
  | rest => (digits? 4 rest).map fun p => ((p.1 : Int), p.2)

/-- A fraction of a second in nanoseconds; nine digits count. No point, no fraction. -/
def fraction? : List Char → Option (Nat × List Char)
  | '.' :: rest =>
    let ds := (rest.take 9).takeWhile Char.isDigit
    if ds = [] then none
    else some (value ds * Nat.pow 10 (9 - ds.length), rest.dropWhile Char.isDigit)
  | cs => some (0, cs)

/-- Two digits of an offset. -/
def twoDigits? : List Char → Option (Nat × List Char)
  | a :: b :: rest => if a.isDigit && b.isDigit then some (value [a, b], rest) else none
  | _ => none

/-- The size of an offset in minutes: two digits of hours, colons or blanks, two of minutes. -/
def offset? (cs : List Char) : Option (Nat × List Char) := do
  let (hours, cs) ← twoDigits? cs
  let (minutes, cs) ← twoDigits? (cs.dropWhile fun c => c == ':' || Text.isBlank c)
  if minutes < 60 ∧ hours < 24 then some (60 * hours + minutes, cs) else none

/-- A zone as the minutes by which it is ahead of universal time. -/
def zone? (cs : List Char) : Option (Int × List Char) :=
  match cs with
  | 'Z' :: rest | 'z' :: rest => some (0, rest)
  | '+' :: rest => (offset? rest).map fun p => ((p.1 : Int), p.2)
  | '-' :: rest | '\u2212' :: rest => (offset? rest).map fun p => (-(p.1 : Int), p.2)
  | u :: t :: c :: rest =>
    if [u, t, c].map Char.toLower = ['u', 't', 'c'] then some (0, rest) else none
  | _ => none

end Reader

open Reader in
/-- The instant that a text stands for. -/
def ofText? (text : String) : Option Instant := do
  let (year, cs) ← year? text.toList
  let cs ← mark? '-' (Text.trimStart cs)
  let (month, cs) ← field? cs
  let cs ← mark? '-' (Text.trimStart cs)
  let (day, cs) ← field? cs
  let cs ← mark? 'T' cs <|> mark? 't' cs <|> mark? ' ' cs
  let (hour, cs) ← field? cs
  let cs ← mark? ':' (Text.trimStart cs)
  let (minute, cs) ← field? cs
  let cs ← mark? ':' (Text.trimStart cs)
  let (second, cs) ← field? cs
  let (nano, cs) ← fraction? cs
  let (ahead, cs) ← zone? (Text.trimStart cs)
  if Text.trimStart cs ≠ [] then none
  else
    let t ←
      if second = 60 then ofFields? year month day hour minute 59 (nanosPerSecond + nano)
      else ofFields? year month day hour minute second nano
    t.behind? ahead

end ObjectStore.Instant
