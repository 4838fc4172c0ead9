/-!
# Blank characters

The characters with the Unicode property White_Space, and texts without them at either end. The
property is wider than `Char.isWhitespace`, which knows ASCII only (`isBlank_of_isWhitespace`).
-/

namespace ObjectStore.Text

/-- Whether `c` has the property White_Space. -/
def isBlank (c : Char) : Bool :=
  let n := c.toNat
  (9 ≤ n && n ≤ 13) || n == 0x20 || n == 0x85 || n == 0xa0 || n == 0x1680 ||
    (0x2000 ≤ n && n ≤ 0x200a) || n == 0x2028 || n == 0x2029 || n == 0x202f || n == 0x205f ||
    n == 0x3000

theorem isBlank_of_isWhitespace {c : Char} (h : c.isWhitespace) : isBlank c := by
  simp only [Char.isWhitespace, Bool.or_eq_true, decide_eq_true_eq] at h
  rcases h with ((h | h) | h) | h <;> subst h <;> decide

/-- `text` without the blanks at its start. -/
def trimStart (text : List Char) : List Char := text.dropWhile isBlank

/-- `text` without the blanks at its end. -/
def trimEnd (text : List Char) : List Char := (trimStart text.reverse).reverse

/-- `text` without the blanks at its two ends. -/
def trim (text : String) : String := String.ofList (trimEnd (trimStart text.toList))

/-- Whether `text` holds nothing but blanks. -/
def allBlank (text : String) : Bool := text.toList.all isBlank

/-- The ASCII capitals of `text` made small; every other character stays. -/
def lowerAscii (text : String) : String := String.ofList (text.toList.map Char.toLower)

end ObjectStore.Text
