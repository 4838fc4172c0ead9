import ObjectStore.Text.Numeral
import ObjectStore.Text.Stem

/-!
# Written numbers

A number is written by its decimal digits, which hold neither a sign nor any other mark. So a numeral
that is put between marks is found again (`cutAt?_toString`), and reads as the number that was written
(`uint64?_toString`).
-/

namespace ObjectStore.Text

/-! ## Digits -/

theorem isDigit_of_mem_toString {n : Nat} {c : Char} (h : c ∈ (toString n).toList) :
    c.isDigit = true := by
  rw [Nat.toString_eq_ofList_toDigits, String.toList_ofList] at h
  exact Nat.isDigit_of_mem_toDigits (by omega) (by omega) h

theorem toList_toString_ne_nil (n : Nat) : (toString n).toList ≠ [] := by
  rw [Nat.toString_eq_ofList_toDigits, String.toList_ofList]
  exact Nat.toDigits_ne_nil

/-- The digits of a number have its value. -/
theorem ofDigitChars_toString (n : Nat) : Nat.ofDigitChars 10 (toString n).toList 0 = n := by
  rw [Nat.toString_eq_ofList_toDigits, String.toList_ofList]
  exact Nat.ofDigitChars_ten_toDigits

/-! ## Cutting at a mark -/

/-- A text is cut at the first of two marks. -/
theorem cutAt?_append {mark : Char} {front : List Char} (h : mark ∉ front) (rest : List Char) :
    cutAt? mark (front ++ mark :: rest) = some (front, rest) := by
  induction front with
  | nil => simp [cutAt?]
  | cons c front ih =>
    rw [List.mem_cons, not_or] at h
    rw [List.cons_append, cutAt?, if_neg (Ne.symm h.1), ih h.2]
    rfl

/-- A number in front of a mark that is no digit is cut off whole. -/
theorem cutAt?_toString {mark : Char} (h : mark.isDigit = false) (n : Nat) (rest : List Char) :
    cutAt? mark ((toString n).toList ++ mark :: rest) = some ((toString n).toList, rest) := by
  refine cutAt?_append (fun hmem => ?_) rest
  rw [isDigit_of_mem_toString hmem] at h
  cases h

namespace Numeral

/-! ## Reading -/

theorem digit?_of_isDigit {c : Char} (h : c.isDigit = true) :
    digit? c = some (c.toNat - '0'.toNat) := by
  obtain ⟨hlow, hhigh⟩ := Char.isDigit_iff_toNat.mp h
  exact if_pos ⟨hlow, hhigh⟩

/-- Further digits make a number no smaller. -/
theorem le_ofDigitChars (digits : List Char) (value : Nat) :
    value ≤ Nat.ofDigitChars 10 digits value := by
  rw [Nat.ofDigitChars_eq_ofDigitChars_zero]
  have hpow : 1 * value ≤ 10 ^ digits.length * value :=
    Nat.mul_le_mul_right value (Nat.one_le_pow _ 10 (by omega))
  omega

/-- Digits are read as their value, as long as it does not pass the bound. -/
theorem magnitude_of_digits {bound value : Nat} {passed : Flaw} {digits : List Char}
    (hdigits : ∀ c ∈ digits, c.isDigit = true)
    (hbound : Nat.ofDigitChars 10 digits value ≤ bound) :
    magnitude bound passed value digits = .ok (Nat.ofDigitChars 10 digits value) := by
  induction digits generalizing value with
  | nil => rfl
  | cons c rest ih =>
    rw [Nat.ofDigitChars_cons] at hbound ⊢
    have hvalue := Nat.le_trans (le_ofDigitChars rest _) hbound
    simp only [magnitude, digit?_of_isDigit (hdigits c List.mem_cons_self)]
    rw [if_neg (by omega)]
    exact ih (fun d hd => hdigits d (List.mem_cons_of_mem c hd)) hbound

/-- A text of digits is read without a look at signs. -/
theorem uint64?_of_digits {digits : List Char} (hne : digits ≠ [])
    (hdigits : ∀ c ∈ digits, c.isDigit = true) :
    uint64? digits =
      (magnitude (UInt64.size - 1) .tooLarge 0 digits).toOption.map UInt64.ofNat := by
  match digits, hne with
  | c :: rest, _ =>
    have hc : c ≠ '+' := by
      rintro rfl
      exact absurd (hdigits '+' List.mem_cons_self) (by decide)
    rw [uint64?]
    · exact nofun
    · exact fun h => hc (List.cons.inj h).1
    · exact fun _ h => hc (List.cons.inj h).1

/-- **A number that was written is read back.** -/
theorem uint64?_toString (n : UInt64) : uint64? (toString n).toList = some n := by
  have hdigits : ∀ c ∈ (toString n.toNat).toList, c.isDigit = true :=
    fun _ => isDigit_of_mem_toString
  have hvalue := ofDigitChars_toString n.toNat
  have hbound : Nat.ofDigitChars 10 (toString n.toNat).toList 0 ≤ UInt64.size - 1 := by
    have hlt := n.toNat_lt
    rw [hvalue, UInt64.size]
    omega
  rw [show toString n = toString n.toNat from rfl,
    uint64?_of_digits (toList_toString_ne_nil n.toNat) hdigits, magnitude_of_digits hdigits hbound,
    hvalue]
  simp [Except.toOption]

end Numeral

end ObjectStore.Text
