import ObjectStore.Bytes.Basic

/-!
# The order of bytes

Keys are compared character by character, while the order that they are meant to be in is the one of
their bytes in UTF-8. The two are one order (`utf8_lt_utf8`). UTF-8 is made for that: the more bytes a
character has, the higher is the first of them, and among characters with as many bytes each byte tells
six further bits of the number, the high ones first. So two characters already differ in their bytes in
the way their numbers do, and what comes behind them does not matter.
-/

namespace ObjectStore.Text

/-- The bytes of a text. -/
def utf8 (text : String) : Bytes := text.toList.flatMap String.utf8EncodeChar

/-- They are the bytes that the text is kept as. -/
theorem toByteArray_utf8 (text : String) : (utf8 text).toByteArray = text.toByteArray := by
  rw [utf8, ← List.utf8Encode, ← String.toByteArray_ofList, String.ofList_toList]

/-! ## The bytes of one character -/

/-- That a character with this number is written by these bytes. -/
inductive Encodes : Nat → Bytes → Prop
  | one {n : Nat} {a : UInt8} (hlast : n < 0x80) (ha : a.toNat = n) : Encodes n [a]
  | two {n : Nat} {a b : UInt8} (hfirst : 0x80 ≤ n) (hlast : n < 0x800)
    (ha : a.toNat = 0xc0 + n / 64) (hb : b.toNat = 0x80 + n % 64) : Encodes n [a, b]
  | three {n : Nat} {a b c : UInt8} (hfirst : 0x800 ≤ n) (hlast : n < 0x10000)
    (ha : a.toNat = 0xe0 + n / 4096) (hb : b.toNat = 0x80 + n / 64 % 64)
    (hc : c.toNat = 0x80 + n % 64) : Encodes n [a, b, c]
  | four {n : Nat} {a b c d : UInt8} (hfirst : 0x10000 ≤ n) (hlast : n < 0x110000)
    (ha : a.toNat = 0xf0 + n / 262144) (hb : b.toNat = 0x80 + n / 4096 % 64)
    (hc : c.toNat = 0x80 + n / 64 % 64) (hd : d.toNat = 0x80 + n % 64) : Encodes n [a, b, c, d]

theorem toNat_ofNat_byte {n m : Nat} (h : n = m) (hm : m < 256) : (UInt8.ofNat n).toNat = m := by
  rw [h, UInt8.toNat_ofNat', Nat.mod_eq_of_lt hm]

theorem encodes_utf8EncodeChar (c : Char) : Encodes c.toNat (String.utf8EncodeChar c) := by
  have hvalid : c.val.toNat < 0x110000 := by
    rcases c.valid with hlow | ⟨-, hhigh⟩
    · exact Nat.lt_trans hlow (by decide)
    · exact hhigh
  rw [Char.toNat]
  fun_cases String.utf8EncodeChar c with
  | case1 n h₁ => exact .one (by omega) (toNat_ofNat_byte rfl (by omega))
  | case2 n h₁ h₂ =>
    refine .two (by omega) (by omega) ?_ ?_ <;> exact toNat_ofNat_byte (by omega) (by omega)
  | case3 n h₁ h₂ h₃ =>
    refine .three (by omega) (by omega) ?_ ?_ ?_ <;> exact toNat_ofNat_byte (by omega) (by omega)
  | case4 n h₁ h₂ h₃ =>
    refine .four (by omega) (by omega) ?_ ?_ ?_ ?_ <;> exact toNat_ofNat_byte (by omega) (by omega)

/-- Of two characters, the lower one has the lower bytes, whatever comes behind. -/
theorem Encodes.append_lt_append {m n : Nat} {x y : Bytes} (hx : Encodes m x) (hy : Encodes n y)
    (h : m < n) (z w : Bytes) : x ++ z < y ++ w := by
  -- With numbers for bytes this is arithmetic, for each two lengths.
  cases hx <;> cases hy <;>
    simp only [List.cons_append, List.nil_append, List.cons_lt_cons_iff, UInt8.lt_iff_toNat_lt,
      ← UInt8.toNat_inj] <;>
    omega

/-! ## The bytes of a text -/

theorem flatMap_utf8EncodeChar_lt {a b : List Char} (h : a < b) :
    a.flatMap String.utf8EncodeChar < b.flatMap String.utf8EncodeChar := by
  induction a generalizing b with
  | nil =>
    cases b with
    | nil => exact absurd h (List.not_lt_nil [])
    | cons d b =>
      obtain ⟨x, rest, hd⟩ := List.exists_cons_of_ne_nil (String.utf8EncodeChar_ne_nil (c := d))
      rw [List.flatMap_cons, hd]
      exact List.nil_lt_cons x _
  | cons c a ih =>
    cases b with
    | nil => exact absurd h (List.not_lt_nil _)
    | cons d b =>
      rw [List.flatMap_cons, List.flatMap_cons]
      rcases List.cons_lt_cons_iff.mp h with hlt | ⟨rfl, hlt⟩
      · exact (encodes_utf8EncodeChar c).append_lt_append (encodes_utf8EncodeChar d) hlt _ _
      · exact List.append_left_lt (ih hlt)

/-- **The order of texts is the order of their bytes.** -/
theorem utf8_lt_utf8 {a b : String} : utf8 a < utf8 b ↔ a < b := by
  have hof : ∀ {a b : String}, a < b → utf8 a < utf8 b := fun h =>
    flatMap_utf8EncodeChar_lt (String.lt_iff.mp h)
  refine ⟨fun h => ?_, hof⟩
  rcases Std.lt_trichotomy a b with hlt | rfl | hgt
  · exact hlt
  · exact absurd h Std.lt_irrefl
  · exact absurd (Std.lt_trans h (hof hgt)) Std.lt_irrefl

end ObjectStore.Text
