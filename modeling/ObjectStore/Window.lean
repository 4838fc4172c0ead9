import ObjectStore.Fault

/-!
# Windows

A window says which part of a body is read: where it starts and how many bytes it has. It is sent as
a range of offsets with both ends included. A window without a start begins at zero, one without a
size ends with the body.
-/

namespace ObjectStore

/-- A part of a body. -/
structure Window where
  offset : Option UInt64 := none
  size : Option UInt64 := none
  deriving DecidableEq

namespace Window

/-- Whether the window is sure to hold nothing. -/
def isEmpty (w : Window) : Bool := w.size == some 0

/-- The offset of the last byte of a window of `size` bytes, as far as 64 bits can hold it. -/
def lastByte (start size : UInt64) : UInt64 := start + (if size = 0 then 0 else size - 1)

/-- The window as a range, none for the whole body. It is an error if the last byte of the window
has no offset of 64 bits, which shows by the sum falling below the start. -/
def range (w : Window) : Except Error (Option String) :=
  match w.offset, w.size with
  | none, none => .ok none
  | some offset, none => .ok (some s!"bytes={offset}-")
  | offset, some size =>
    let start := offset.getD 0
    let last := lastByte start size
    if last < start then .error (.windowOverflow start size)
    else .ok (some s!"bytes={start}-{last}")

/-- The sum falls below the start just when the last byte has no offset of 64 bits. -/
theorem lastByte_lt_iff {start size : UInt64} (h : size ≠ 0) :
    lastByte start size < start ↔ UInt64.size ≤ start.toNat + (size.toNat - 1) := by
  have hs : size.toNat ≠ 0 := fun h0 => h (UInt64.toNat_inj.mp h0)
  have h₁ := start.toNat_lt
  have h₂ := size.toNat_lt
  have h₃ : (size - 1).toNat = size.toNat - 1 := by
    rw [UInt64.toNat_sub_of_le _ _ (UInt64.le_iff_toNat_le.mpr (by simp; omega))]
    simp
  rw [lastByte, if_neg h, UInt64.lt_iff_toNat_lt, UInt64.toNat_add, h₃, UInt64.size]
  omega

end Window

end ObjectStore
