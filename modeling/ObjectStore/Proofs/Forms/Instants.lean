import ObjectStore.Instant.Text

/-!
# Written instants are read back

An instant is written as numbers between marks, and a number that is written stands for itself whatever
zeros are put in front (`standsFor_padded`). The reader takes such a number up to its full width or up to
the mark behind it, and finds in each field what was written there. A leap second goes through second 60
and back, and universal time takes no minutes away, so the fields make the same instant again
(`ofText?_text`).
-/

namespace ObjectStore

theorem Calendar.daysIn_le (year : Int) (month : Nat) : daysIn year month ≤ 31 := by
  unfold daysIn
  split
  · split <;> omega
  all_goals omega

namespace Instant

/-! ## Digits -/

namespace Reader

theorem not_isBlank_of_isDigit {c : Char} (h : c.isDigit = true) : Text.isBlank c = false := by
  obtain ⟨hlow, hhigh⟩ := Char.isDigit_iff_toNat.mp h
  have hlow : 48 ≤ c.toNat := hlow
  have hhigh : c.toNat ≤ 57 := hhigh
  simp only [Text.isBlank, Bool.or_eq_false_iff, Bool.and_eq_false_iff, decide_eq_false_iff_not,
    beq_eq_false_iff_ne]
  omega

/-- That digits stand for a number. -/
structure StandsFor (ds : List Char) (n : Nat) : Prop where
  ne_nil : ds ≠ []
  isDigit : ∀ c ∈ ds, c.isDigit = true
  value_eq : value ds = n

namespace StandsFor

variable {ds : List Char} {n : Nat}

/-- No blank is passed over in front of digits. -/
theorem trimStart (h : StandsFor ds n) (rest : List Char) :
    Text.trimStart (ds ++ rest) = ds ++ rest := by
  obtain ⟨c, ds, rfl⟩ := List.exists_cons_of_ne_nil h.ne_nil
  have hc := not_isBlank_of_isDigit (h.isDigit c List.mem_cons_self)
  rw [Text.trimStart, List.cons_append, List.dropWhile_cons_of_neg (by simp [hc])]

/-- Digits that are as many as may be taken are taken. -/
theorem digits?_full (h : StandsFor ds n) (rest : List Char) :
    digits? ds.length (ds ++ rest) = some (n, rest) := by
  have hall : (ds ++ []).takeWhile Char.isDigit = ds ++ [] := List.takeWhile_append_of_pos h.isDigit
  rw [List.append_nil] at hall
  rw [digits?, List.take_left, hall, if_neg h.ne_nil, h.value_eq, List.drop_left]

/-- Digits are taken up to a mark, however many there are. -/
theorem digits?_marked (h : StandsFor ds n) (mark : Char) (hmark : mark.isDigit = false)
    (rest : List Char) :
    digits? (ds ++ mark :: rest).length (ds ++ mark :: rest) = some (n, mark :: rest) := by
  have hall : (ds ++ mark :: rest).takeWhile Char.isDigit = ds := by
    rw [List.takeWhile_append_of_pos h.isDigit, List.takeWhile_cons_of_neg (by simp [hmark]),
      List.append_nil]
  rw [digits?, List.take_length, hall, if_neg h.ne_nil, h.value_eq, List.drop_left]

end StandsFor

end Reader

/-! ## Numbers with zeros in front -/

theorem toList_padded (width n : Nat) :
    (padded width n).toList =
      List.replicate (width - (Nat.toDigits 10 n).length) '0' ++ Nat.toDigits 10 n :=
  String.toList_ofList

/-- A number with zeros in front stands for the number. -/
theorem standsFor_padded (width n : Nat) : Reader.StandsFor (padded width n).toList n where
  ne_nil h := by
    rw [toList_padded] at h
    exact Nat.toDigits_ne_nil (List.append_eq_nil_iff.mp h).2
  isDigit c hc := by
    rw [toList_padded] at hc
    rcases List.mem_append.mp hc with hzero | hdigit
    · rw [List.eq_of_mem_replicate hzero]
      decide
    · exact Nat.isDigit_of_mem_toDigits (by omega) (by omega) hdigit
  value_eq := by
    have hvalue : Reader.value (padded width n).toList =
        Nat.ofDigitChars 10 (padded width n).toList 0 := rfl
    rw [hvalue, toList_padded, Nat.ofDigitChars_append, Nat.ofDigitChars_replicate_zero,
      Nat.mul_zero, Nat.ofDigitChars_ten_toDigits]

/-- A number that is not too large gets just the width asked for. -/
theorem length_padded {width n : Nat} (hwidth : 0 < width) (hn : n < Nat.pow 10 width) :
    (padded width n).toList.length = width := by
  have hlength : (Nat.toDigits 10 n).length ≤ width :=
    (Nat.length_toDigits_le_iff (by omega) hwidth).mpr hn
  rw [toList_padded, List.length_append, List.length_replicate]
  omega

/-! ## Fields -/

namespace Reader

/-- A mark is read that no blank stands before. -/
theorem mark?_trimStart {c : Char} (hc : Text.isBlank c = false) (rest : List Char) :
    mark? c (Text.trimStart (c :: rest)) = some rest := by
  rw [Text.trimStart, List.dropWhile_cons_of_neg (by simp [hc])]
  exact if_pos rfl

/-- A number of two digits is read back as a field. -/
theorem field?_padded {n : Nat} (hn : n < 100) (rest : List Char) :
    field? ((padded 2 n).toList ++ rest) = some (n, rest) := by
  have hwidth : (padded 2 n).toList.length = 2 := length_padded (by omega) hn
  have hread := (standsFor_padded 2 n).digits?_full rest
  rw [hwidth] at hread
  rw [field?, (standsFor_padded 2 n).trimStart, hread]

/-- Four digits are read as a year without a sign. -/
theorem StandsFor.year? {ds : List Char} {n : Nat} (h : StandsFor ds n) (hwidth : ds.length = 4)
    (rest : List Char) : Reader.year? (ds ++ rest) = some ((n : Int), rest) := by
  have hread := h.digits?_full rest
  rw [hwidth] at hread
  have hdigit (c : Char) (tail : List Char) (heq : ds ++ rest = c :: tail) : c.isDigit = true := by
    obtain ⟨d, ds, rfl⟩ := List.exists_cons_of_ne_nil h.ne_nil
    obtain ⟨rfl, -⟩ := List.cons.inj heq
    exact h.isDigit d List.mem_cons_self
  rw [Reader.year?, h.trimStart]
  split
  · exact absurd (hdigit _ _ ‹_›) (by decide)
  · exact absurd (hdigit _ _ ‹_›) (by decide)
  · rw [hread]
    rfl

/-- Digits up to the next mark are read as a year behind a sign. -/
theorem StandsFor.year?_signed {ds : List Char} {n : Nat} (h : StandsFor ds n) (rest : List Char) :
    Reader.year? ('+' :: (ds ++ '-' :: rest)) = some ((n : Int), '-' :: rest) ∧
      Reader.year? ('-' :: (ds ++ '-' :: rest)) = some (-(n : Int), '-' :: rest) := by
  have hread := h.digits?_marked '-' (by decide) rest
  have hplus (tail : List Char) : Text.trimStart ('+' :: tail) = '+' :: tail :=
    List.dropWhile_cons_of_neg (by decide)
  have hminus (tail : List Char) : Text.trimStart ('-' :: tail) = '-' :: tail :=
    List.dropWhile_cons_of_neg (by decide)
  constructor
  · simp only [Reader.year?, hplus, hread, Option.map_some]
  · simp only [Reader.year?, hminus, hread, Option.map_some]

/-- A year is read back, with its sign if it has one. -/
theorem year?_yearText (year : Int) (rest : List Char) :
    year? ((yearText year).toList ++ '-' :: rest) = some (year, '-' :: rest) := by
  cases year with
  | ofNat n =>
    rw [yearText]
    split
    · rename_i hn
      have hwidth : (padded 4 n).toList.length = 4 :=
        length_padded (by omega) (Nat.lt_of_le_of_lt hn (by decide))
      exact (standsFor_padded 4 n).year? hwidth _
    · have hplus : "+".toList = ['+'] := rfl
      rw [String.toList_append, hplus]
      exact ((standsFor_padded 4 n).year?_signed rest).1
  | negSucc n =>
    have hminus : "-".toList = ['-'] := rfl
    rw [yearText, String.toList_append, hminus]
    exact ((standsFor_padded 4 (n + 1)).year?_signed rest).2

/-- Digits behind a point count from the left, up to the mark behind them. -/
theorem StandsFor.fraction? {ds : List Char} {n : Nat} (h : StandsFor ds n) (hwidth : ds.length ≤ 9)
    (mark : Char) (hmark : mark.isDigit = false) (rest : List Char) :
    Reader.fraction? ('.' :: (ds ++ mark :: rest)) =
      some (n * Nat.pow 10 (9 - ds.length), mark :: rest) := by
  have hnone (k : Nat) : ((mark :: rest).take k).takeWhile Char.isDigit = [] := by
    cases k with
    | zero => rfl
    | succ k => rw [List.take_succ_cons, List.takeWhile_cons_of_neg (by simp [hmark])]
  have htaken : ((ds ++ mark :: rest).take 9).takeWhile Char.isDigit = ds := by
    rw [List.take_append, List.take_of_length_le hwidth, List.takeWhile_append_of_pos h.isDigit,
      hnone, List.append_nil]
  have hleft : (ds ++ mark :: rest).dropWhile Char.isDigit = mark :: rest := by
    rw [List.dropWhile_append_of_pos h.isDigit, List.dropWhile_cons_of_neg (by simp [hmark])]
  rw [Reader.fraction?, htaken, if_neg h.ne_nil, h.value_eq, hleft]

/-- A fraction of a second is read back, with the digits that are left out. -/
theorem fraction?_fractionText {nano : Nat} (h : nano < nanosPerSecond) (rest : List Char) :
    fraction? ((fractionText nano).toList ++ 'Z' :: rest) = some (nano, 'Z' :: rest) := by
  -- The digits that are written, and the zeros that are left out behind them.
  have hwritten (width n zeros : Nat) (hpos : 0 < width) (hwidth : width ≤ 9)
      (hn : n < Nat.pow 10 width) (hzeros : Nat.pow 10 (9 - width) = zeros)
      (hvalue : n * zeros = nano) :
      fraction? (("." ++ padded width n).toList ++ 'Z' :: rest) = some (nano, 'Z' :: rest) := by
    have hlength : (padded width n).toList.length = width := length_padded hpos hn
    have hread := (standsFor_padded width n).fraction? (by omega) 'Z' (by decide) rest
    have hpoint : ".".toList = ['.'] := rfl
    rw [hlength, hzeros, hvalue] at hread
    rw [String.toList_append, hpoint]
    exact hread
  rw [nanosPerSecond] at h
  rw [fractionText]
  split
  · rename_i hzero
    rw [hzero]
    rfl
  · split
    · exact hwritten 3 (nano / 1000000) 1000000 (by omega) (by omega) (Nat.div_lt_of_lt_mul h) rfl
        (by omega)
    · split
      · exact hwritten 6 (nano / 1000) 1000 (by omega) (by omega) (Nat.div_lt_of_lt_mul h) rfl
          (by omega)
      · exact hwritten 9 nano 1 (by omega) (by omega) h rfl (by omega)

end Reader

/-! ## Instants -/

/-- Nothing changes where clocks show universal time. -/
theorem behind?_zero (t : Instant) : t.behind? 0 = some t := by
  obtain ⟨hhour, hminute, -⟩ := t.time_lt
  have hminutes : ((t.hour * 60 + t.minute - 0 : Int) % 1440).toNat = t.hour * 60 + t.minute := by
    omega
  simp only [behind?, hminutes]
  rw [if_neg (by omega), if_pos (by omega),
    show (t.hour * 60 + t.minute) / 60 = t.hour by omega,
    show (t.hour * 60 + t.minute) % 60 = t.minute by omega]
  exact t.ofFields?_self

/-- The second that is written is 60 just for a leap second, and the fields come back from it. -/
theorem ofFields?_written (t : Instant) :
    (if t.second + t.nano / nanosPerSecond = 60 then
      ofFields? t.year t.month t.day t.hour t.minute 59
        (nanosPerSecond + t.nano % nanosPerSecond)
    else ofFields? t.year t.month t.day t.hour t.minute (t.second + t.nano / nanosPerSecond)
      (t.nano % nanosPerSecond)) = some t := by
  obtain ⟨-, -, hsecond⟩ := t.time_lt
  rcases t.nano_lt with hnano | ⟨hlast, hnano⟩
  · rw [Nat.div_eq_of_lt hnano, Nat.mod_eq_of_lt hnano, Nat.add_zero,
      if_neg (Nat.ne_of_lt hsecond)]
    exact t.ofFields?_self
  · by_cases hleap : t.nano < nanosPerSecond
    · rw [Nat.div_eq_of_lt hleap, Nat.mod_eq_of_lt hleap, Nat.add_zero,
        if_neg (Nat.ne_of_lt hsecond)]
      exact t.ofFields?_self
    · have hdiv : t.nano / nanosPerSecond = 1 := by
        rw [nanosPerSecond] at *
        omega
      have hmod : nanosPerSecond + t.nano % nanosPerSecond = t.nano := by
        rw [nanosPerSecond] at *
        omega
      rw [hdiv, hlast, if_pos rfl, hmod]
      have hself := t.ofFields?_self
      rwa [hlast] at hself

/-- The text of an instant, field by field. -/
theorem toList_text (t : Instant) :
    t.text.toList = (yearText t.year).toList ++ '-' :: ((padded 2 t.month).toList ++
      '-' :: ((padded 2 t.day).toList ++ 'T' :: ((padded 2 t.hour).toList ++
        ':' :: ((padded 2 t.minute).toList ++
          ':' :: ((padded 2 (t.second + t.nano / nanosPerSecond)).toList ++
            ((fractionText (t.nano % nanosPerSecond)).toList ++ ['Z'])))))) := by
  have hdash : "-".toList = ['-'] := rfl
  have hcolon : ":".toList = [':'] := rfl
  have htime : "T".toList = ['T'] := rfl
  have hzone : "Z".toList = ['Z'] := rfl
  simp only [text, String.toList_append, List.append_assoc, hdash, hcolon, htime, hzone,
    List.cons_append, List.nil_append]

/-- Goes on after a step of reading. -/
theorem bind_of_eq_some {α β : Type} {x : Option α} {f : α → Option β} {a : α} {b : β}
    (hx : x = some a) (hf : f a = some b) : (x >>= f) = some b := by
  rw [hx]
  exact hf

/-- **An instant is read back from its text.** -/
theorem ofText?_text (t : Instant) : ofText? t.text = some t := by
  obtain ⟨hhour, hminute, hsecond⟩ := t.time_lt
  obtain ⟨-, hmonth⟩ := t.month_mem
  have hday : t.day < 100 := by
    have hlast := Calendar.daysIn_le t.year t.month
    have hday := t.day_mem.2
    omega
  have hwritten : t.second + t.nano / nanosPerSecond < 100 := by
    have hnano := t.nano_lt
    rw [nanosPerSecond] at *
    omega
  have hnano : t.nano % nanosPerSecond < nanosPerSecond := Nat.mod_lt _ (by decide)
  rw [ofText?, toList_text]
  refine bind_of_eq_some (Reader.year?_yearText t.year _) ?_
  refine bind_of_eq_some (Reader.mark?_trimStart (by decide) _) ?_
  refine bind_of_eq_some (Reader.field?_padded (by omega) _) ?_
  refine bind_of_eq_some (Reader.mark?_trimStart (by decide) _) ?_
  refine bind_of_eq_some (Reader.field?_padded hday _) ?_
  refine bind_of_eq_some rfl ?_
  refine bind_of_eq_some (Reader.field?_padded (by omega) _) ?_
  refine bind_of_eq_some (Reader.mark?_trimStart (by decide) _) ?_
  refine bind_of_eq_some (Reader.field?_padded (by omega) _) ?_
  refine bind_of_eq_some (Reader.mark?_trimStart (by decide) _) ?_
  refine bind_of_eq_some (Reader.field?_padded hwritten _) ?_
  refine bind_of_eq_some (Reader.fraction?_fractionText hnano _) ?_
  refine bind_of_eq_some rfl ?_
  refine (if_neg (not_not_intro rfl)).trans ?_
  have hfields := ofFields?_written t
  split at hfields <;> rename_i hleap
  · rw [if_pos hleap]
    exact bind_of_eq_some hfields t.behind?_zero
  · rw [if_neg hleap]
    exact bind_of_eq_some hfields t.behind?_zero

example : (ofText? "2016-12-31 23:59:60.5z").map text = some "2016-12-31T23:59:60.500Z" := by
  decide +kernel

end Instant

end ObjectStore
