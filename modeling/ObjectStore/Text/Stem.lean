/-!
# Stems and marks

A text starts with a *stem* when it is the stem followed by a rest, and `dropStem?` finds that rest.
A *mark* is a text looked for inside another one: `throughMark?` gives the text up to the end of the
first mark, `cutAt?` the two sides of the first occurrence of one character.

The functions work on lists of characters; each has a form on `String`, with the same law stated
through `++`.
-/

namespace ObjectStore.Text

/-- The rest of a text after a stem, if the text starts with it. -/
def dropStem? : List Char → List Char → Option (List Char)
  | [], text => some text
  | _ :: _, [] => none
  | s :: stem, c :: text => if s = c then dropStem? stem text else none

/-- `dropStem?` is the inverse of putting the stem in front. -/
theorem dropStem?_eq_some_iff {stem text rest : List Char} :
    dropStem? stem text = some rest ↔ text = stem ++ rest := by
  induction stem generalizing text with
  | nil => simp [dropStem?]
  | cons s stem ih =>
    cases text with
    | nil => simp [dropStem?]
    | cons c text =>
      simp only [dropStem?, List.cons_append, List.cons.injEq]
      split
      · rename_i h; simp [ih, h]
      · rename_i h; simp [Ne.symm h]

/-- The text up to the end of the first `mark` in it, if there is one. -/
def throughMark? (mark : List Char) : List Char → Option (List Char)
  | [] => if mark = [] then some [] else none
  | c :: text =>
    match dropStem? mark (c :: text) with
    | some _ => some mark
    | none => (throughMark? mark text).map (c :: ·)

/-- The two sides of the first `c`, if there is one. -/
def cutAt? (c : Char) : List Char → Option (List Char × List Char)
  | [] => none
  | d :: text => if d = c then some ([], text) else (cutAt? c text).map fun p => (d :: p.1, p.2)

/-! ## On strings -/

/-- The rest of `text` after `stem`, if `text` starts with it. -/
def after? (stem text : String) : Option String :=
  (dropStem? stem.toList text.toList).map String.ofList

/-- Whether `text` starts with `stem`. -/
def startsWith (stem text : String) : Bool := (after? stem text).isSome

/-- Whether `c` is the last character of `text`. -/
def endsWith (c : Char) (text : String) : Bool := text.toList.getLast? == some c

theorem after?_eq_some_iff {stem text rest : String} :
    after? stem text = some rest ↔ text = stem ++ rest := by
  simp only [after?, Option.map_eq_some_iff, dropStem?_eq_some_iff]
  constructor
  · rintro ⟨r, h, rfl⟩
    exact String.toList_inj.mp (by simp [h])
  · rintro rfl
    exact ⟨rest.toList, by simp, by simp⟩

theorem startsWith_iff {stem text : String} :
    startsWith stem text = true ↔ ∃ rest, text = stem ++ rest := by
  simp [startsWith, Option.isSome_iff_exists, after?_eq_some_iff]

end ObjectStore.Text
