import ObjectStore.Proofs.ByteOrder
import ObjectStore.WorkDir

/-!
# Paths below a work directory

A work directory is made from a text, and its own text makes it again. Below it paths and keys stand for
each other: each path has a key of its own, the keys with the stem in front are all keys of paths, and
they are in the order of their paths. The stem is taken away once, so a path may hold it again. A key
from elsewhere is its own path, and not found again from it.
-/

namespace ObjectStore

namespace WorkDir

variable {d : WorkDir} {text stem key : String}

/-! ## Directories from texts -/

theorem ofText_eq_ok_iff : ofText text = .ok d ↔ ∃ stem, text = "/" ++ stem ∧ d = ofStem stem := by
  rw [ofText]
  cases hafter : Text.after? "/" text with
  | none =>
    refine iff_of_false nofun ?_
    rintro ⟨stem, htext, -⟩
    rw [Text.after?_eq_some_iff.mpr htext] at hafter
    cases hafter
  | some stem =>
    obtain rfl := Text.after?_eq_some_iff.mp hafter
    simp only [Except.ok.injEq, String.append_right_inj]
    constructor
    · rintro rfl
      exact ⟨stem, rfl, rfl⟩
    · rintro ⟨_, rfl, rfl⟩
      rfl

theorem exists_ofText_iff : (∃ d, ofText text = .ok d) ↔ Text.startsWith "/" text = true := by
  rw [Text.startsWith_iff]
  constructor
  · rintro ⟨d, h⟩
    obtain ⟨stem, htext, -⟩ := ofText_eq_ok_iff.mp h
    exact ⟨stem, htext⟩
  · rintro ⟨stem, htext⟩
    exact ⟨ofStem stem, ofText_eq_ok_iff.mpr ⟨stem, htext, rfl⟩⟩

theorem ofStem_stem (d : WorkDir) : ofStem d.stem = d := dif_pos d.closed

/-- The text of a directory makes this directory. -/
theorem ofText_text (d : WorkDir) : ofText d.text = .ok d :=
  ofText_eq_ok_iff.mpr ⟨d.stem, rfl, d.ofStem_stem.symm⟩

/-- An absolute path ends with a slash if nothing is behind the first one, or if that ends with one. -/
theorem endsWith_slash_append_iff :
    Text.endsWith '/' ("/" ++ stem) = true ↔ stem = "" ∨ Text.endsWith '/' stem = true := by
  rw [Text.endsWith, Text.endsWith, String.toList_append, List.getLast?_append, beq_iff_eq,
    beq_iff_eq]
  cases hlast : stem.toList.getLast? with
  | none =>
    have hempty : stem = "" := String.toList_inj.mp (List.getLast?_eq_none_iff.mp hlast)
    simp [hempty]
  | some c =>
    have hne : stem ≠ "" := by
      rintro rfl
      cases hlast
    simp [hne]

theorem startsWith_text (d : WorkDir) : Text.startsWith "/" d.text = true :=
  Text.startsWith_iff.mpr ⟨d.stem, rfl⟩

theorem endsWith_text (d : WorkDir) : Text.endsWith '/' d.text = true :=
  endsWith_slash_append_iff.mpr d.closed

/-- The text of a directory is the one that it was made from, with a slash at the end. -/
theorem text_of_ofText (h : ofText text = .ok d) :
    d.text = if Text.endsWith '/' text then text else text ++ "/" := by
  obtain ⟨stem, rfl, rfl⟩ := ofText_eq_ok_iff.mp h
  simp only [endsWith_slash_append_iff, ofStem]
  split
  · rfl
  · exact String.append_assoc.symm

/-! ## Paths and keys -/

theorem keyOf_pathOf_iff : d.keyOf (d.pathOf key) = key ↔ Text.startsWith d.stem key = true := by
  constructor
  · exact fun h => Text.startsWith_iff.mpr ⟨d.pathOf key, h.symm⟩
  · intro h
    obtain ⟨path, rfl⟩ := Text.startsWith_iff.mp h
    exact congrArg d.keyOf (d.pathOf_keyOf path)

theorem keyOf_lt_keyOf {p q : String} : d.keyOf p < d.keyOf q ↔ p < q := by
  rw [String.lt_iff, String.lt_iff, keyOf, keyOf, String.toList_append, String.toList_append]
  induction d.stem.toList with
  | nil => rfl
  | cons c stem ih => rw [List.cons_append, List.cons_append, List.cons_lt_cons_self, ih]

/-- Keys of a directory are in order just if their paths are. -/
theorem pairwise_pathOf_iff {keys : List String}
    (hkeys : ∀ key ∈ keys, Text.startsWith d.stem key = true) :
    (keys.map d.pathOf).Pairwise (· < ·) ↔ keys.Pairwise (· < ·) := by
  rw [List.pairwise_map]
  refine List.Pairwise.iff_of_mem fun {k l} hk hl => ?_
  rw [← keyOf_lt_keyOf (d := d), keyOf_pathOf_iff.mpr (hkeys k hk), keyOf_pathOf_iff.mpr (hkeys l hl)]

end WorkDir

/-- **Paths and keys of a work directory stand for each other.** A text makes a directory just if it
starts with a slash, and the text of this directory, which has a slash at both ends, makes it again.
Each path is found again from its key, no two paths have one key, and a key is found again from its path
just if it starts with the stem. Keys and paths are in one order, also by their bytes, so a listing that
goes through keys in order goes through paths in order. -/
theorem paths_stand_for_keys (text : String) :
    ((∃ d, WorkDir.ofText text = .ok d) ↔ Text.startsWith "/" text = true) ∧
      ∀ d, WorkDir.ofText text = .ok d →
        (d.text = (if Text.endsWith '/' text then text else text ++ "/") ∧
          Text.startsWith "/" d.text = true ∧ Text.endsWith '/' d.text = true ∧
          WorkDir.ofText d.text = .ok d) ∧
        (∀ path, d.pathOf (d.keyOf path) = path) ∧
        (∀ p q, d.keyOf p = d.keyOf q → p = q) ∧
        (∀ key, d.keyOf (d.pathOf key) = key ↔ Text.startsWith d.stem key = true) ∧
        (∀ p q, Text.utf8 (d.keyOf p) < Text.utf8 (d.keyOf q) ↔ Text.utf8 p < Text.utf8 q) ∧
        ∀ keys : List String, (∀ key ∈ keys, Text.startsWith d.stem key = true) →
          (keys.Pairwise (· < ·) ↔
            (keys.map d.pathOf).Pairwise fun p q => Text.utf8 p < Text.utf8 q) := by
  refine ⟨WorkDir.exists_ofText_iff, fun d h => ⟨?_, d.pathOf_keyOf, ?_, ?_, ?_, ?_⟩⟩
  · exact ⟨WorkDir.text_of_ofText h, d.startsWith_text, d.endsWith_text, d.ofText_text⟩
  · exact fun p q => (String.append_right_inj d.stem).mp
  · exact fun key => WorkDir.keyOf_pathOf_iff
  · intro p q
    rw [Text.utf8_lt_utf8, Text.utf8_lt_utf8, WorkDir.keyOf_lt_keyOf]
  · intro keys hkeys
    simp only [Text.utf8_lt_utf8]
    exact (WorkDir.pairwise_pathOf_iff hkeys).symm

/-- A path that starts with the stem again: one stem is put in front and one is taken away. -/
theorem paths_stand_for_keys_stem_again :
    ∃ d, WorkDir.ofText "/data" = .ok d ∧ d.text = "/data/" ∧
      d.keyOf "data/é" = "data/data/é" ∧ d.pathOf "data/data/é" = "data/é" ∧
      d.keyOf (d.pathOf "other/é") ≠ "other/é" ∧
      (∀ key ∈ ["data/data/z", "data/data/é"], Text.startsWith d.stem key = true) ∧
      (["data/data/z", "data/data/é"].map d.pathOf).Pairwise fun p q =>
        Text.utf8 p < Text.utf8 q := by
  obtain ⟨hmade, hdir⟩ := paths_stand_for_keys "/data"
  have hmake : WorkDir.ofText "/data" = .ok (.ofStem "data") :=
    WorkDir.ofText_eq_ok_iff.mpr ⟨"data", by decide +kernel, rfl⟩
  obtain ⟨⟨htext, -⟩, hpath, -, hkey, -, horder⟩ := hdir _ hmake
  have hkeys : ∀ key ∈ ["data/data/z", "data/data/é"],
      Text.startsWith (WorkDir.ofStem "data").stem key = true := by decide +kernel
  have hascend : ["data/data/z", "data/data/é"].Pairwise (· < ·) := by decide +kernel
  refine ⟨_, hmake, htext.trans (by decide +kernel), by decide +kernel, hpath "data/é",
    fun hsame => ?_, hkeys, (horder _ hkeys).mp hascend⟩
  exact absurd ((hkey "other/é").mp hsame) (by decide +kernel)

end ObjectStore
