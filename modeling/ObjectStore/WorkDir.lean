import ObjectStore.Fault
import ObjectStore.Text.Stem

/-!
# Work directories

A work directory is an absolute directory under which paths are read. Its *stem*, the text after the
first slash, stands in front of every key below it: the key of a path is the stem and the path, and
the path of a key is what is left when the stem is taken away. Keys from elsewhere are their own
path. A stem is empty or ends with a slash, so a directory is always a whole step of a path.
-/

namespace ObjectStore

/-- A directory that paths start from. -/
structure WorkDir where
  /-- What all keys below the directory start with. -/
  stem : String
  closed : stem = "" ∨ Text.endsWith '/' stem = true
  deriving DecidableEq

namespace WorkDir

/-- The directory at the top. -/
def root : WorkDir := ⟨"", .inl rfl⟩

instance : Inhabited WorkDir := ⟨root⟩

/-- The directory as an absolute path. -/
def text (d : WorkDir) : String := "/" ++ d.stem

/-- The directory whose stem is this text, with a slash at the end if it lacks one. -/
def ofStem (stem : String) : WorkDir :=
  if h : stem = "" ∨ Text.endsWith '/' stem = true then ⟨stem, h⟩
  else ⟨stem ++ "/", .inr (by simp [Text.endsWith])⟩

/-- The directory of an absolute path; a slash at the end may be left out. -/
def ofText (text : String) : Except Error WorkDir :=
  match Text.after? "/" text with
  | some stem => .ok (ofStem stem)
  | none => .error (.workDirNotAbsolute text)

/-- The key of a path. -/
def keyOf (d : WorkDir) (path : String) : String := d.stem ++ path

/-- The path of a key. -/
def pathOf (d : WorkDir) (key : String) : String := (Text.after? d.stem key).getD key

/-- A path is found again from its key. -/
@[simp] theorem pathOf_keyOf (d : WorkDir) (path : String) :
    d.pathOf (d.keyOf path) = path := by
  simp [pathOf, keyOf, Text.after?_eq_some_iff.mpr rfl]

end WorkDir

end ObjectStore
