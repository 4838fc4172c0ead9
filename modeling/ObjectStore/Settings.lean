import ObjectStore.Bytes.Basic
import ObjectStore.Encryption
import ObjectStore.Fault
import ObjectStore.Text.Blank
import ObjectStore.Text.Numeral
import ObjectStore.WorkDir

/-!
# Settings

What is needed to mount a bucket: its name, the work directory, the number of entries of a page of a
listing, and what is asked for when an object is stored without a choice of its own. `check` says
whether settings can be used and gives the work directory they name; of several faults the bucket's
is reported first, then the page size's, then the work directory's.

Settings can also be read from environment variables. Blanks around a value do not count; a value
that is blank, or is no text, counts as unset.
-/

namespace ObjectStore

/-- How a bucket is to be mounted; nothing is checked yet. -/
structure Settings where
  bucket : String
  workDir : String := "/"
  pageSize : Int32 := 200
  storageClass : Option String := none
  encryption : Option Encryption := none
  deriving DecidableEq

namespace Settings

/-- The largest number of entries of a page. -/
def largestPage : Int32 := 1000

/-- Whether settings can be used, and the work directory they name. -/
def check (c : Settings) : Except Error WorkDir :=
  if Text.allBlank c.bucket then .error .bucketBlank
  else if c.pageSize < 1 ∨ largestPage < c.pageSize then
    .error (.pageSizeRange largestPage c.pageSize)
  else WorkDir.ofText c.workDir

/-- The environment variable for the bucket. Without it there are no settings. -/
def bucketVariable : String := "STOWAGE_BUCKET"

/-- The environment variable for the work directory. -/
def workDirVariable : String := "STOWAGE_WORK_DIR"

/-- The environment variable for the page size. -/
def pageSizeVariable : String := "STOWAGE_PAGE_SIZE"

/-- The environment variable for the storage class. -/
def storageClassVariable : String := "STOWAGE_STORAGE_CLASS"

/-- The values of environment variables, as far as they are set. -/
abbrev Environment := String → Option Bytes

/-- The value of a variable that is set to a text with something in it. -/
def Environment.value? (env : Environment) (name : String) : Option String := do
  let bytes ← env name
  let text ← String.fromUTF8? ⟨bytes.toArray⟩
  let text := Text.trim text
  if text = "" then none else some text

/-- The page size that a value of the environment stands for. -/
def pageSizeOfText (text : String) : Except Error Int32 :=
  match Text.Numeral.int32 text with
  | .ok n => .ok n
  | .error flaw => .error (.settings s!"invalid {pageSizeVariable} `{text}`: {flaw.message}")

/-- The settings that the environment describes, checked; none if it names no bucket. -/
def ofEnvironment (env : Environment) : Except Error (Option Settings) :=
  match env.value? bucketVariable with
  | none => .ok none
  | some bucket => do
    let base : Settings := { bucket }
    let workDir := (env.value? workDirVariable).getD base.workDir
    let pageSize ← (env.value? pageSizeVariable).elim (.ok base.pageSize) pageSizeOfText
    let settings : Settings :=
      { bucket, workDir, pageSize, storageClass := env.value? storageClassVariable }
    let _ ← settings.check
    return some settings

end Settings

end ObjectStore
