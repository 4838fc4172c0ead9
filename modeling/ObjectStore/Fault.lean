/-!
# Faults and errors

A *fault* is what a backend answers instead of a result: a code, a text, and sometimes an HTTP
status. An *error* is what an operation of this library ends with. Three kinds of error carry a
fault, sorted by its code (`Error.ofFault`); all others are *local*: they are found before a backend
is asked.

The wording of every error is in `Error.message`, and the reasons that fill it are named here, one
definition each.
-/

namespace ObjectStore

/-- A backend's refusal. -/
structure Fault where
  code : String
  message : String
  status : Option UInt16 := none
  deriving DecidableEq

/-- A fault with an HTTP status. -/
def Fault.http (code : String) (status : UInt16) (message : String) : Fault :=
  ⟨code, message, some status⟩

/-- The fault in one line: code, status if any, text. -/
def Fault.text (f : Fault) : String :=
  match f.status with
  | some status => s!"{f.code} ({status}): {f.message}"
  | none => s!"{f.code}: {f.message}"

/-- What a fault code tells about the thing asked for. -/
inductive Fault.Cause where
  /-- It is not there. -/
  | missing
  /-- The caller may not have it. -/
  | denied
  /-- Anything else. -/
  | other
  deriving DecidableEq

/-- The codes that say a key or an upload is not there. -/
def Fault.missingCodes : List String := ["NoSuchKey", "NoSuchUpload", "NotFound"]

/-- The codes that say the caller lacks the right or the credentials. -/
def Fault.deniedCodes : List String :=
  ["AccessDenied", "Forbidden", "AllAccessDisabled", "InvalidAccessKeyId", "SignatureDoesNotMatch"]

/-- The cause behind a fault, by its code alone. -/
def Fault.cause (f : Fault) : Fault.Cause :=
  if f.code ∈ missingCodes then .missing else if f.code ∈ deniedCodes then .denied else .other

/-- Why an operation did not succeed. -/
inductive Error where
  /-- A customer key has a wrong number of bytes. -/
  | customerKeyLength (length : Nat)
  /-- The object at `path` is not an open upload. -/
  | notMultipart (path : String)
  /-- The object at `path` is an open upload without its id. -/
  | uploadIdMissing (path : String)
  /-- The backend does not have what was asked for. -/
  | notFound (fault : Fault)
  /-- The backend refused the caller. -/
  | denied (fault : Fault)
  /-- The backend failed in another way, or answered out of form. -/
  | unexpected (fault : Fault)
  /-- A kind of listing is unknown, or cannot be listed. -/
  | listingKind (text : String)
  /-- An argument breaks a rule. -/
  | argument (reason : String)
  /-- Settings break a rule. -/
  | settings (reason : String)
  deriving DecidableEq

namespace Error

/-- The error for a fault. -/
def ofFault (f : Fault) : Error :=
  match f.cause with
  | .missing => .notFound f
  | .denied => .denied f
  | .other => .unexpected f

/-- The error for an answer that is out of form. -/
def malformed (reason : String) : Error := .unexpected ⟨"MalformedResponse", reason, none⟩

/-- The fault that an error carries. -/
def fault? : Error → Option Fault
  | .notFound f | .denied f | .unexpected f => some f
  | _ => none

/-- Whether an error was found without a backend's answer. -/
def isLocal (e : Error) : Bool := e.fault?.isNone

/-- Whether an error says that a thing is not there. -/
def isMissing : Error → Bool
  | .notFound _ => true
  | _ => false

/-- The wording of an error. -/
def message : Error → String
  | .customerKeyLength n => s!"invalid encryption customer key: expected 32 bytes, got {n}"
  | .notMultipart path => s!"object is not a multipart object: {path}"
  | .uploadIdMissing path => s!"multipart upload id missing: {path}"
  | .notFound f => s!"object not exist: {f.text}"
  | .denied f => s!"permission denied: {f.text}"
  | .unexpected f => s!"unexpected backend fault: {f.text}"
  | .listingKind text => s!"invalid list mode: {text}"
  | .argument reason => s!"invalid argument: {reason}"
  | .settings reason => s!"invalid config: {reason}"

/-- The error for a fault carries just that fault. -/
@[simp] theorem fault?_ofFault (f : Fault) : (ofFault f).fault? = some f := by
  unfold ofFault; split <;> rfl

@[simp] theorem isLocal_ofFault (f : Fault) : (ofFault f).isLocal = false := by simp [isLocal]

theorem isMissing_ofFault (f : Fault) : (ofFault f).isMissing ↔ f.code ∈ Fault.missingCodes := by
  unfold ofFault Fault.cause
  by_cases h : f.code ∈ Fault.missingCodes
  · simp [h, isMissing]
  · by_cases h' : f.code ∈ Fault.deniedCodes <;> simp [h, h', isMissing]

end Error

/-- Taking away what is not there is no failure. -/
def ignoreMissing : Except Error Unit → Except Error Unit
  | .error e => if e.isMissing then .ok () else .error e
  | .ok () => .ok ()

/-! ## Reasons -/

namespace Error

/-- A window of a body ends above the largest offset. -/
def windowOverflow (offset size : UInt64) : Error :=
  .argument s!"read window at offset {offset} with size {size} overflows"

/-- A write is larger than one request may carry. -/
def writeTooLarge (size most : UInt64) : Error :=
  .argument s!"write size {size} exceeds maximum {most}"

/-- A part is larger than one request may carry. -/
def partTooLarge (size most : UInt64) : Error :=
  .argument s!"part size {size} exceeds maximum {most}"

/-- The size announced for a payload is not the one it has. -/
def sizeMismatch (declared : UInt64) (length : Nat) : Error :=
  .argument s!"declared size {declared} does not match payload length {length}"

/-- An encryption was chosen together with a customer key. -/
def encryptionConflict : Error :=
  .argument "server side encryption and customer key are mutually exclusive"

/-- A part index has no part number. -/
def partIndexRange (index : UInt32) (bound : Nat) : Error :=
  .argument s!"part index {index} out of range 0..{bound}"

/-- An upload cannot be completed from no parts. -/
def noParts : Error := .argument "complete multipart requires at least one part"

/-- The parts of an upload are not given in ascending order. -/
def partOrder : Error := .argument "parts must be in strictly ascending index order"

/-- A bucket name holds nothing but blanks. -/
def bucketBlank : Error := .settings "bucket name is empty"

/-- A page size is outside its bounds. -/
def pageSizeRange (most given : Int32) : Error :=
  .settings s!"page size must be within 1..={most}, got {given}"

/-- A work directory does not start at the root. -/
def workDirNotAbsolute (text : String) : Error := .settings s!"work dir must be absolute: {text}"

/-- The backend opened an upload without saying its id. -/
def uploadIdNotReturned : Error := malformed "create multipart returned no upload id"

/-- The backend took a part without saying its entity tag. -/
def partEtagNotReturned : Error := malformed "upload part returned no etag"

/-- A page of objects promises more but does not say where it starts. -/
def objectTokenMissing : Error :=
  malformed "truncated object listing without a continuation token"

/-- A page of uploads promises more but does not say where it starts. -/
def uploadMarkerMissing : Error := malformed "truncated upload listing without a key marker"

/-- A page of parts promises more but does not say where it starts. -/
def partMarkerMissing : Error := malformed "truncated part listing without a part number marker"

/-- A part number has no part index. -/
def partNumberRange (number : Int32) : Error := malformed s!"part number {number} out of range"

end Error

end ObjectStore
