import ObjectStore.Json.Forms
import ObjectStore.Mount.Uploads
import ObjectStore.Proofs.Forms.Instants

/-!
# Written records are read back

A record is written field by field, and its reader takes each field from where it was written. So it is
enough to know, for each of the ways in which a field is written, that the reader that goes with it
finds the value (`Json.Finds`): a field that is always there, one that is null when it has no value, and
one that is left out then. The readers of whole records follow by going through their fields in turn.
-/

namespace ObjectStore

namespace Json

/-! ## Readers of fields -/

section Finds

variable {α β : Type} {name : String} {fields : List (String × Json)}

/-- That a reader finds a value among the fields of an object. -/
def Finds (reader : FieldReader α) (fields : List (String × Json)) (a : α) : Prop :=
  reader.run (.named fields) = some (a, .named fields)

theorem finds_pure (a : α) : Finds (pure a) fields a := rfl

/-- One reader after another. -/
theorem Finds.bind {x : FieldReader α} {f : α → FieldReader β} {a : α} {b : β}
    (hx : Finds x fields a) (hf : Finds (f a) fields b) : Finds (x >>= f) fields b := by
  rw [Finds, StateT.run_bind, hx]
  exact hf

/-- What is found among all fields is what an object is read as. -/
theorem readRecord_object {reader : FieldReader α} {a : α} (h : Finds reader fields a) :
    readRecord reader (.object fields) = some a := by
  have hread : reader (.named fields) = some (a, .named fields) := h
  rw [readRecord, readFields, hread]

theorem finds_take (name : String) : Finds (take name) fields (field? name fields) := rfl

/-- A field that is there. -/
theorem finds_required {read : Json → Option α} {j : Json} {a : α}
    (hfield : field? name fields = some j) (hread : read j = some a) :
    Finds (required name read) fields a := by
  refine (finds_take name).bind ?_
  rw [hfield]
  simp only [Finds, StateT.run_lift, hread]
  rfl

/-- A field that could be left out, and is there. -/
theorem finds_defaulted {read : Json → Option α} {j : Json} {value a : α}
    (hfield : field? name fields = some j) (hread : read j = some a) :
    Finds (defaulted name value read) fields a := by
  refine (finds_take name).bind ?_
  rw [hfield]
  simp only [Finds, StateT.run_lift, hread]
  rfl

/-- A field that is left out. -/
theorem finds_default {read : Json → Option α} {value : α} (hfield : field? name fields = none) :
    Finds (defaulted name value read) fields value := by
  refine (finds_take name).bind ?_
  rw [hfield]
  exact finds_pure value

/-- A field that is written only if it has a value. -/
theorem finds_omissible {read : Json → Option α} (write : α → Json) {a : Option α}
    (hfield : field? name fields = a.map write)
    (hread : ∀ x, option? read (write x) = some (some x)) :
    Finds (omissible name read) fields a := by
  cases a with
  | none => exact finds_default hfield
  | some x => exact finds_defaulted hfield (hread x)

/-- A field that is written as null if it has no value. -/
theorem finds_nullable {read : Json → Option α} (write : α → Json) {a : Option α}
    (hfield : field? name fields = some (ofOption write a))
    (hread : ∀ x, option? read (write x) = some (some x)) :
    Finds (nullable name read) fields a := by
  have hfinds : Finds (omissible name read) fields a := by
    cases a with
    | none => exact finds_defaulted hfield rfl
    | some x => exact finds_defaulted hfield (hread x)
  exact hfinds

end Finds

/-- What is not written as null is read as a value. -/
theorem option?_of_ne_null {α : Type} {read : Json → Option α} {j : Json} {a : α} (hj : j ≠ null)
    (hread : read j = some a) : option? read j = some (some a) := by
  cases j with
  | null => exact absurd rfl hj
  | _ => simp only [option?, hread, Option.map_some]

/-- A text that is written only if it is set. -/
theorem finds_text {name : String} {fields : List (String × Json)} {a : Option String}
    (hfield : field? name fields = a.map .text) : Finds (omissible name text?) fields a :=
  finds_omissible .text hfield fun _ => rfl

/-- A text that is written as null if it is not set. -/
theorem finds_nullable_text {name : String} {fields : List (String × Json)} {a : Option String}
    (hfield : field? name fields = some (ofOption .text a)) :
    Finds (nullable name text?) fields a :=
  finds_nullable .text hfield fun _ => rfl

end Json

open Json

/-! ## Faults, modes and parts -/

theorem Fault.ofJson?_toJson (f : Fault) : ofJson? f.toJson = some f := by
  refine readRecord_object ?_
  refine Finds.bind (finds_required rfl (text?_text f.code)) ?_
  refine Finds.bind (finds_required rfl (text?_text f.message)) ?_
  refine Finds.bind (finds_nullable (fun s : UInt16 => ofNat s.toNat) rfl fun s => ?_) ?_
  · exact option?_of_ne_null nofun (uint16?_ofNat s)
  · exact finds_pure f

theorem Mode.ofJson?_toJson (m : Mode) : ofJson? m.toJson = some m := by
  rw [ofJson?, toJson, uint8?_ofNat]
  rfl

theorem Part.ofJson?_toJson (p : Part) : ofJson? p.toJson = some p := by
  refine readRecord_object ?_
  refine Finds.bind (finds_required rfl (uint32?_ofNat p.index)) ?_
  refine Finds.bind (finds_required rfl (uint64?_ofNat p.size)) ?_
  refine Finds.bind (finds_required rfl (text?_text p.etag)) ?_
  exact finds_pure p

/-! ## Objects -/

theorem Metadata.ofJson?_toJson (m : Metadata) : ofJson? m.toJson = some m := by
  refine readRecord_object ?_
  refine Finds.bind (finds_text (a := m.storageClass) (by simp)) ?_
  refine Finds.bind (finds_text (a := m.encryption) (by simp)) ?_
  refine Finds.bind (finds_text (a := m.kmsKeyId) (by simp)) ?_
  refine Finds.bind (finds_omissible .bool (a := m.bucketKeyEnabled) (by simp) fun _ => rfl) ?_
  refine Finds.bind (finds_text (a := m.customerAlgorithm) (by simp)) ?_
  refine Finds.bind (finds_text (a := m.customerKeyMd5) (by simp)) ?_
  refine Finds.bind (finds_text (a := m.checksumSha256) (by simp)) ?_
  exact finds_pure m

theorem Instant.ofJson?_toJson (t : Instant) : ofJson? t.toJson = some t := by
  rw [ofJson?, toJson, text?_text, Option.bind_some, t.ofText?_text]

theorem Object.ofJson?_toJson (o : Object) : ofJson? o.toJson = some o := by
  refine readRecord_object ?_
  refine Finds.bind (finds_required rfl (text?_text o.id)) ?_
  refine Finds.bind (finds_required rfl (text?_text o.path)) ?_
  refine Finds.bind (finds_required rfl o.mode.ofJson?_toJson) ?_
  refine Finds.bind (finds_nullable (fun n : UInt64 => ofNat n.toNat) rfl fun n => ?_) ?_
  · exact option?_of_ne_null nofun (uint64?_ofNat n)
  refine Finds.bind (finds_nullable_text rfl) ?_
  refine Finds.bind (finds_nullable Instant.toJson rfl fun t => ?_) ?_
  · exact option?_of_ne_null nofun t.ofJson?_toJson
  refine Finds.bind (finds_nullable_text rfl) ?_
  refine Finds.bind (finds_defaulted rfl o.metadata.ofJson?_toJson) ?_
  refine Finds.bind (finds_text (a := o.linkTarget) (by simp)) ?_
  refine Finds.bind (finds_text (a := o.uploadId) (by simp)) ?_
  exact finds_pure o

/-! ## Encryptions and settings -/

theorem Encryption.ofJson?_toJson (e : Encryption) : ofJson? e.toJson = some e := by
  cases e with
  | aes256 =>
    refine readRecord_object ?_
    refine Finds.bind (finds_required rfl (text?_text "aes256")) ?_
    exact finds_pure _
  | kms keyId context enabled =>
    refine readRecord_object ?_
    refine Finds.bind (finds_required rfl (text?_text "kms")) ?_
    refine Finds.bind (finds_text (a := keyId) (by simp)) ?_
    refine Finds.bind (finds_text (a := context) (by simp)) ?_
    refine Finds.bind (finds_defaulted (j := .bool enabled) (by simp) (bool?_bool enabled)) ?_
    exact finds_pure _

theorem Encryption.toJson_ne_null (e : Encryption) : e.toJson ≠ .null := by
  cases e <;> simp [toJson]

theorem Settings.ofJson?_toJson (c : Settings) : ofJson? c.toJson = some c := by
  refine readRecord_object ?_
  refine Finds.bind (finds_required rfl (text?_text c.bucket)) ?_
  refine Finds.bind (finds_defaulted rfl (text?_text c.workDir)) ?_
  refine Finds.bind (finds_defaulted rfl (int32?_int c.pageSize)) ?_
  refine Finds.bind (finds_text (a := c.storageClass) (by simp)) ?_
  refine Finds.bind (finds_omissible Encryption.toJson (a := c.encryption) (by simp) fun e => ?_) ?_
  · exact option?_of_ne_null e.toJson_ne_null e.ofJson?_toJson
  exact finds_pure c

/-! ## All forms -/

/-- That what is written of a record is read back as the same record, and that an upload that was read
back is the same to every operation on its parts. -/
structure FormsReadBack : Prop where
  fault : ∀ f : Fault, Fault.ofJson? f.toJson = some f
  mode : ∀ m : Mode, Mode.ofJson? m.toJson = some m
  part : ∀ p : Part, Part.ofJson? p.toJson = some p
  metadata : ∀ m : Metadata, Metadata.ofJson? m.toJson = some m
  instant : ∀ t : Instant, Instant.ofJson? t.toJson = some t
  object : ∀ o : Object, Object.ofJson? o.toJson = some o
  encryption : ∀ e : Encryption, Encryption.ofJson? e.toJson = some e
  settings : ∀ c : Settings, Settings.ofJson? c.toJson = some c
  uploads : ∀ (m : Mount) (o o' : Object), Object.ofJson? o.toJson = some o' →
    m.writePart o' = m.writePart o ∧ m.completeUpload o' = m.completeUpload o ∧
      m.abortUpload o' = m.abortUpload o ∧ m.listParts o' = m.listParts o

/-- **What is written is read back.** -/
theorem forms_read_back : FormsReadBack where
  fault := Fault.ofJson?_toJson
  mode := Mode.ofJson?_toJson
  part := Part.ofJson?_toJson
  metadata := Metadata.ofJson?_toJson
  instant := Instant.ofJson?_toJson
  object := Object.ofJson?_toJson
  encryption := Encryption.ofJson?_toJson
  settings := Settings.ofJson?_toJson
  uploads m o o' h := by
    obtain rfl : o = o' := Option.some.inj (o.ofJson?_toJson.symm.trans h)
    exact ⟨rfl, rfl, rfl, rfl⟩

end ObjectStore
