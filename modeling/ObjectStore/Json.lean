/-!
# JSON values and records

The JSON values that records are written as, and the reading of a record's fields.

A record may be given as an object, where the fields are found by name and unknown ones do not
matter, or as an array of its fields in their order, where none may be left over. A field is read in
one of four ways, which differ in what may stand for it when it is left out:

* `required`: it must be there and must not be null unless its own reader takes null;
* `nullable`: null stands for nothing, and so does leaving it out of an object (not of an array);
* `omissible`: null and leaving it out both stand for nothing;
* `defaulted`: leaving it out stands for a given value, null does not.
-/

namespace ObjectStore

/-- A JSON value. Numbers that are not written as integers are kept apart from integers, also when
their value is whole. -/
inductive Json where
  | null
  | bool (b : Bool)
  | int (n : Int)
  /-- The number `mantissa / 10 ^ places`, written with a point or an exponent. -/
  | decimal (mantissa : Int) (places : Nat)
  | text (s : String)
  | array (items : List Json)
  | object (fields : List (String × Json))

namespace Json

instance : Inhabited Json := ⟨null⟩

/-! ## Readers of single values -/

/-- A text. -/
def text? : Json → Option String
  | text s => some s
  | _ => none

/-- A truth value. -/
def bool? : Json → Option Bool
  | bool b => some b
  | _ => none

/-- An integer from 0 to below `bound`. -/
def natBelow? (bound : Nat) : Json → Option Nat
  | int (.ofNat n) => if n < bound then some n else none
  | _ => none

/-- An integer of 8 bits without sign. -/
def uint8? (j : Json) : Option UInt8 := (j.natBelow? UInt8.size).map UInt8.ofNat

/-- An integer of 16 bits without sign. -/
def uint16? (j : Json) : Option UInt16 := (j.natBelow? UInt16.size).map UInt16.ofNat

/-- An integer of 32 bits without sign. -/
def uint32? (j : Json) : Option UInt32 := (j.natBelow? UInt32.size).map UInt32.ofNat

/-- An integer of 64 bits without sign. -/
def uint64? (j : Json) : Option UInt64 := (j.natBelow? UInt64.size).map UInt64.ofNat

/-- An integer of 32 bits with sign. -/
def int32? : Json → Option Int32
  | int n => if (Int32.ofInt n).toInt = n then some (Int32.ofInt n) else none
  | _ => none

/-- Null as nothing, anything else by `read`. -/
def option? {α : Type} (read : Json → Option α) : Json → Option (Option α)
  | null => some none
  | j => (read j).map some

/-! ## Fields of a record -/

/-- The fields of a record that can still be read. -/
inductive Fields where
  /-- Fields of an object, by name. -/
  | named (fields : List (String × Json))
  /-- Elements of an array, in order. -/
  | listed (items : List Json)

/-- The value under a name. -/
def field? (name : String) : List (String × Json) → Option Json
  | [] => none
  | (n, j) :: rest => if n = name then some j else field? name rest

/-- A step of reading a record: a value, or failure. -/
abbrev FieldReader (α : Type) := StateT Fields Option α

/-- The next field: the one with this name, or the next element. `none` if it is left out. -/
def take (name : String) : FieldReader (Option Json) := fun fields =>
  match fields with
  | .named fs => some (field? name fs, .named fs)
  | .listed [] => some (none, .listed [])
  | .listed (j :: items) => some (some j, .listed items)

/-- A field that must be there. -/
def required {α : Type} (name : String) (read : Json → Option α) : FieldReader α := do
  match ← take name with
  | some j => StateT.lift (read j)
  | none => failure

/-- A field that may be left out, in which case it has the value `value`. -/
def defaulted {α : Type} (name : String) (value : α) (read : Json → Option α) : FieldReader α := do
  match ← take name with
  | some j => StateT.lift (read j)
  | none => pure value

/-- A field that may be null or left out. -/
def omissible {α : Type} (name : String) (read : Json → Option α) : FieldReader (Option α) :=
  defaulted name none (option? read)

/-- A field that may be null, or left out of an object. -/
def nullable {α : Type} (name : String) (read : Json → Option α) : FieldReader (Option α) :=
  fun fields =>
    match fields with
    | .named _ => omissible name read fields
    | .listed _ => required name (option? read) fields

/-- Reads a record from its fields; elements of an array that no field takes are an error. -/
def readFields {α : Type} (reader : FieldReader α) (fields : Fields) : Option α :=
  match reader fields with
  | some (a, .named _) | some (a, .listed []) => some a
  | _ => none

/-- Reads a record from an object or an array. -/
def readRecord {α : Type} (reader : FieldReader α) : Json → Option α
  | object fields => readFields reader (.named fields)
  | array items => readFields reader (.listed items)
  | _ => none

/-! ## Writers -/

/-- A value that may be missing, as null. -/
def ofOption {α : Type} (write : α → Json) : Option α → Json
  | none => null
  | some a => write a

/-- A field that is written only if it has a value. -/
def whenSet {α : Type} (name : String) (write : α → Json) : Option α → List (String × Json)
  | none => []
  | some a => [(name, write a)]

/-- A number without sign. -/
def ofNat (n : Nat) : Json := int n

/-! ## What is written is read

Each reader takes back what its writer makes, and a field is found in a record whichever of the
fields before it are written. -/

theorem natBelow?_ofNat {bound n : Nat} (h : n < bound) : natBelow? bound (ofNat n) = some n := by
  simp [natBelow?, ofNat, h]

@[simp] theorem text?_text (s : String) : text? (text s) = some s := rfl

@[simp] theorem bool?_bool (b : Bool) : bool? (bool b) = some b := rfl

@[simp] theorem uint8?_ofNat (n : UInt8) : uint8? (ofNat n.toNat) = some n := by
  simp [uint8?, natBelow?_ofNat n.toNat_lt]

@[simp] theorem uint16?_ofNat (n : UInt16) : uint16? (ofNat n.toNat) = some n := by
  simp [uint16?, natBelow?_ofNat n.toNat_lt]

@[simp] theorem uint32?_ofNat (n : UInt32) : uint32? (ofNat n.toNat) = some n := by
  simp [uint32?, natBelow?_ofNat n.toNat_lt]

@[simp] theorem uint64?_ofNat (n : UInt64) : uint64? (ofNat n.toNat) = some n := by
  simp [uint64?, natBelow?_ofNat n.toNat_lt]

@[simp] theorem int32?_int (n : Int32) : int32? (int n.toInt) = some n := by
  simp [int32?]

@[simp] theorem field?_nil (name : String) : field? name [] = none := rfl

@[simp] theorem field?_cons (name n : String) (j : Json) (rest : List (String × Json)) :
    field? name ((n, j) :: rest) = if n = name then some j else field? name rest := rfl

@[simp] theorem field?_append (name : String) (xs ys : List (String × Json)) :
    field? name (xs ++ ys) = (field? name xs).or (field? name ys) := by
  induction xs with
  | nil => rfl
  | cons x xs ih =>
    simp only [List.cons_append, field?]
    split <;> simp [ih]

@[simp] theorem field?_whenSet {α : Type} (name n : String) (write : α → Json) (a : Option α) :
    field? name (whenSet n write a) = if n = name then a.map write else none := by
  cases a <;> simp [whenSet, field?]

end Json

end ObjectStore
