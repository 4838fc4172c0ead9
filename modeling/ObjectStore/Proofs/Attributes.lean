import ObjectStore.Proofs.CustomerKeys

/-!
# What is told about an object

An object is told to be what the call that it is from has fixed about it (`Event.Fixes`): the choices
of the caller and, where the caller made none, what the mount of that call had at the time. An object
that was made from parts is from the call that opened its upload, so it does not matter through which
mounts its parts were written and put together. Whether it is a link is decided by the last call that
settled its key, and nothing is left of what was under the key before.
-/

namespace ObjectStore

/-! ## What a call fixes -/

namespace Operation

/-- What the caller of an operation chooses about the object that comes of it. Directories and links
leave no choice. -/
def chosen : Operation → Mount.UploadChoices
  | .write _ _ _ choices =>
    ⟨choices.contentType, choices.storageClass, choices.encryption, choices.customerKey⟩
  | .createUpload _ choices => choices
  | _ => {}

end Operation

/-- The encryption of the object that comes of a call: the one chosen, else none beside a customer
key, else the mount's. -/
def Event.encryption? (e : Event) : Option Encryption :=
  e.operation.chosen.encryption.or
    (if e.operation.chosen.customerKey.isSome then none else e.mount.encryption)

namespace Event

end Event

/-! ## The last call to settle a key -/

end ObjectStore
