/-!
# Encryption by the backend

How the backend encrypts an object at rest: with a key of its own, or with one from a key management
service.
-/

namespace ObjectStore

/-- The encryption that a backend is asked for. -/
inductive Encryption where
  /-- A key of the backend. -/
  | aes256
  /-- A key of the key management service, by default the bucket's. -/
  | kms (keyId context : Option String) (bucketKeyEnabled : Bool)
  deriving DecidableEq

namespace Encryption

/-- The name under which the backend reports the encryption. -/
def algorithm : Encryption → String
  | aes256 => "AES256"
  | kms .. => "aws:kms"

/-- The key of the key management service, if one is named. -/
def kmsKeyId? : Encryption → Option String
  | aes256 => none
  | kms keyId _ _ => keyId

/-- Whether the bucket's key is used; only the key management service has one. -/
def bucketKey? : Encryption → Option Bool
  | aes256 => none
  | kms _ _ enabled => some enabled

end Encryption

end ObjectStore
