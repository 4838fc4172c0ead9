import ObjectStore.Bytes.Base64
import ObjectStore.Bytes.Md5
import ObjectStore.Fault
import ObjectStore.Text.Inspect

/-!
# Customer keys

A customer key is a secret of 32 bytes that the owner of an object hands to the backend with every
request for it. The backend keeps a *stamp* of it, the algorithm and the MD5 of the key, and lets a
request pass whose key has the same MD5. The inspection text shows the stamp and never the secret.
-/

namespace ObjectStore

/-- The algorithm for which keys are made if no other is named. -/
def aes256Algorithm : String := "AES256"

/-- A secret for the encryption of objects, with the algorithm it is meant for. -/
structure CustomerKey where
  algorithm : String
  secret : Bytes
  length_secret : secret.length = 32
  deriving DecidableEq

/-- What a backend keeps of a customer key. -/
structure KeyStamp where
  algorithm : String
  md5 : String
  deriving DecidableEq

namespace CustomerKey

/-- The number of bytes of a key. -/
def size : Nat := 32

/-- A secret has not the number of bytes that a key has. -/
structure WrongLength where
  length : Nat
  deriving DecidableEq

/-- The wording of the refusal. -/
def WrongLength.message (e : WrongLength) : String :=
  s!"invalid key length: expected 32 bytes, got {e.length}"

/-- The refusal as an error of an operation. -/
def WrongLength.toError (e : WrongLength) : Error := .customerKeyLength e.length

/-- The key with this secret. -/
def ofSecret (algorithm : String) (secret : Bytes) : Except WrongLength CustomerKey :=
  if h : secret.length = 32 then .ok ⟨algorithm, secret, h⟩ else .error ⟨secret.length⟩

/-- The secret as it is sent. -/
def secretText (k : CustomerKey) : String := Bytes.base64 k.secret

/-- The MD5 of the secret as it is sent. -/
def secretMd5 (k : CustomerKey) : String := Bytes.base64 (md5 k.secret)

/-- What the backend keeps of the key. -/
def stamp (k : CustomerKey) : KeyStamp := ⟨k.algorithm, k.secretMd5⟩

/-- The inspection text, with a fixed word in place of the secret. -/
def inspect (k : CustomerKey) : String :=
  Text.record "CustomerKey"
    [("algorithm", Text.quote k.algorithm), ("key", Text.quote "<redacted>"),
      ("key_md5", Text.quote k.secretMd5)]

end CustomerKey

end ObjectStore
