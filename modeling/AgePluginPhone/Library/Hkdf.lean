import AgePluginPhone.Library.Cbor

/-!
# HKDF

Extract-and-expand key derivation for outputs of one HMAC block.
-/

namespace AgePluginPhone.Library

/-- HKDF with the given HMAC, for an output as long as one HMAC value. -/
def hkdf (hmac : List Byte → List Byte → Bytes 32) (salt secret info : List Byte) : Bytes 32 :=
  hmac (hmac salt secret) (info ++ [1])

/-- The first block of HKDF expansion. -/
def hkdfExpand (hmac : List Byte → List Byte → Bytes 32) (key info : List Byte) : Bytes 32 :=
  hmac key (info ++ [1])

def Bytes.leading (n rest : ℕ) (bytes : Bytes (n + rest)) : Bytes n :=
  ⟨bytes.1.take n, by simp [bytes.2]⟩

end AgePluginPhone.Library
