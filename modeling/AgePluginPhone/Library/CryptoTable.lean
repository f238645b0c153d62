import AgePluginPhone.Library.P256Point

/-!
# Cryptography by tables

Hashing, signatures, key agreement and authenticated encryption whose values come from finite
tables. Whatever the tables hold, both parties to a key agreement compute the same secret and
what was sealed is opened again.
-/

namespace AgePluginPhone.Library

open P256

structure CryptoTable where
  digests : List (List Byte × ℕ)
  /-- Keys, digests and signatures. -/
  signatures : List (Point × Bytes 32 × Bytes 64)
  /-- Pairs of points and the secret their owners share. -/
  secrets : List (Point × Point × ℕ)
  macs : List (List Byte × List Byte × ℕ)
  /-- Keys and the beginning of their key streams. -/
  streams : List (Bytes 32 × ℕ)
  /-- Keys, associated data, ciphertexts and tags. -/
  tags : List (Bytes 32 × List Byte × List Byte × ℕ)

def number (width n : ℕ) : Bytes width := ⟨Cbor.bigEndian width n, Cbor.bigEndian_length width n⟩

namespace CryptoTable

/-- The value the first matching entry gives, or zero. -/
def valueOf {α : Type} (entries : List (α × ℕ)) (found : α → Bool) : ℕ :=
  ((entries.find? fun entry => found entry.1).map Prod.snd).getD 0

variable (t : CryptoTable)

def sha256 (input : List Byte) : Bytes 32 := number 32 (valueOf t.digests (· = input))

def verify (key : Point) (digest : Bytes 32) (signature : Bytes 64) : Bool :=
  t.signatures.any fun entry => entry.1 = key && (entry.2.1 = digest && entry.2.2 = signature)

def agree (own peer : Point) : Bytes 32 :=
  number 32 (((t.secrets.find? fun entry => (entry.1 = own && entry.2.1 = peer) ||
    (entry.1 = peer && entry.2.1 = own)).map fun entry => entry.2.2).getD 0)

def hmac (key message : List Byte) : Bytes 32 :=
  number 32 (((t.macs.find? fun entry => entry.1 = key && entry.2.1 = message).map
    fun entry => entry.2.2).getD 0)

def streamByte (key : Bytes 32) (i : ℕ) : Byte :=
  (Cbor.bigEndian 16 (valueOf t.streams (· = key))).getD i 0

def tagOf (key : Bytes 32) (aad ciphertext : List Byte) : Bytes 16 :=
  number 16 (((t.tags.find? fun entry => entry.1 = key && (entry.2.1 = aad &&
    entry.2.2.1 = ciphertext)).map fun entry => entry.2.2.2).getD 0)

/-- Add the key stream to a message. -/
def mask (key : Bytes 32) (message : List Byte) : List Byte :=
  message.mapIdx fun i b => b ^^^ t.streamByte key i

def sealMessage (key : Bytes 32) (aad message : List Byte) : List Byte :=
  let ciphertext := t.mask key message
  ciphertext ++ (t.tagOf key aad ciphertext).1

def openMessage (key : Bytes 32) (aad ciphertext : List Byte) : Option (List Byte) :=
  let body := ciphertext.take (ciphertext.length - 16)
  if ciphertext = body ++ (t.tagOf key aad body).1 then some (t.mask key body) else none

theorem agree_comm (own peer : Point) : t.agree own peer = t.agree peer own := by
  simp only [agree, Bool.or_comm]

private theorem xor_xor (a b : Byte) : (a ^^^ b) ^^^ b = a := by
  have hxor (c d : Byte) : (c ^^^ d).val = c.val ^^^ d.val := by
    exact Nat.mod_eq_of_lt (Nat.xor_lt_two_pow (n := 8) c.isLt d.isLt)
  apply Fin.ext
  rw [hxor, hxor, Nat.xor_assoc, Nat.xor_self, Nat.xor_zero]

theorem mask_mask (key : Bytes 32) (message : List Byte) :
    t.mask key (t.mask key message) = message := by
  apply List.ext_getElem
  · simp [mask]
  · intro i _ _
    simp [mask, xor_xor]

theorem sealMessage_length (key : Bytes 32) (aad message : List Byte) :
    (t.sealMessage key aad message).length = message.length + 16 := by
  simp [sealMessage, mask, (t.tagOf key aad _).2]

theorem openMessage_eq_some {key : Bytes 32} {aad ciphertext message : List Byte} :
    t.openMessage key aad ciphertext = some message ↔ ciphertext = t.sealMessage key aad message := by
  have htake (body : List Byte) : (body ++ (t.tagOf key aad body).1).take
      ((body ++ (t.tagOf key aad body).1).length - 16) = body := by
    rw [List.length_append, (t.tagOf key aad body).2, Nat.add_sub_cancel, List.take_left]
  simp only [openMessage, Option.ite_none_right_eq_some, Option.some.injEq]
  constructor
  · intro hparts
    obtain ⟨hciphertext, hmessage⟩ := hparts
    rw [sealMessage, ← hmessage, mask_mask]
    exact hciphertext
  · intro hciphertext
    rw [hciphertext, sealMessage, htake, mask_mask]
    exact ⟨rfl, rfl⟩

end CryptoTable

end AgePluginPhone.Library
