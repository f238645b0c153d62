import AgePluginPhone.Core.Protocol
import AgePluginPhone.Library.Base64
import AgePluginPhone.Library.Bech32
import AgePluginPhone.Library.P256

/-!
# Recipients and stanzas

The crates the desktop rests on, strict parsing of phone recipients, and the public structure of a
recipient stanza.
-/

namespace AgePluginPhone.Core

open Library P256

inductive Variant
  | bech32
  | bech32m
  deriving DecidableEq

def recipientHrp : String := "age1phone"

/-- What the protocol takes from the `p256`, `sha2`, `hmac`, `chacha20poly1305` and `bech32`
crates. `fromSec1Bytes` serves `PublicKey` and `VerifyingKey`; on 33 bytes it takes the tags of
a compressed point and that of a compact one, and only the former determine the encoding. -/
structure Crates where
  PublicKey : Type
  [decEq : DecidableEq PublicKey]
  SecretKey : Type
  /-- `to_encoded_point(false)`. -/
  uncompressedPoint : PublicKey → Bytes 65
  fromSec1Bytes : List Byte → Option PublicKey
  fromSec1Bytes_uncompressed : ∀ key, fromSec1Bytes (uncompressedPoint key) = some key
  fromSec1Bytes_compressed : ∀ key, fromSec1Bytes (compress (uncompressedPoint key)) = some key
  compressed_fromSec1Bytes : ∀ (bytes : EncodedPublicKey) key, fromSec1Bytes bytes = some key →
    IsCompressed bytes → compress (uncompressedPoint key) = bytes
  tag_fromSec1Bytes : ∀ (bytes : EncodedPublicKey) key, fromSec1Bytes bytes = some key →
    IsCompressed bytes ∨ bytes.1.head? = some 5
  publicKey : SecretKey → PublicKey
  /-- The raw shared secret. -/
  diffieHellman : SecretKey → PublicKey → Bytes 32
  diffieHellman_comm : ∀ a b, diffieHellman a (publicKey b) = diffieHellman b (publicKey a)
  /-- `false` also for bytes that are no pair of scalars in range. -/
  verifyPrehash : PublicKey → ProtocolDigest → Bytes 64 → Bool
  sha256 : List Byte → ProtocolDigest
  hmacSha256 : List Byte → List Byte → Bytes 32
  /-- ChaCha20-Poly1305 with key, nonce and associated data. -/
  encrypt : Bytes 32 → Bytes 12 → List Byte → List Byte → List Byte
  decrypt : Bytes 32 → Bytes 12 → List Byte → List Byte → Option (List Byte)
  encrypt_length : ∀ key nonce aad msg, (encrypt key nonce aad msg).length = msg.length + 16
  decrypt_eq_some : ∀ key nonce aad ciphertext msg,
    decrypt key nonce aad ciphertext = some msg ↔ ciphertext = encrypt key nonce aad msg
  bech32Decode : String → Option (String × List ℕ × Variant)
  bech32Decode_encode : ∀ words, (∀ d ∈ words, d < 32) →
    bech32Decode (Bech32.encode recipientHrp words) = some (recipientHrp, words, .bech32)

attribute [instance] Crates.decEq

inductive RecipientError
  | nonCanonicalRecipient
  | wrongRecipientHrp
  | unsupportedRecipientVersion
  | invalidRecipientLength
  | invalidPublicKey
  | unknownStanzaType
  | invalidStanzaArguments
  | invalidEphemeralEncoding
  | invalidBodyLength
  deriving DecidableEq

structure TaggedStanza where
  tag : String
  args : List String
  body : List Byte
  deriving DecidableEq

def compressedPointBytes : ℕ := 33

def stanzaBodyBytes : ℕ := 32

variable (C : Crates)

/-- `to_encoded_point(true)`. -/
def encodePublic (key : C.PublicKey) : EncodedPublicKey := compress (C.uncompressedPoint key)

namespace Recipient

def fromPublicKeyBytes (bytes : List Byte) : Except RecipientError C.PublicKey := do
  ensure (bytes.length = compressedPointBytes ∧ (bytes.head? = some 2 ∨ bytes.head? = some 3))
    .invalidPublicKey
  let publicKey ← okOr (C.fromSec1Bytes bytes) .invalidPublicKey
  ensure ((encodePublic C publicKey).1 = bytes) .invalidPublicKey
  return publicKey

def toString (key : C.PublicKey) : String :=
  Bech32.encode recipientHrp (Bech32.wordsOf (1 :: (encodePublic C key).1))

def toAsciiLowercase (text : String) : String := String.ofList (text.toList.map Char.toLower)

def parse (text : String) : Except RecipientError C.PublicKey := do
  ensure (text = toAsciiLowercase text) .nonCanonicalRecipient
  let (hrp, data, variant) ← okOr (C.bech32Decode text) .nonCanonicalRecipient
  ensure (hrp = recipientHrp ∧ variant = .bech32) .wrongRecipientHrp
  let payload ← okOr (BitGroups.exact 5 8 data) .nonCanonicalRecipient
  ensure (payload.length = 1 + compressedPointBytes) .invalidRecipientLength
  ensure (payload.head? = some 1) .unsupportedRecipientVersion
  let recipient ← fromPublicKeyBytes C (payload.tail.map Cbor.byte)
  ensure (toString C recipient = text) .nonCanonicalRecipient
  return recipient

end Recipient

section Stanzas

def decodeBase64Exact (value : String) (expectedLen : ℕ) : Except RecipientError (List Byte) := do
  let decoded ← okOr (Base64.decode value) .invalidEphemeralEncoding
  ensure (decoded.length = expectedLen ∧ Base64.encode decoded = value) .invalidEphemeralEncoding
  return decoded

inductive StanzaVersion
  | v1
  | v2
  deriving DecidableEq

structure ParsedStanza where
  version : StanzaVersion
  ephemeral : C.PublicKey
  ephemeralBytes : List Byte
  selection : Option (List Byte)
  body : List Byte

def stanzaTag : String := "phone-p256-v1"

def stanzaTagV2 : String := "phone-p256-v2"

/-- The tag, argument and selector of a `phone-p256` stanza. -/
def stanzaVersion (stanza : TaggedStanza) :
    Except RecipientError (StanzaVersion × String × Option (List Byte)) :=
  if stanza.tag = stanzaTag then
    match stanza.args with
    | [argument] => .ok (.v1, argument, none)
    | _ => .error .invalidStanzaArguments
  else if stanza.tag = stanzaTagV2 then
    match stanza.args with
    | [argument, selection] => do
        let decoded ← decodeBase64Exact selection stanzaBodyBytes
        return (.v2, argument, some decoded)
    | _ => .error .invalidStanzaArguments
  else .error .unknownStanzaType

def ParsedStanza.parse (stanza : TaggedStanza) : Except RecipientError (ParsedStanza C) := do
  let (version, argument, selection) ← stanzaVersion stanza
  ensure (stanza.body.length = stanzaBodyBytes) .invalidBodyLength
  let decoded ← okOr (Base64.decode argument) .invalidEphemeralEncoding
  ensure (Base64.encode decoded = argument) .invalidEphemeralEncoding
  let recipient ← (Recipient.fromPublicKeyBytes C decoded).mapError fun _ => .invalidEphemeralEncoding
  return ⟨version, recipient, decoded, selection, stanza.body⟩

namespace Tag

def stanzaTag : String := "p256tag"

/-- Strict structure of a native tagged stanza, by its encapsulated key. -/
def parse (stanza : TaggedStanza) : Except RecipientError C.PublicKey := do
  ensure (stanza.tag = stanzaTag) .unknownStanzaType
  match stanza.args with
  | [tag, enc] => do
      let _ ← decodeBase64Exact tag 4
      let enc ← decodeBase64Exact enc 65
      ensure (stanza.body.length = 32) .invalidBodyLength
      ensure (enc.head? = some 4) .invalidPublicKey
      let key ← okOr (C.fromSec1Bytes enc) .invalidPublicKey
      ensure ((C.uncompressedPoint key).1 = enc) .invalidPublicKey
      return key
  | _ => .error .invalidStanzaArguments

end Tag

def validateStanza (stanza : TaggedStanza) : Except RecipientError Unit :=
  if stanza.tag = Tag.stanzaTag then (Tag.parse C stanza).map fun _ => ()
  else (ParsedStanza.parse C stanza).map fun _ => ()

end Stanzas

section Specifications

variable {C}

theorem encodePublic_isCompressed (key : C.PublicKey) : IsCompressed (encodePublic C key) :=
  compress_isCompressed _

theorem encodePublic_injective : Function.Injective (encodePublic C) := by
  intro a b h
  have ha := C.fromSec1Bytes_compressed a
  rw [show compress (C.uncompressedPoint a) = compress (C.uncompressedPoint b) from h,
    C.fromSec1Bytes_compressed b] at ha
  exact (Option.some.inj ha).symm

/-- Exactly the canonical compressed points are accepted. -/
theorem fromPublicKeyBytes_eq_ok {bytes : List Byte} {key : C.PublicKey} :
    Recipient.fromPublicKeyBytes C bytes = .ok key ↔ bytes = (encodePublic C key).1 := by
  simp only [Recipient.fromPublicKeyBytes, bind_eq_ok, ensure_eq_ok, okOr_eq_ok, pure_eq_ok,
    exists_const, Except.ok.injEq]
  constructor
  · intro hparts
    obtain ⟨_, found, _, hbytes, hkey⟩ := hparts
    rw [← hbytes, hkey]
  · intro hbytes
    subst hbytes
    exact ⟨⟨(encodePublic C key).2, encodePublic_isCompressed key⟩, key,
      C.fromSec1Bytes_compressed key, rfl, rfl⟩

private theorem toAsciiLowercase_eq {text : String} (h : ∀ c ∈ text.toList, c.toLower = c) :
    Recipient.toAsciiLowercase text = text := by
  rw [Recipient.toAsciiLowercase, List.map_congr_left h, List.map_id', String.ofList_toList]

private theorem recipient_lowercase (words : List ℕ) :
    ∀ c ∈ (Bech32.encode recipientHrp words).toList, c.toLower = c := by
  have hhrp : recipientHrp.toList.all (fun c => c.toLower == c) := by decide +kernel
  have hcharset : ('1' :: Bech32.charset).all (fun c => c.toLower == c) := by decide +kernel
  intro c hc
  rcases Bech32.mem_encode hc with hc | hc
  · exact beq_iff_eq.mp (List.all_eq_true.mp hhrp c hc)
  · exact beq_iff_eq.mp (List.all_eq_true.mp hcharset c hc)

/-- Parsing accepts exactly the text of a recipient. -/
theorem Recipient.parse_eq_ok {text : String} {key : C.PublicKey} :
    Recipient.parse C text = .ok key ↔ text = Recipient.toString C key := by
  simp only [Recipient.parse, bind_eq_ok, ensure_eq_ok, okOr_eq_ok, pure_eq_ok, exists_const,
    Except.ok.injEq]
  constructor
  · intro hparts
    obtain ⟨_, found, _, _, payload, _, _, _, recipient, _, htext, hkey⟩ := hparts
    rw [← hkey, htext]
  · intro htext
    have hdecode := C.bech32Decode_encode _ (Bech32.wordsOf_lt (1 :: (encodePublic C key).1))
    subst htext
    refine ⟨(toAsciiLowercase_eq (recipient_lowercase _)).symm, _, hdecode, ⟨rfl, rfl⟩, _,
      Bech32.exact_wordsOf (1 :: (encodePublic C key).1), ?_, rfl, key, ?_, rfl, rfl⟩
    · simp [(encodePublic C key).2, compressedPointBytes]
    · rw [fromPublicKeyBytes_eq_ok, List.map_cons, List.tail_cons, Cbor.map_byte_val]

theorem Recipient.toString_injective : Function.Injective (Recipient.toString C) := by
  intro a b h
  have hparse := Recipient.parse_eq_ok.mpr (rfl : Recipient.toString C b = _)
  rw [← h, Recipient.parse_eq_ok.mpr rfl] at hparse
  exact Except.ok.inj hparse

theorem Recipient.toString_length (key : C.PublicKey) :
    (utf8 (Recipient.toString C key)).length = 71 := by
  rw [Recipient.toString, Bech32.encode_length, Bech32.wordsOf_length, List.length_cons,
    (encodePublic C key).2, show (utf8 recipientHrp).length = 9 by decide +kernel]

theorem decodeBase64Exact_eq_ok {value : String} {length : ℕ} {bytes : List Byte} :
    decodeBase64Exact value length = .ok bytes ↔ bytes.length = length ∧ value = Base64.encode bytes := by
  simp only [decodeBase64Exact, bind_eq_ok, ensure_eq_ok, okOr_eq_ok, pure_eq_ok, exists_const,
    Except.ok.injEq, Base64.decode_eq_some]
  constructor
  · intro hparts
    obtain ⟨found, hvalue, ⟨hlength, _⟩, hfound⟩ := hparts
    subst hfound
    exact ⟨hlength, hvalue⟩
  · intro hparts
    obtain ⟨hlength, hvalue⟩ := hparts
    exact ⟨bytes, hvalue, ⟨hlength, hvalue.symm⟩, rfl⟩

variable (C) in
/-- The stanzas whose public structure is valid, with the keys they carry. -/
inductive ConformingStanza : TaggedStanza → Prop
  | v1 {body} (ephemeral : C.PublicKey) : body.length = stanzaBodyBytes →
      ConformingStanza ⟨stanzaTag, [Base64.encode (encodePublic C ephemeral)], body⟩
  | v2 {body selection} (ephemeral : C.PublicKey) : body.length = stanzaBodyBytes →
      selection.length = stanzaBodyBytes →
      ConformingStanza ⟨stanzaTagV2,
        [Base64.encode (encodePublic C ephemeral), Base64.encode selection], body⟩
  | tagged {body tag} (enc : C.PublicKey) : body.length = stanzaBodyBytes → tag.length = 4 →
      (C.uncompressedPoint enc).1.head? = some 4 →
      ConformingStanza ⟨Tag.stanzaTag, [Base64.encode tag, Base64.encode (C.uncompressedPoint enc)],
        body⟩

private theorem map_unit_eq_ok {α : Type} {result : Except RecipientError α} {u : Unit} :
    (result.map fun _ => ()) = .ok u ↔ ∃ a, result = .ok a := by
  cases result <;> simp [Except.map]

private theorem mapError_eq_ok {α : Type} {result : Except RecipientError α} {a : α}
    {failure : RecipientError → RecipientError} :
    result.mapError failure = .ok a ↔ result = .ok a := by
  cases result <;> simp [Except.mapError]

private theorem tag_parse_ok {stanza : TaggedStanza} :
    (∃ key, Tag.parse C stanza = .ok key) ↔
      ∃ tag enc, tag.length = 4 ∧ (C.uncompressedPoint enc).1.head? = some 4 ∧
        stanza.body.length = stanzaBodyBytes ∧ stanza.tag = Tag.stanzaTag ∧
        stanza.args = [Base64.encode tag, Base64.encode (C.uncompressedPoint enc)] := by
  simp only [Tag.parse, bind_eq_ok, ensure_eq_ok, exists_const]
  constructor
  · intro hparts
    obtain ⟨key, htag, hparse⟩ := hparts
    split at hparse
    · next tag enc hargs =>
        simp only [bind_eq_ok, ensure_eq_ok, okOr_eq_ok, pure_eq_ok, exists_const, Except.ok.injEq,
          decodeBase64Exact_eq_ok] at hparse
        obtain ⟨bytes, ⟨hlen, hbytes⟩, encoded, ⟨_, hencoded⟩, hbody, hhead, found, _, hpoint, _⟩ :=
          hparse
        refine ⟨bytes, found, hlen, hpoint ▸ hhead, hbody, htag, ?_⟩
        rw [hargs, hbytes, hencoded, ← hpoint]
    · simp at hparse
  · intro hparts
    obtain ⟨tag, enc, hlen, hhead, hbody, htag, hargs⟩ := hparts
    refine ⟨enc, htag, ?_⟩
    simp only [hargs, bind_eq_ok, ensure_eq_ok, okOr_eq_ok, pure_eq_ok, exists_const,
      Except.ok.injEq, decodeBase64Exact_eq_ok]
    exact ⟨tag, ⟨hlen, rfl⟩, _, ⟨(C.uncompressedPoint enc).2, rfl⟩, hbody, hhead, enc,
      C.fromSec1Bytes_uncompressed enc, rfl, rfl⟩

private theorem parsed_ok {stanza : TaggedStanza} :
    (∃ parsed, ParsedStanza.parse C stanza = .ok parsed) ↔
      ∃ version selection ephemeral,
        stanzaVersion stanza = .ok (version, Base64.encode (encodePublic C ephemeral), selection) ∧
        stanza.body.length = stanzaBodyBytes := by
  simp only [ParsedStanza.parse, bind_eq_ok, ensure_eq_ok, okOr_eq_ok, pure_eq_ok, exists_const,
    Except.ok.injEq, Base64.decode_eq_some, mapError_eq_ok, fromPublicKeyBytes_eq_ok]
  constructor
  · intro hparts
    obtain ⟨_, ⟨version, argument, selection⟩, hversion, hbody, decoded, hargument, _, key, hkey, _⟩
      := hparts
    simp only at hargument
    rw [hargument, hkey] at hversion
    exact ⟨version, selection, key, hversion, hbody⟩
  · intro hparts
    obtain ⟨version, selection, ephemeral, hversion, hbody⟩ := hparts
    exact ⟨_, _, hversion, hbody, _, rfl, rfl, ephemeral, rfl, rfl⟩

private theorem stanzaVersion_eq_ok {stanza : TaggedStanza} {version : StanzaVersion}
    {argument : String} {selection : Option (List Byte)} :
    stanzaVersion stanza = .ok (version, argument, selection) ↔
      (stanza.tag = stanzaTag ∧ stanza.args = [argument] ∧ version = .v1 ∧ selection = none) ∨
      ∃ decoded, decoded.length = stanzaBodyBytes ∧ stanza.tag = stanzaTagV2 ∧
        stanza.args = [argument, Base64.encode decoded] ∧ version = .v2 ∧ selection = some decoded := by
  have hne : stanzaTagV2 ≠ stanzaTag := by decide
  rw [stanzaVersion]
  split_ifs with h1 h2
  · rw [h1]
    constructor
    · intro hversion
      split at hversion
      · next found hargs =>
          simp only [Except.ok.injEq, Prod.mk.injEq] at hversion
          obtain ⟨hv, ha, hs⟩ := hversion
          exact Or.inl ⟨rfl, by rw [hargs, ha], hv.symm, hs.symm⟩
      · simp at hversion
    · intro hforms
      rcases hforms with ⟨_, hargs, hv, hs⟩ | ⟨_, _, htag, _⟩
      · rw [hargs, hv, hs]
      · exact absurd htag hne.symm
  · rw [h2]
    constructor
    · intro hversion
      split at hversion
      · next found text hargs =>
          simp only [bind_eq_ok, decodeBase64Exact_eq_ok, pure_eq_ok, Except.ok.injEq,
            Prod.mk.injEq] at hversion
          obtain ⟨decoded, ⟨hlen, htext⟩, hv, ha, hs⟩ := hversion
          exact Or.inr ⟨decoded, hlen, rfl, by rw [hargs, ha, htext], hv.symm, hs.symm⟩
      · simp at hversion
    · intro hforms
      rcases hforms with ⟨htag, _⟩ | ⟨decoded, hlen, _, hargs, hv, hs⟩
      · exact absurd htag hne
      · have hdecoded := decodeBase64Exact_eq_ok.mpr ⟨hlen, (rfl : Base64.encode decoded = _)⟩
        simp only [hargs, hv, hs, hdecoded, ok_bind, pure_eq_ok]
  · constructor
    · intro hversion
      simp at hversion
    · intro hforms
      rcases hforms with ⟨htag, _⟩ | ⟨_, _, htag, _⟩
      · exact absurd htag h1
      · exact absurd htag h2

/-- Validation accepts exactly the conforming stanzas. -/
theorem validateStanza_eq_ok {stanza : TaggedStanza} {u : Unit} :
    validateStanza C stanza = .ok u ↔ ConformingStanza C stanza := by
  have h1 : stanzaTag ≠ Tag.stanzaTag := by decide
  have h2 : stanzaTagV2 ≠ Tag.stanzaTag := by decide
  rw [validateStanza]
  split_ifs with htag
  · rw [map_unit_eq_ok, tag_parse_ok]
    constructor
    · intro hparts
      obtain ⟨tag, enc, hlen, hhead, hbody, _, hargs⟩ := hparts
      obtain ⟨stag, sargs, sbody⟩ := stanza
      simp only at htag hargs hbody
      subst htag hargs
      exact .tagged enc hbody hlen hhead
    · intro hconforming
      cases hconforming with
      | v1 ephemeral hbody => exact absurd htag h1
      | v2 ephemeral hbody hselection => exact absurd htag h2
      | tagged enc hbody hlen hhead => exact ⟨_, enc, hlen, hhead, hbody, rfl, rfl⟩
  · rw [map_unit_eq_ok, parsed_ok]
    constructor
    · intro hparts
      obtain ⟨version, selection, ephemeral, hversion, hbody⟩ := hparts
      obtain ⟨stag, sargs, sbody⟩ := stanza
      rcases stanzaVersion_eq_ok.mp hversion with ⟨ht, ha, _⟩ | ⟨decoded, hlen, ht, ha, _⟩
      · simp only at ht ha
        subst ht ha
        exact .v1 ephemeral hbody
      · simp only at ht ha
        subst ht ha
        exact .v2 ephemeral hbody hlen
    · intro hconforming
      cases hconforming with
      | v1 ephemeral hbody =>
          exact ⟨_, _, ephemeral, stanzaVersion_eq_ok.mpr (Or.inl ⟨rfl, rfl, rfl, rfl⟩), hbody⟩
      | v2 ephemeral hbody hselection =>
          exact ⟨_, _, ephemeral,
            stanzaVersion_eq_ok.mpr (Or.inr ⟨_, hselection, rfl, rfl, rfl, rfl⟩), hbody⟩
      | tagged enc hbody hlen hhead => exact absurd rfl htag

end Specifications

end AgePluginPhone.Core
