import AgePluginPhone.Core.Recipient
import AgePluginPhone.Library.CryptoTable

/-!
# Crates by tables

Crates whose points and recipient texts are the real ones, and whose other values come from a
finite table.
-/

namespace AgePluginPhone.Core

open Library P256

def Crates.ofTable (t : CryptoTable) : Crates where
  PublicKey := Point
  SecretKey := Point
  uncompressedPoint key := encodeUncompressed key
  fromSec1Bytes := Point.fromSec1
  fromSec1Bytes_uncompressed := Point.fromSec1_encodeUncompressed
  fromSec1Bytes_compressed key := by
    rw [compress_encodeUncompressed]
    exact Point.fromSec1_encodeCompressed key
  compressed_fromSec1Bytes bytes key h htag := by
    rw [Point.fromSec1_of_isCompressed htag] at h
    rw [compress_encodeUncompressed]
    exact (Point.encodeCompressed_of_fromCompressed h).1
  tag_fromSec1Bytes _ _ h := Point.fromSec1_tag h
  publicKey secret := secret
  diffieHellman := t.agree
  diffieHellman_comm := t.agree_comm
  verifyPrehash := t.verify
  sha256 := t.sha256
  hmacSha256 := t.hmac
  encrypt key _ := t.sealMessage key
  decrypt key _ := t.openMessage key
  encrypt_length key _ := t.sealMessage_length key
  decrypt_eq_some _ _ _ _ _ := t.openMessage_eq_some
  bech32Decode text := (Bech32.decode recipientHrp text).map fun words => (recipientHrp, words, .bech32)
  bech32Decode_encode words h := by
    rw [Bech32.decode_encode recipientHrp h]
    rfl

theorem ofTable_fromSec1Bytes (t : CryptoTable) (point : Point) :
    (Crates.ofTable t).fromSec1Bytes (encodeCompressed point) = some point :=
  Point.fromSec1_encodeCompressed point

theorem encodePublic_ofTable (t : CryptoTable) (point : Point) :
    encodePublic (Crates.ofTable t) point = encodeCompressed point :=
  compress_encodeUncompressed point

theorem conformingStanza_ofTable (t : CryptoTable) (ephemeral : Point) {body : List Byte}
    (h : body.length = stanzaBodyBytes) : ConformingStanza (Crates.ofTable t)
      ⟨stanzaTag, [Base64.encode (encodeCompressed ephemeral)], body⟩ := by
  rw [← encodePublic_ofTable t]
  exact ConformingStanza.v1 (C := Crates.ofTable t) ephemeral h

section Points

/-- The generator of the curve and its first multiples, as keys of a sample pairing. -/
def identityPoint : Point :=
  ⟨(0x6b17d1f2e12c4247f8bce6e563a440f277037d812deb33a0f4a13945d898c296,
    0x4fe342e2fe1a7f9b8ee7eb4a7c0f9e162bce33576b315ececbb6406837bf51f5), by decide +kernel⟩

def desktopSigningPoint : Point :=
  ⟨(0x7cf27b188d034f7e8a52380304b51ac3c08969e277f21b35a60b48fc47669978,
    0x07775510db8ed040293d9ac69f7430dbba7dade63ce982299e04b79d227873d1), by decide +kernel⟩

def desktopSelectionPoint : Point :=
  ⟨(0x5ecbe4d1a6330a44c8f7ef951d4bf165e6c6b721efada985fb41661bc6e7fd6c,
    0x8734640c4998ff7e374b06ce1a64a2ecd82ab036384fb83d9a79b127a27d5032), by decide +kernel⟩

def phoneSigningPoint : Point :=
  ⟨(0xe2534a3532d08fbba02dde659ee62bd0031fe2db785596ef509302446b030852,
    0xe0f1575a4c633cc719dfee5fda862d764efc96c3f30ee0055c42c23f184ed8c6), by decide +kernel⟩

def desktopSessionPoint : Point :=
  ⟨(0x51590b7a515140d2d784c85608668fdfef8c82fd1f5be52421554a0dc3d033ed,
    0xe0c17da8904a727d8ae1bf36bf8a79260d012f00d4d80888d1d0bb44fda16da4), by decide +kernel⟩

def ephemeralPoint : Point :=
  ⟨(0xb01a172a76a4602c92d3242cb897dde3024c740debb215b4c6b0aae93c2291a9,
    0xe85c10743237dad56fec0e2dfba703791c00f7701c7e16bdfd7c48538fc77fe2), by decide +kernel⟩

def phoneSessionPoint : Point :=
  ⟨(0x8e533b6fa0bf7b4625bb30667c01fb607ef9f8b8a80fef5b300628703187b2a3,
    0x73eb1dbde03318366d069f83a6f5900053c73633cb041b21c55e1a86c1f400b4), by decide +kernel⟩

def sampleRecipient : String :=
  "age1phone1qypkk9737tsjcsj8lz7wdetr53q0yacr0kqjm6en5r62zw29mzvv99sa27n9c"

theorem sampleRecipient_eq (t : CryptoTable) :
    sampleRecipient = Recipient.toString (Crates.ofTable t) identityPoint := by
  change sampleRecipient =
    Bech32.encode recipientHrp (Bech32.wordsOf (1 :: (compress (encodeUncompressed identityPoint)).1))
  decide +kernel

end Points

end AgePluginPhone.Core
