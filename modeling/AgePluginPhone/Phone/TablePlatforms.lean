import AgePluginPhone.Android.OfflineEnvelope
import AgePluginPhone.Phone.StanzaAgreement

/-!
# Platforms by tables

The platforms of both phones whose keys are the points of the curve, and whose other values come
from the table that the desktop's crates use.
-/

namespace AgePluginPhone.Phone

open Library P256 AgePluginPhone.Core AgePluginPhone.Phone.Stanza

/-- Only points and texts. -/
def emptyTable : CryptoTable := ⟨[], [], [], [], [], []⟩

variable (t : CryptoTable)

/-- HMAC fills its key with zeros. -/
def paddedHmac (key message : List Byte) : Bytes 32 :=
  t.hmac (if key.isEmpty then List.replicate 32 0 else key) message

theorem paddedHmac_eq (h : ∀ entry ∈ t.macs, entry.1 ≠ [] ∧ entry.1 ≠ List.replicate 32 0) :
    paddedHmac t = t.hmac := by
  funext key message
  cases key with
  | nil =>
      have hmissing (key : List Byte) (hkey : ∀ entry ∈ t.macs, entry.1 ≠ key) :
          t.macs.find? (fun entry => entry.1 = key && entry.2.1 = message) = none := by
        rw [List.find?_eq_none]
        intro entry hentry
        simp [hkey entry hentry]
      change t.hmac (List.replicate 32 0) message = t.hmac [] message
      rw [CryptoTable.hmac, CryptoTable.hmac, hmissing _ fun entry hentry => (h entry hentry).2,
        hmissing _ fun entry hentry => (h entry hentry).1]
  | cons b key => rfl

def paddedCrates : Crates := { Crates.ofTable t with hmacSha256 := paddedHmac t }

theorem fromCompressed_x963 (key : Point) :
    Point.fromCompressed (Ios.compressX963 (encodeUncompressed key)) = some key := by
  change Point.fromCompressed (compress (encodeUncompressed key)) = some key
  rw [compress_encodeUncompressed]
  exact Point.fromCompressed_encodeCompressed key

theorem x963_fromCompressed (bytes : Bytes 33) (key : Point)
    (h : Point.fromCompressed bytes = some key) :
    Ios.compressX963 (encodeUncompressed key) = bytes := by
  change compress (encodeUncompressed key) = bytes
  rw [compress_encodeUncompressed]
  exact (Point.encodeCompressed_of_fromCompressed h).1

def kitOfTable : Ios.CryptoKit where
  PublicKey := Point
  x963Representation key := encodeUncompressed key
  fromCompressed := Point.fromCompressed
  fromCompressed_compressed := fromCompressed_x963
  compressed_fromCompressed := x963_fromCompressed
  isValidSignature key message signature := t.verify key (t.sha256 message) signature
  sha256 := t.sha256

def ciphersOfTable : Ios.StanzaOpening.Ciphers where
  hmacSha256 := paddedHmac t
  openBox key _ aad ciphertext tag := t.openMessage key aad (ciphertext ++ tag)

theorem decode_base64 (bytes : List Byte) : Base64.decode (Base64.encode bytes) = some bytes :=
  Base64.decode_eq_some.mpr rfl

theorem ofAffine_isSome (point : Affine) (h : OnCurve point) :
    (Point.ofAffine point).isSome = true := by
  rw [Point.ofAffine, dif_pos (onCurve_iff.mp h)]
  rfl

theorem of_ofAffine (point : Affine) (key : Point) (h : Point.ofAffine point = some key) :
    key.1 = point := by
  rw [Point.ofAffine] at h
  split_ifs at h
  exact congrArg Subtype.val (Option.some.inj h).symm

theorem point_onCurve (key : Point) : OnCurve key.1 := onCurve_iff.mpr key.2

theorem point_injective : Function.Injective (Subtype.val : Point → Affine) :=
  Subtype.val_injective

def jcaOfTable : Android.TaggedRecipientCrypto.Jca where
  PublicKey := Point
  decodeBase64 := Base64.decode
  decodeBase64_encode := decode_base64
  generatePublic := Point.ofAffine
  w := Subtype.val
  generatePublic_isSome := ofAffine_isSome
  w_generatePublic := of_ofAffine
  w_onCurve := point_onCurve
  w_injective := point_injective
  sha256 := t.sha256
  hmacSha256 := paddedHmac t
  doFinal key _ := t.openMessage key

/-- The signatures of the table, in the encoding of the platform. -/
def tableVerifyDer (key : Point) (message der : List Byte) : Bool :=
  t.signatures.any fun entry => entry.1 = key && (entry.2.1 = t.sha256 message &&
    Android.SignatureEncoding.compactToDer entry.2.2 = der)

/-- The first signature of a key and a message. -/
def tableSignature (key : Point) (message : List Byte) : Bytes 64 :=
  ((t.signatures.find? fun entry => entry.1 = key && entry.2.1 = t.sha256 message).map
    fun entry => entry.2.2).getD (number 64 0)

/-- `lowercase` on the texts that are ASCII. -/
def lowercaseAscii (value : String) : String := String.ofList (value.toList.map Char.toLower)

/-- Trees nested at most four deep. -/
def readTree (data : List Byte) : Option Cbor.Item := (Cbor.Item.read 4 data).map Prod.fst

theorem readTree_encode (item : Cbor.Item) (h : item.Bounded 4) :
    readTree item.encode = some item := by
  have hread := Cbor.Item.read_encode h []
  rw [List.append_nil] at hread
  rw [readTree, hread]
  rfl

theorem lowercaseAscii_ascii : Android.TaggedRecipientCrypto.LowercaseAscii lowercaseAscii :=
  fun _ _ => rfl

def providerOfTable : Android.OfflineEnvelope.Provider where
  toJca := jcaOfTable t
  readTree := readTree
  readTree_encode := readTree_encode
  lowercase := lowercaseAscii
  lowercase_ascii := lowercaseAscii_ascii
  PrivateKey := Point
  verifies := tableVerifyDer t
  signature key message := Android.SignatureEncoding.compactToDer (tableSignature t key message)
  generateSecret := t.agree
  encrypt key _ := t.sealMessage key

theorem uncompressed_injective {a b : Point} (h : encodeUncompressed a = encodeUncompressed b) :
    a = b := by
  have hread := Point.fromSec1_encodeUncompressed a
  rw [h, Point.fromSec1_encodeUncompressed] at hread
  exact (Option.some.inj hread).symm

theorem ofTable_points : CratePoints (Crates.ofTable t) :=
  ⟨fun key => ⟨key.1, point_onCurve key, rfl⟩, fun point h => ⟨⟨point, onCurve_iff.mp h⟩, rfl⟩⟩

theorem paddedCrates_points : CratePoints (paddedCrates t) :=
  ⟨fun key => ⟨key.1, point_onCurve key, rfl⟩, fun point h => ⟨⟨point, onCurve_iff.mp h⟩, rfl⟩⟩

theorem kitOfTable_points : KitPoints (kitOfTable t) :=
  ⟨fun key => ⟨key.1, point_onCurve key, rfl⟩, fun point h => ⟨⟨point, onCurve_iff.mp h⟩, rfl⟩⟩

theorem tables_same :
    SameFunctions (paddedCrates t) (kitOfTable t) (ciphersOfTable t) (jcaOfTable t) :=
  ⟨rfl, rfl, rfl, rfl, rfl, fun _ _ _ _ _ _ => rfl, fun _ => rfl⟩

theorem tableVerifyDer_compactToDer (key : Point) (message : List Byte) (signature : Bytes 64) :
    tableVerifyDer t key message (Android.SignatureEncoding.compactToDer signature) =
      t.verify key (t.sha256 message) signature := by
  simp only [tableVerifyDer, CryptoTable.verify,
    Android.SignatureEncoding.compactToDer_injective.eq_iff]

end AgePluginPhone.Phone
