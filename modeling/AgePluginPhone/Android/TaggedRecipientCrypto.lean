import AgePluginPhone.Library.Base64
import AgePluginPhone.Library.Fallible
import AgePluginPhone.Library.Hkdf
import AgePluginPhone.Library.P256Curve

/-!
# Recipient stanzas on Android

The Kotlin parser of recipient stanzas, with its own decompression of points, and the unwrapping
of a file key with the secret that the key store has agreed.
-/

namespace AgePluginPhone.Android.TaggedRecipientCrypto

open Library P256 Cbor

inductive Failure
  | invalidStanza
  | authentication
  | provider
  deriving DecidableEq

/-- The security providers and `java.util.Base64`. The keys are those with the parameters of
secp256r1, and exactly the points of the curve make a key. -/
structure Jca where
  PublicKey : Type
  /-- `getDecoder().decode`, which takes the encodings of the encoder and possibly others. -/
  decodeBase64 : String → Option (List Byte)
  decodeBase64_encode : ∀ bytes, decodeBase64 (Base64.encode bytes) = some bytes
  /-- `generatePublic`. -/
  generatePublic : Affine → Option PublicKey
  w : PublicKey → Affine
  generatePublic_isSome : ∀ point, OnCurve point → (generatePublic point).isSome = true
  w_generatePublic : ∀ point key, generatePublic point = some key → w key = point
  w_onCurve : ∀ key, OnCurve (w key)
  w_injective : Function.Injective w
  sha256 : List Byte → Bytes 32
  hmacSha256 : List Byte → List Byte → Bytes 32
  /-- ChaCha20-Poly1305 with key, nonce and associated data. -/
  doFinal : Bytes 32 → Bytes 12 → List Byte → List Byte → Option (List Byte)

structure Stanza where
  tag : String
  args : List String
  body : List Byte

def stanzaTag : String := "phone-p256-v1"

def stanzaTagV2 : String := "phone-p256-v2"

def standardTag : String := "p256tag"

def fileKeyBytes : ℕ := 16

def pointBytes : ℕ := 33

def bodyBytes : ℕ := 32

def kdfInfo : List Byte := utf8 "age-plugin-phone/recipient/p256/v1"

def fileKeyKdfInfoV2 : List Byte := utf8 "age-plugin-phone/recipient/p256/v2/file-key"

def zeroNonce : Bytes 12 := Bytes.replicate 12 0

variable (J : Jca)

section Points

/-- A non-negative number in so many bytes. -/
def fixedWidth (value width : ℕ) : Except Failure (List Byte) := do
  ensure (value < 256 ^ width) .invalidStanza
  return bigEndian width value

def encodeCompressed (key : J.PublicKey) : Except Failure (List Byte) := do
  let x ← fixedWidth (J.w key).1 32
  return (if (J.w key).2.testBit 0 then 3 else 2) :: x

def encodeUncompressed (key : J.PublicKey) : Except Failure (List Byte) := do
  let x ← fixedWidth (J.w key).1 32
  let y ← fixedWidth (J.w key).2 32
  return 4 :: (x ++ y)

def decodeCompressed (encoded : List Byte) : Except Failure J.PublicKey := do
  ensure (encoded.length = pointBytes ∧ 2 ≤ (encoded.headD 0).val ∧ (encoded.headD 0).val ≤ 3)
    .invalidStanza
  let x := bigEndianValue (encoded.drop 1)
  ensure (x < fieldPrime) .invalidStanza
  let rhs := (x ^ 3 % fieldPrime + (fieldPrime - 3) * x + curveB) % fieldPrime
  let y := modPow fieldPrime rhs 256 ((fieldPrime + 1) >>> 2)
  ensure (y ^ 2 % fieldPrime = rhs) .invalidStanza
  let odd := decide ((encoded.headD 0).val &&& 1 = 1)
  let y := if y.testBit 0 ≠ odd then fieldPrime - y else y
  let key ← okOr (J.generatePublic (x, y)) .provider
  let again ← encodeCompressed J key
  ensure (again = encoded) .invalidStanza
  return key

def decodeUncompressed (encoded : List Byte) : Except Failure J.PublicKey := do
  ensure (encoded.length = 65 ∧ encoded.headD 0 = 4) .invalidStanza
  let compact := (if (encoded.getD 64 0).val &&& 1 = 0 then 2 else 3) :: (encoded.drop 1).take 32
  let key ← decodeCompressed J compact
  let again ← encodeUncompressed J key
  ensure (again = encoded) .invalidStanza
  return key

end Points

section Parsing

structure ParsedStanza where
  version : ℕ
  ephemeralPublic : J.PublicKey
  ephemeralBytes : List Byte
  body : List Byte

def canonicalBase64 (value : String) (size : ℕ) : Except Failure (List Byte) := do
  let decoded ← okOr (J.decodeBase64 value) .invalidStanza
  ensure (decoded.length = size ∧ Base64.encode decoded = value) .invalidStanza
  return decoded

/-- The version of a stanza by its tag and number of arguments. -/
def versionOf (stanza : Stanza) : Except Failure ℕ :=
  if stanza.tag = standardTag ∧ stanza.args.length = 2 then .ok 3
  else if stanza.tag = stanzaTag ∧ stanza.args.length = 1 then .ok 1
  else if stanza.tag = stanzaTagV2 ∧ stanza.args.length = 2 then .ok 2
  else .error .invalidStanza

def parse (stanza : Stanza) : Except Failure (ParsedStanza J) := do
  let version ← versionOf stanza
  ensure (stanza.body.length = bodyBytes) .invalidStanza
  let encoded := stanza.args.getD (if version = 3 then 1 else 0) ""
  if version = 3 then
    let _ ← canonicalBase64 J (stanza.args.getD 0 "") 4
  let ephemeral ← okOr (J.decodeBase64 encoded) .invalidStanza
  ensure (Base64.encode ephemeral = encoded) .invalidStanza
  -- the source writes the check of the selector out
  if version = 2 then
    let _ ← canonicalBase64 J (stanza.args.getD 1 "") bodyBytes
  let publicKey ← if version = 3 then decodeUncompressed J ephemeral else decodeCompressed J ephemeral
  return ⟨version, publicKey, ephemeral, stanza.body⟩

end Parsing

section Opening

/-- An empty key stands for one of zeros. -/
def hmac (key input : List Byte) : Bytes 32 :=
  J.hmacSha256 (if key.isEmpty then List.replicate 32 0 else key) input

def hpkeInfo : List Byte := utf8 "age-encryption.org/p256tag"

def hpkeKem : List Byte := [75, 69, 77, 0, 16]

def hpkeSuite : List Byte := [72, 80, 75, 69, 0, 16, 0, 1, 0, 3]

def requireMatchingTag (key : J.PublicKey) (stanza : Stanza) : Except Failure Unit :=
  if stanza.tag ≠ standardTag then .ok ()
  else do
    let parsed ← parse J stanza
    let encoded ← encodeCompressed J key
    let hash := J.sha256 encoded
    let tag := hmac J hpkeInfo (parsed.ephemeralBytes ++ hash.1.take 4)
    let expected ← canonicalBase64 J (stanza.args.getD 0 "") 4
    ensure (tag.1.take 4 = expected) .authentication

def hpkeExtract (suite salt label input : List Byte) : Bytes 32 :=
  hmac J salt (utf8 "HPKE-v1" ++ suite ++ label ++ input)

/-- One block of output, of which the caller takes the size it asks for. -/
def hpkeExpand (suite : List Byte) (key : Bytes 32) (label info : List Byte) (size : Byte) : Bytes 32 :=
  hmac J key ([0, size] ++ utf8 "HPKE-v1" ++ suite ++ label ++ info ++ [1])

def hpkeOpen (dh enc recipient body : List Byte) : Except Failure (List Byte) := do
  ensure (dh.length = 32) .invalidStanza
  let eae := hpkeExtract J hpkeKem [] (utf8 "eae_prk") dh
  let recipientKey ← decodeCompressed J recipient
  let recipientPoint ← encodeUncompressed J recipientKey
  let shared := hpkeExpand J hpkeKem eae (utf8 "shared_secret") (enc ++ recipientPoint) 32
  let psk := hpkeExtract J hpkeSuite [] (utf8 "psk_id_hash") []
  let info := hpkeExtract J hpkeSuite [] (utf8 "info_hash") hpkeInfo
  let context := [0] ++ psk.1 ++ info.1
  let secret := hpkeExtract J hpkeSuite shared (utf8 "secret") []
  let key := hpkeExpand J hpkeSuite secret (utf8 "key") context 32
  let nonce := Bytes.leading 12 20 (hpkeExpand J hpkeSuite secret (utf8 "base_nonce") context 12)
  let plaintext ← okOr (J.doFinal key nonce [] body) .authentication
  ensure (plaintext.length = fileKeyBytes) .authentication
  return plaintext

def deriveKey (sharedSecret ephemeralPublic recipientPublic info : List Byte) : Bytes 32 :=
  let pseudorandomKey := J.hmacSha256 (ephemeralPublic ++ recipientPublic) sharedSecret
  J.hmacSha256 pseudorandomKey (info ++ [1])

def associatedData (version : ℕ) (ephemeralPublic recipientPublic : List Byte) : List Byte :=
  utf8 (if version = 2 then stanzaTagV2 else stanzaTag) ++ [0] ++ ephemeralPublic ++ recipientPublic

def «open» (version : ℕ) (sharedSecret ephemeralPublic recipientPublic body : List Byte) :
    Except Failure (List Byte) :=
  if version = 3 then hpkeOpen J sharedSecret ephemeralPublic recipientPublic body
  else do
    let info := if version = 2 then fileKeyKdfInfoV2 else kdfInfo
    let key := deriveKey J sharedSecret ephemeralPublic recipientPublic info
    let plaintext ← okOr (J.doFinal key zeroNonce
      (associatedData version ephemeralPublic recipientPublic) body) .authentication
    ensure (plaintext.length = fileKeyBytes) .authentication
    return plaintext

def unwrapWithSharedSecret (identityPublic : J.PublicKey) (stanza : Stanza)
    (sharedSecret : List Byte) : Except Failure (List Byte) := do
  let parsed ← parse J stanza
  requireMatchingTag J identityPublic stanza
  let recipient ← encodeCompressed J identityPublic
  «open» J parsed.version sharedSecret parsed.ephemeralBytes recipient parsed.body

/-- What the plugin does with a stanza: the key store agrees a secret with the ephemeral key. -/
def unwrapWithKeyStore (agree : J.PublicKey → List Byte) (identityPublic : J.PublicKey)
    (stanza : Stanza) : Except Failure (List Byte) := do
  let parsed ← parse J stanza
  requireMatchingTag J identityPublic stanza
  unwrapWithSharedSecret J identityPublic stanza (agree parsed.ephemeralPublic)

end Opening

section Points

variable {J} {key : J.PublicKey} {encoded : List Byte}

private theorem fixedWidth_coordinate {n : ℕ} (h : n < fieldPrime) :
    fixedWidth n 32 = .ok (bigEndian 32 n) := by
  rw [fixedWidth, ensure_true _ (h.trans (by decide)), ok_bind, pure_eq_ok]

private theorem testBit_zero_iff (n : ℕ) : n.testBit 0 = true ↔ n % 2 = 1 := by
  rw [Nat.testBit_zero, decide_eq_true_iff]

theorem encodeCompressed_eq (key : J.PublicKey) :
    encodeCompressed J key = .ok (P256.encodeCompressed (J.w key)) := by
  have htag : (if (J.w key).2.testBit 0 then 3 else 2 : Byte) =
      if (J.w key).2 % 2 = 0 then 2 else 3 := by
    by_cases heven : (J.w key).2 % 2 = 0
    · simp [heven]
    · simp [Nat.mod_two_ne_zero.mp heven]
  rw [encodeCompressed, fixedWidth_coordinate (J.w_onCurve key).1, ok_bind, pure_eq_ok, htag]
  rfl

theorem encodeUncompressed_eq (key : J.PublicKey) :
    encodeUncompressed J key = .ok (P256.encodeUncompressed (J.w key)) := by
  rw [encodeUncompressed, fixedWidth_coordinate (J.w_onCurve key).1,
    fixedWidth_coordinate (J.w_onCurve key).2.1]
  rfl

theorem generatePublic_w (key : J.PublicKey) : J.generatePublic (J.w key) = some key := by
  obtain ⟨found, hfound⟩ := Option.isSome_iff_exists.mp (J.generatePublic_isSome _ (J.w_onCurve key))
  rw [hfound, J.w_injective (J.w_generatePublic _ _ hfound)]

/-- The tag of a compressed point, as the parser reads it. -/
private theorem tag_range (point : Affine) :
    2 ≤ ((P256.encodeCompressed point).1.headD 0).val ∧
      ((P256.encodeCompressed point).1.headD 0).val ≤ 3 := by
  rw [P256.encodeCompressed, List.headD_cons]
  split_ifs <;> decide

private theorem chosen_ordinate {point : Affine} (h : OnCurve point) :
    (if (squareRoot (equation point.1)).testBit 0 ≠
        decide (((P256.encodeCompressed point).1.headD 0).val &&& 1 = 1)
      then fieldPrime - squareRoot (equation point.1) else squareRoot (equation point.1)) =
      point.2 := by
  have hparity : (squareRoot (equation point.1)).testBit 0 ≠
      decide (((P256.encodeCompressed point).1.headD 0).val &&& 1 = 1) ↔
        ¬ squareRoot (equation point.1) % 2 = point.2 % 2 := by
    rw [Nat.testBit_zero, Nat.and_one_is_mod, tag_encodeCompressed, ne_eq, decide_eq_decide]
    omega
  rw [if_congr hparity rfl rfl, ite_not]
  exact ordinate_of_parity h.2.1 h.2.2

/-- The parser decompresses exactly the encodings of keys. -/
theorem decodeCompressed_eq_ok :
    decodeCompressed J encoded = .ok key ↔ encoded = P256.encodeCompressed (J.w key) := by
  simp only [decodeCompressed, bind_eq_ok, ensure_eq_ok, exists_const, okOr_eq_ok, pure_eq_ok,
    Except.ok.injEq, encodeCompressed_eq]
  constructor
  · intro hparts
    obtain ⟨-, -, -, found, -, _, rfl, hagain, rfl⟩ := hparts
    exact hagain.symm
  · intro hencoded
    subst hencoded
    have hcurve := J.w_onCurve key
    have hordinate := chosen_ordinate hcurve
    have hpoint : ((J.w key).1, (J.w key).2) = J.w key := rfl
    refine ⟨⟨(P256.encodeCompressed (J.w key)).2, tag_range _⟩, ?_, ?_, key, ?_, _, rfl, rfl, rfl⟩ <;>
      rw [abscissa_encodeCompressed hcurve]
    · exact hcurve.1
    · exact squareRoot_sq hcurve.2.2
    · rw [squareRoot, equation] at hordinate
      rw [hordinate, hpoint, generatePublic_w]

/-- Likewise for uncompressed points. -/
theorem decodeUncompressed_eq_ok :
    decodeUncompressed J encoded = .ok key ↔ encoded = P256.encodeUncompressed (J.w key) := by
  simp only [decodeUncompressed, bind_eq_ok, ensure_eq_ok, exists_const, pure_eq_ok,
    Except.ok.injEq, decodeCompressed_eq_ok, encodeUncompressed_eq]
  constructor
  · intro hparts
    obtain ⟨-, found, -, _, rfl, hagain, rfl⟩ := hparts
    exact hagain.symm
  · intro hencoded
    subst hencoded
    refine ⟨⟨(P256.encodeUncompressed (J.w key)).2, rfl⟩, key, ?_, _, rfl, rfl, rfl⟩
    rw [← compress_encodeUncompressed, Nat.and_one_is_mod]
    rfl

end Points

section Parsing

variable {J} {value : String} {size : ℕ} {bytes : List Byte} {stanza : Stanza} {parsed : ParsedStanza J}

theorem canonicalBase64_eq_ok : canonicalBase64 J value size = .ok bytes ↔
    bytes.length = size ∧ value = Base64.encode bytes := by
  simp only [canonicalBase64, bind_eq_ok, ensure_eq_ok, exists_const, okOr_eq_ok, pure_eq_ok,
    Except.ok.injEq]
  constructor
  · intro hparts
    obtain ⟨decoded, -, ⟨hlength, hvalue⟩, rfl⟩ := hparts
    exact ⟨hlength, hvalue.symm⟩
  · intro hparts
    obtain ⟨hlength, rfl⟩ := hparts
    exact ⟨bytes, J.decodeBase64_encode bytes, ⟨hlength, rfl⟩, rfl⟩

variable (J) in
/-- The stanzas that parse, with what they parse to. -/
inductive Parses : Stanza → ParsedStanza J → Prop
  | v1 {body} (key : J.PublicKey) (hbody : body.length = bodyBytes) :
      Parses ⟨stanzaTag, [Base64.encode (P256.encodeCompressed (J.w key))], body⟩
        ⟨1, key, P256.encodeCompressed (J.w key), body⟩
  | v2 {body selection} (key : J.PublicKey) (hbody : body.length = bodyBytes)
      (hselection : selection.length = bodyBytes) :
      Parses ⟨stanzaTagV2, [Base64.encode (P256.encodeCompressed (J.w key)), Base64.encode selection],
        body⟩ ⟨2, key, P256.encodeCompressed (J.w key), body⟩
  | tagged {body tag} (key : J.PublicKey) (hbody : body.length = bodyBytes) (htag : tag.length = 4) :
      Parses ⟨standardTag, [Base64.encode tag, Base64.encode (P256.encodeUncompressed (J.w key))], body⟩
        ⟨3, key, P256.encodeUncompressed (J.w key), body⟩

private theorem versionOf_eq_ok {version : ℕ} : versionOf stanza = .ok version ↔
    (version = 3 ∧ stanza.tag = standardTag ∧ stanza.args.length = 2) ∨
    (version = 1 ∧ stanza.tag = stanzaTag ∧ stanza.args.length = 1) ∨
    (version = 2 ∧ stanza.tag = stanzaTagV2 ∧ stanza.args.length = 2) := by
  have h1 : standardTag ≠ stanzaTag := by decide
  have h2 : standardTag ≠ stanzaTagV2 := by decide
  have h3 : stanzaTag ≠ stanzaTagV2 := by decide
  rw [versionOf]
  split_ifs with hthree hone htwo
  · simp [hthree, h1, h2, eq_comm]
  · simp [hone, h1.symm, h3, eq_comm]
  · simp [htwo, h2.symm, h3.symm, eq_comm]
  · simp [hthree, hone, htwo]

theorem parse_of_parses (h : Parses J stanza parsed) : parse J stanza = .ok parsed := by
  cases h with
  | @v1 body key hbody =>
      have hkey := decodeCompressed_eq_ok.mpr (rfl : (P256.encodeCompressed (J.w key)).1 = _)
      have hversion : versionOf ⟨stanzaTag, [Base64.encode (P256.encodeCompressed (J.w key))], body⟩ =
        .ok 1 := rfl
      simp [parse, hversion, hbody, ensure, J.decodeBase64_encode, hkey]
  | @v2 body selection key hbody hselection =>
      have hkey := decodeCompressed_eq_ok.mpr (rfl : (P256.encodeCompressed (J.w key)).1 = _)
      have hselector := canonicalBase64_eq_ok (J := J) |>.mpr
        ⟨hselection, (rfl : Base64.encode selection = _)⟩
      have hversion : versionOf ⟨stanzaTagV2, [Base64.encode (P256.encodeCompressed (J.w key)),
        Base64.encode selection], body⟩ = .ok 2 := rfl
      simp [parse, hversion, hbody, ensure, J.decodeBase64_encode, hkey, hselector]
  | @tagged body tag key hbody htag =>
      have hkey := decodeUncompressed_eq_ok.mpr (rfl : (P256.encodeUncompressed (J.w key)).1 = _)
      have hname := canonicalBase64_eq_ok (J := J) |>.mpr ⟨htag, (rfl : Base64.encode tag = _)⟩
      have hversion : versionOf ⟨standardTag, [Base64.encode tag,
        Base64.encode (P256.encodeUncompressed (J.w key))], body⟩ = .ok 3 := rfl
      simp [parse, hversion, hbody, ensure, J.decodeBase64_encode, hkey, hname]

theorem parses_of_parse (h : parse J stanza = .ok parsed) : Parses J stanza parsed := by
  obtain ⟨tag, args, body⟩ := stanza
  rw [parse, bind_eq_ok] at h
  obtain ⟨version, hversion, h⟩ := h
  rw [bind_eq_ok] at h
  obtain ⟨_, hbody, h⟩ := h
  rw [ensure_eq_ok] at hbody
  rcases versionOf_eq_ok.mp hversion with ⟨rfl, htag, hargs⟩ | ⟨rfl, htag, hargs⟩ | ⟨rfl, htag, hargs⟩
  · obtain ⟨name, encoded, rfl⟩ := List.length_eq_two.mp hargs
    simp only [reduceIte, Nat.succ_ne_self, bind_eq_ok, pure_eq_ok, okOr_eq_ok, ensure_eq_ok,
      Except.ok.injEq, exists_const, List.getD_cons_zero, List.getD_cons_succ,
      canonicalBase64_eq_ok, decodeUncompressed_eq_ok] at h
    obtain ⟨name, ⟨hname, rfl⟩, _, -, rfl, key, rfl, rfl⟩ := h
    obtain rfl : tag = standardTag := htag
    exact .tagged key hbody hname
  · obtain ⟨encoded, rfl⟩ := List.length_eq_one_iff.mp hargs
    simp only [OfNat.one_ne_ofNat, reduceIte, bind_eq_ok, pure_eq_ok, okOr_eq_ok, ensure_eq_ok,
      Except.ok.injEq, exists_const, List.getD_cons_zero,
      decodeCompressed_eq_ok] at h
    obtain ⟨_, -, rfl, key, rfl, rfl⟩ := h
    obtain rfl : tag = stanzaTag := htag
    exact .v1 key hbody
  · obtain ⟨encoded, selection, rfl⟩ := List.length_eq_two.mp hargs
    simp only [Nat.reduceEqDiff, reduceIte, bind_eq_ok, pure_eq_ok, okOr_eq_ok, ensure_eq_ok,
      Except.ok.injEq, exists_const, List.getD_cons_zero, List.getD_cons_succ,
      canonicalBase64_eq_ok, decodeCompressed_eq_ok] at h
    obtain ⟨_, -, rfl, selection, ⟨hselection, rfl⟩, key, rfl, rfl⟩ := h
    obtain rfl : tag = stanzaTagV2 := htag
    exact .v2 key hbody hselection

end Parsing

end AgePluginPhone.Android.TaggedRecipientCrypto
