import AgePluginPhone.Ios.UnwrapRequest
import AgePluginPhone.Library.Base64
import AgePluginPhone.Library.Hkdf
import AgePluginPhone.Library.P256

/-!
# Recipient stanzas on iOS

The Swift parser of recipient stanzas in full, for bodies of any length, and the opening of a file
key with the secret that the Secure Enclave has agreed.
-/

namespace AgePluginPhone.Ios.StanzaOpening

open Library Cbor

/-- The ciphers of CryptoKit. -/
structure Ciphers where
  hmacSha256 : List Byte → List Byte → Bytes 32
  /-- `ChaChaPoly.open` with key, nonce and associated data, of a ciphertext and its tag. -/
  openBox : Bytes 32 → Bytes 12 → List Byte → List Byte → List Byte → Option (List Byte)

/-- A stanza before anything is known of its body. -/
structure Stanza where
  tag : String
  arguments : List String
  body : List Byte

variable (K : CryptoKit) (P : Ciphers)

inductive OpeningError
  | failure (failure : Failure)
  | authentication
  deriving DecidableEq

namespace P256Tag

def info : List Byte := utf8 "age-encryption.org/p256tag"

def kem : List Byte := [75, 69, 77, 0, 16]

def suite : List Byte := [72, 80, 75, 69, 0, 16, 0, 1, 0, 3]

def base64 (value : String) (count : ℕ) : Except Failure (List Byte) :=
  okOr ((TaggedRecipientCrypto.decodeCanonicalBase64 value).filter fun bytes => bytes.length = count)
    .stanza

def parse (arguments : List String) (body : List Byte) : Except Failure K.PublicKey := do
  ensure (arguments.length = 2 ∧ body.length = 32) .stanza
  let _ ← base64 (arguments.getD 0 "") 4
  let enc ← base64 (arguments.getD 1 "") 65
  ensure (enc.head? = some 4) .stanza
  let point ← okOr (if h : enc.length = 65 then some (⟨enc, h⟩ : Bytes 65) else none) .stanza
  okOr (TaggedRecipientCrypto.fromX963 K point) .cryptoKit

def «matches» (recipient : K.PublicKey) (arguments : List String) (body : List Byte) :
    Except Failure Bool := do
  let key ← parse K arguments body
  let enc := (K.x963Representation key).1
  let hash := K.sha256 (compressed K recipient)
  let tag := P.hmacSha256 info (enc ++ hash.1.take 4)
  let expected ← base64 (arguments.getD 0 "") 4
  return tag.1.take 4 = expected

def extract (suite salt label input : List Byte) : Bytes 32 :=
  P.hmacSha256 salt (utf8 "HPKE-v1" ++ suite ++ label ++ input)

/-- One block of output, of which the caller takes the count it asks for. -/
def expand (suite : List Byte) (key : Bytes 32) (label info : List Byte) (count : Byte) : Bytes 32 :=
  P.hmacSha256 key ([0, count] ++ utf8 "HPKE-v1" ++ suite ++ label ++ info ++ [1])

def «open» (secret : List Byte) (recipient : K.PublicKey) (arguments : List String)
    (body : List Byte) : Except OpeningError (List Byte) := do
  let key ← (parse K arguments body).mapError .failure
  let enc := (K.x963Representation key).1
  let found ← («matches» K P recipient arguments body).mapError .failure
  ensure (found = true) .authentication
  ensure (secret.length = 32) (.failure .stanza)
  let eae := extract P kem [] (utf8 "eae_prk") secret
  let shared := expand P kem eae (utf8 "shared_secret") (enc ++ (K.x963Representation recipient).1) 32
  let psk := extract P suite [] (utf8 "psk_id_hash") []
  let infoHash := extract P suite [] (utf8 "info_hash") info
  let context := [0] ++ psk.1 ++ infoHash.1
  let keySecret := extract P suite shared (utf8 "secret") []
  let key := expand P suite keySecret (utf8 "key") context 32
  let nonce := Bytes.leading 12 20 (expand P suite keySecret (utf8 "base_nonce") context 12)
  let plaintext ← okOr (P.openBox key nonce [] (body.take 16) (body.drop (body.length - 16)))
    .authentication
  ensure (plaintext.length = 16) .authentication
  return plaintext

end P256Tag

/-- `TaggedRecipientCrypto.parse`: version, ephemeral key and its bytes. -/
def parse (stanza : Stanza) : Except Failure (ℕ × K.PublicKey × List Byte) :=
  if stanza.tag = "p256tag" then do
    let key ← P256Tag.parse K stanza.arguments stanza.body
    return (3, key, (K.x963Representation key).1)
  else do
    let version ←
      if stanza.tag = TaggedRecipientCrypto.stanzaTag ∧ stanza.arguments.length = 1 then .ok 1
      else if stanza.tag = TaggedRecipientCrypto.stanzaTagV2 ∧ stanza.arguments.length = 2 then .ok 2
      else .error .stanza
    ensure (stanza.body.length = 32) .stanza
    let ephemeral ← okOr (TaggedRecipientCrypto.decodeCanonicalBase64 (stanza.arguments.getD 0 "")) .stanza
    let compact ←
      okOr (if h : ephemeral.length = 33 then some (⟨ephemeral, h⟩ : Bytes 33) else none) .stanza
    if version = 2 then
      let _ ← P256Tag.base64 (stanza.arguments.getD 1 "") 32
    let key ← publicKey K compact
    return (version, key, ephemeral)

def openPhone (stanza : Stanza) (secret : List Byte) (recipient : K.PublicKey) :
    Except OpeningError (List Byte) := do
  let (version, _, ephemeralBytes) ← (parse K stanza).mapError .failure
  ensure (version = 1 ∨ version = 2) (.failure .stanza)
  let recipient := (compressed K recipient).1
  let info := utf8 (if version = 2 then "age-plugin-phone/recipient/p256/v2/file-key"
    else "age-plugin-phone/recipient/p256/v1")
  let salt := ephemeralBytes ++ recipient
  let key := hkdf P.hmacSha256 salt secret info
  let associated := utf8 (if version = 2 then TaggedRecipientCrypto.stanzaTagV2
    else TaggedRecipientCrypto.stanzaTag) ++ [0] ++ ephemeralBytes ++ recipient
  let opened ← okOr (P.openBox key (Bytes.replicate 12 0) associated (stanza.body.take 16)
    (stanza.body.drop (stanza.body.length - 16))) .authentication
  ensure (opened.length = 16) .authentication
  return opened

/-- `TaggedRecipientCrypto.unwrap`, with what the Secure Enclave agrees with a peer. -/
def unwrap (stanza : Stanza) (identity : K.PublicKey)
    (agree : K.PublicKey → Except OpeningError (List Byte)) : Except OpeningError (List Byte) := do
  let (version, ephemeral, _) ← (parse K stanza).mapError .failure
  if version = 3 then do
    let found ← (P256Tag.matches K P identity stanza.arguments stanza.body).mapError .failure
    ensure (found = true) .authentication
    let secret ← agree ephemeral
    P256Tag.open K P secret identity stanza.arguments stanza.body
  else do
    let secret ← agree ephemeral
    openPhone K P stanza secret identity

section Parsing

variable {K} {value : String} {count : ℕ} {bytes : List Byte} {stanza : Stanza}

/-- The canonical texts are the unpadded encodings. -/
theorem decodeCanonicalBase64_eq_some :
    TaggedRecipientCrypto.decodeCanonicalBase64 value = some bytes ↔ value = Base64.encode bytes := by
  have hstep : RecipientEncoding.convertStep 6 8 = BitGroups.step 6 8 := rfl
  have hdecode : TaggedRecipientCrypto.decodeCanonicalBase64 value = Base64.decode value := by
    change (DigitText.read Base64.alphabet value.toList >>= _) = (_ >>= _)
    congr 1
    funext words
    rw [BitGroups.exact, BitGroups.regroup, hstep]
    generalize words.foldl (BitGroups.step 6 8) ([], 0, 0) = state
    obtain ⟨output, accumulator, bits⟩ := state
    dsimp only
    split_ifs <;> rfl
  rw [hdecode, Base64.decode_eq_some]

theorem base64_eq_ok : P256Tag.base64 value count = .ok bytes ↔
    bytes.length = count ∧ value = Base64.encode bytes := by
  rw [P256Tag.base64, okOr_eq_ok, Option.filter_eq_some_iff, decodeCanonicalBase64_eq_some, and_comm,
    decide_eq_true_iff]

theorem publicKey_eq_ok_iff {compact : Bytes 33} {key : K.PublicKey} :
    publicKey K compact = .ok key ↔ compact = compressed K key := by
  rw [publicKey_eq_ok]
  constructor
  · intro hkey
    exact (K.compressed_fromCompressed _ _ hkey).symm
  · intro hcompact
    rw [hcompact]
    exact K.fromCompressed_compressed key

theorem fromX963_eq_some {point : Bytes 65} {key : K.PublicKey} :
    TaggedRecipientCrypto.fromX963 K point = some key ↔ point = K.x963Representation key := by
  simp only [TaggedRecipientCrypto.fromX963, Option.bind_eq_bind, Option.bind_eq_some_iff,
    Option.ite_none_right_eq_some, Option.some.injEq]
  constructor
  · intro hparts
    obtain ⟨found, -, hpoint, rfl⟩ := hparts
    exact hpoint.symm
  · intro hpoint
    subst hpoint
    exact ⟨key, K.fromCompressed_compressed key, rfl, rfl⟩

private theorem sized_eq_some {n : ℕ} {sized : Bytes n} :
    (if h : bytes.length = n then some (⟨bytes, h⟩ : Bytes n) else none) = some sized ↔
      bytes = sized.1 := by
  split_ifs with h
  · rw [Option.some.injEq, Subtype.ext_iff]
  · simp only [false_iff]
    intro hbytes
    exact h (hbytes ▸ sized.2)

variable (K) in
/-- The stanzas that parse, with what they parse to. -/
inductive Parses : Stanza → ℕ × K.PublicKey × List Byte → Prop
  | v1 {body} (key : K.PublicKey) (hbody : body.length = 32) :
      Parses ⟨TaggedRecipientCrypto.stanzaTag, [Base64.encode (compressed K key)], body⟩
        (1, key, compressed K key)
  | v2 {body selection} (key : K.PublicKey) (hbody : body.length = 32)
      (hselection : selection.length = 32) :
      Parses ⟨TaggedRecipientCrypto.stanzaTagV2,
        [Base64.encode (compressed K key), Base64.encode selection], body⟩ (2, key, compressed K key)
  | tagged {body tag} (key : K.PublicKey) (hbody : body.length = 32) (htag : tag.length = 4)
      (hhead : (K.x963Representation key).1.head? = some 4) :
      Parses ⟨"p256tag", [Base64.encode tag, Base64.encode (K.x963Representation key)], body⟩
        (3, key, K.x963Representation key)

theorem tagParse_eq_ok {arguments : List String} {body : List Byte} {key : K.PublicKey} :
    P256Tag.parse K arguments body = .ok key ↔
      body.length = 32 ∧ (K.x963Representation key).1.head? = some 4 ∧
      ∃ tag, tag.length = 4 ∧
        arguments = [Base64.encode tag, Base64.encode (K.x963Representation key)] := by
  simp only [P256Tag.parse, bind_eq_ok, ensure_eq_ok, exists_const, okOr_eq_ok, base64_eq_ok,
    sized_eq_some, fromX963_eq_some]
  constructor
  · intro hparts
    obtain ⟨⟨harguments, hbody⟩, tag, ⟨htag, hname⟩, enc, ⟨-, hpoint⟩, hhead, _, rfl, rfl⟩ := hparts
    obtain ⟨name, encoded, rfl⟩ := List.length_eq_two.mp harguments
    rw [List.getD_cons_zero] at hname
    rw [List.getD_cons_succ, List.getD_cons_zero] at hpoint
    exact ⟨hbody, hhead, tag, htag, by rw [hname, hpoint]⟩
  · intro hparts
    obtain ⟨hbody, hhead, tag, htag, rfl⟩ := hparts
    exact ⟨⟨rfl, hbody⟩, tag, ⟨htag, rfl⟩, _, ⟨(K.x963Representation key).2, rfl⟩, hhead, _, rfl, rfl⟩

theorem parse_of_parses {parsed : ℕ × K.PublicKey × List Byte} (h : Parses K stanza parsed) :
    parse K stanza = .ok parsed := by
  cases h with
  | @v1 body key hbody =>
      have hdecode := decodeCanonicalBase64_eq_some.mpr (rfl : Base64.encode (compressed K key) = _)
      have hkey := publicKey_eq_ok_iff.mpr (rfl : compressed K key = _)
      have htag : ¬ TaggedRecipientCrypto.stanzaTag = "p256tag" := by decide
      simp [parse, htag, hbody, hdecode, hkey, ensure, (compressed K key).2]
  | @v2 body selection key hbody hselection =>
      have hdecode := decodeCanonicalBase64_eq_some.mpr (rfl : Base64.encode (compressed K key) = _)
      have hkey := publicKey_eq_ok_iff.mpr (rfl : compressed K key = _)
      have hselector := base64_eq_ok.mpr ⟨hselection, (rfl : Base64.encode selection = _)⟩
      have htag : ¬ TaggedRecipientCrypto.stanzaTagV2 = "p256tag" := by decide
      have hother : ¬ TaggedRecipientCrypto.stanzaTagV2 = TaggedRecipientCrypto.stanzaTag := by decide
      simp [parse, htag, hother, hbody, hdecode, hkey, hselector, ensure, (compressed K key).2]
  | @tagged body tag key hbody htag hhead =>
      have hkey := tagParse_eq_ok.mpr ⟨hbody, hhead, tag, htag, rfl⟩
      simp [parse, hkey]

theorem parses_of_parse {parsed : ℕ × K.PublicKey × List Byte} (h : parse K stanza = .ok parsed) :
    Parses K stanza parsed := by
  obtain ⟨tag, arguments, body⟩ := stanza
  simp only [parse] at h
  split_ifs at h with htag hone htwo
  · simp only [bind_eq_ok, tagParse_eq_ok, pure_eq_ok, Except.ok.injEq] at h
    obtain ⟨key, ⟨hbody, hhead, name, hname, rfl⟩, rfl⟩ := h
    exact htag ▸ .tagged key hbody hname hhead
  · obtain ⟨rfl, harguments⟩ := hone
    obtain ⟨encoded, rfl⟩ := List.length_eq_one_iff.mp harguments
    simp only [bind_eq_ok, pure_eq_ok, okOr_eq_ok, ensure_eq_ok, exists_const, Except.ok.injEq,
      decodeCanonicalBase64_eq_some, sized_eq_some, List.getD_cons_zero] at h
    obtain ⟨_, rfl, hbody, _, rfl, compact, rfl, h⟩ := h
    rw [if_neg (by decide), bind_eq_ok] at h
    obtain ⟨key, hkey, h⟩ := h
    obtain rfl := publicKey_eq_ok_iff.mp hkey
    exact Except.ok.inj h ▸ .v1 key hbody
  · obtain ⟨rfl, harguments⟩ := htwo
    obtain ⟨encoded, selection, rfl⟩ := List.length_eq_two.mp harguments
    simp only [bind_eq_ok, pure_eq_ok, okOr_eq_ok, ensure_eq_ok, exists_const, Except.ok.injEq,
      decodeCanonicalBase64_eq_some, sized_eq_some, List.getD_cons_zero, List.getD_cons_succ] at h
    obtain ⟨_, rfl, hbody, _, rfl, compact, rfl, h⟩ := h
    simp only [reduceIte, bind_eq_ok, base64_eq_ok] at h
    obtain ⟨decoded, ⟨hselection, rfl⟩, key, hkey, h⟩ := h
    obtain rfl := publicKey_eq_ok_iff.mp hkey
    exact Except.ok.inj h ▸ .v2 key hbody hselection
  · cases h

end Parsing

end AgePluginPhone.Ios.StanzaOpening
