import AgePluginPhone.Android.RecipientText
import AgePluginPhone.Phone.TablePlatforms

/-!
# Agreement on recipient texts

The three platforms write one text for a key, and read a recipient from exactly these texts.
-/

namespace AgePluginPhone.Phone.Recipients

open Library P256 AgePluginPhone.Core AgePluginPhone.Phone.Stanza

variable {C : Crates} {K : Ios.CryptoKit} {J : Android.TaggedRecipientCrypto.Jca}
  {lowercase : String → String}

section Encoding

variable {key : C.PublicKey} {kitKey : K.PublicKey} {jcaKey : J.PublicKey} {point : Affine}

/-- The Swift encoder is bech32 over the library's words. -/
private theorem ios_encode (tagged : Bool) : Ios.RecipientEncoding.encode K kitKey tagged =
    Bech32.encode (if tagged then "age1tag" else "age1phone")
      (Bech32.wordsOf ((if tagged then [] else [1]) ++ (Ios.compressed K kitKey).1)) := by
  cases tagged <;> rfl

theorem ios_recipient (hkey : K.x963Representation kitKey = C.uncompressedPoint key) :
    Ios.RecipientEncoding.encode K kitKey false = Recipient.toString C key ∧
      Ios.RecipientEncoding.encode K kitKey true = Tag.recipient C key := by
  have hcompressed : Ios.compressed K kitKey = encodePublic C key :=
    congrArg compress hkey
  constructor
  · rw [ios_encode, hcompressed]
    rfl
  · rw [ios_encode, hcompressed]
    rfl

theorem android_recipient (hkey : C.uncompressedPoint key = encodeUncompressed (J.w jcaKey)) :
    Android.TaggedRecipientCrypto.encodeRecipient J jcaKey = .ok (Recipient.toString C key) := by
  rw [Android.TaggedRecipientCrypto.encodeRecipient_eq, Recipient.toString,
    encodePublic_of_point hkey]
  rfl

end Encoding

section Decoding

variable {value : String}

/-- The keys that Android and the desktop read from one text are of one point. -/
theorem same_point (hC : CratePoints C)
    (hlowercase : Android.TaggedRecipientCrypto.LowercaseAscii lowercase) {key : C.PublicKey}
    {jcaKey : J.PublicKey}
    (handroid : Android.TaggedRecipientCrypto.decodeRecipient J lowercase value = .ok jcaKey)
    (hdesktop : Recipient.parse C value = .ok key) :
    C.uncompressedPoint key = encodeUncompressed (J.w jcaKey) := by
  obtain ⟨point, hpoint, hkey⟩ := hC.onCurve key
  obtain ⟨found, rfl⟩ := exists_android J hpoint
  have htext := Recipient.parse_eq_ok.mp hdesktop
  have hfound := (Android.TaggedRecipientCrypto.decodeRecipient_eq_ok hlowercase).mpr
    (android_recipient hkey)
  rw [← htext, handroid, Except.ok.injEq] at hfound
  rw [hkey, hfound]

end Decoding

/-- For one key the three encoders give one text; Android decodes exactly the texts of keys, to
that key, and so does the desktop, from the same texts and to the same point. -/
theorem recipient_texts (hC : CratePoints C)
    (hlowercase : Android.TaggedRecipientCrypto.LowercaseAscii lowercase) :
    (∀ (key : C.PublicKey) (kitKey : K.PublicKey) (jcaKey : J.PublicKey),
      K.x963Representation kitKey = C.uncompressedPoint key →
      C.uncompressedPoint key = encodeUncompressed (J.w jcaKey) →
      Ios.RecipientEncoding.encode K kitKey false = Recipient.toString C key ∧
      Ios.RecipientEncoding.encode K kitKey true = Tag.recipient C key ∧
      Android.TaggedRecipientCrypto.encodeRecipient J jcaKey =
        .ok (Recipient.toString C key)) ∧
    (∀ value (jcaKey : J.PublicKey),
      Android.TaggedRecipientCrypto.decodeRecipient J lowercase value = .ok jcaKey ↔
        Android.TaggedRecipientCrypto.encodeRecipient J jcaKey = .ok value) ∧
    (∀ value, (∃ jcaKey, Android.TaggedRecipientCrypto.decodeRecipient J lowercase value =
      .ok jcaKey) ↔ ∃ key, Recipient.parse C value = .ok key) ∧
    ∀ value (jcaKey : J.PublicKey) key,
      Android.TaggedRecipientCrypto.decodeRecipient J lowercase value = .ok jcaKey →
      Recipient.parse C value = .ok key →
        C.uncompressedPoint key = encodeUncompressed (J.w jcaKey) := by
  refine ⟨?_, fun value jcaKey => ?_, fun value => ?_, ?_⟩
  · intro key kitKey jcaKey hios handroid
    obtain ⟨hphone, htag⟩ := ios_recipient hios
    exact ⟨hphone, htag, android_recipient handroid⟩
  · exact Android.TaggedRecipientCrypto.decodeRecipient_eq_ok hlowercase
  · constructor
    · rintro ⟨jcaKey, hdecode⟩
      have htext := (Android.TaggedRecipientCrypto.decodeRecipient_eq_ok hlowercase).mp hdecode
      obtain ⟨key, hkey⟩ := hC.isKey (J.w jcaKey) (J.w_onCurve jcaKey)
      rw [android_recipient hkey, Except.ok.injEq] at htext
      exact ⟨key, Recipient.parse_eq_ok.mpr htext.symm⟩
    · rintro ⟨key, hparse⟩
      obtain ⟨point, hpoint, hkey⟩ := hC.onCurve key
      obtain ⟨jcaKey, rfl⟩ := exists_android J hpoint
      rw [Recipient.parse_eq_ok] at hparse
      refine ⟨jcaKey, (Android.TaggedRecipientCrypto.decodeRecipient_eq_ok hlowercase).mpr ?_⟩
      rw [hparse]
      exact android_recipient hkey
  · intro value jcaKey key
    exact same_point hC hlowercase

/-- The texts of the sample identity. -/
theorem recipient_texts_sample :
    Ios.RecipientEncoding.encode (kitOfTable emptyTable) identityPoint false = sampleRecipient ∧
    Android.TaggedRecipientCrypto.decodeRecipient (jcaOfTable emptyTable) lowercaseAscii
      sampleRecipient = .ok identityPoint := by
  have htexts := recipient_texts (K := kitOfTable emptyTable) (J := jcaOfTable emptyTable)
    (paddedCrates_points emptyTable)
    lowercaseAscii_ascii
  obtain ⟨hencoders, hdecoder, -⟩ := htexts
  obtain ⟨hios, -, handroid⟩ := hencoders identityPoint identityPoint identityPoint rfl rfl
  have hsample : sampleRecipient = Recipient.toString (paddedCrates emptyTable) identityPoint :=
    sampleRecipient_eq emptyTable
  rw [← hsample] at hios handroid
  exact ⟨hios, (hdecoder _ _).mpr handroid⟩

end AgePluginPhone.Phone.Recipients
