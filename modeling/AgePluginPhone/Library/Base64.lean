import AgePluginPhone.Library.BitGroups
import AgePluginPhone.Library.CborItem
import AgePluginPhone.Library.DigitText

/-!
# Unpadded base64

The standard and the url alphabet without padding. Decoding is strict: the unused bits of the last character
must be zero, so every byte string has one text.
-/

namespace AgePluginPhone.Library.Base64

def alphabet : List Char :=
  "ABCDEFGHIJKLMNOPQRSTUVWXYZabcdefghijklmnopqrstuvwxyz0123456789+/".toList

/-- The alphabet of base64url. -/
def urlAlphabet : List Char :=
  "ABCDEFGHIJKLMNOPQRSTUVWXYZabcdefghijklmnopqrstuvwxyz0123456789-_".toList

def encodeWith (chars : List Char) (bytes : List Byte) : String :=
  String.ofList (DigitText.spell chars 'A' (BitGroups.padded 8 6 (bytes.map Fin.val)))

def decodeWith (chars : List Char) (text : String) : Option (List Byte) := do
  let words ← DigitText.read chars text.toList
  let values ← BitGroups.exact 6 8 words
  return values.map Cbor.byte

def encode (bytes : List Byte) : String :=
  String.ofList (DigitText.spell alphabet 'A' (BitGroups.padded 8 6 (bytes.map Fin.val)))

def decode (text : String) : Option (List Byte) := do
  let words ← DigitText.read alphabet text.toList
  let values ← BitGroups.exact 6 8 words
  return values.map Cbor.byte

def encodeUrl (bytes : List Byte) : String := encodeWith urlAlphabet bytes

def decodeUrl (text : String) : Option (List Byte) := decodeWith urlAlphabet text

/-- Sixty-four different ASCII characters. -/
structure IsAlphabet (chars : List Char) : Prop where
  nodup : chars.Nodup
  length : chars.length = 64
  ascii : chars.all fun c => c.utf8Size == 1

/-- The alphabet with its last two characters. -/
private def alphanumericsWith (c d : Char) : List Char :=
  ['A', 'B', 'C', 'D', 'E', 'F', 'G', 'H', 'I', 'J', 'K', 'L', 'M', 'N', 'O', 'P', 'Q', 'R', 'S', 'T',
    'U', 'V', 'W', 'X', 'Y', 'Z', 'a', 'b', 'c', 'd', 'e', 'f', 'g', 'h', 'i', 'j', 'k', 'l', 'm', 'n',
    'o', 'p', 'q', 'r', 's', 't', 'u', 'v', 'w', 'x', 'y', 'z', '0', '1', '2', '3', '4', '5', '6', '7',
    '8', '9', c, d]

private theorem alphabet_eq : alphabet = alphanumericsWith '+' '/' := String.toList_ofList

private theorem urlAlphabet_eq : urlAlphabet = alphanumericsWith '-' '_' := String.toList_ofList

theorem alphabet_isAlphabet : IsAlphabet alphabet := by
  rw [alphabet_eq]
  refine ⟨List.Nodup.of_map Char.toNat ?_, rfl, rfl⟩
  simp only [alphanumericsWith, List.map_cons, List.map_nil, Char.reduceToNat]
  decide

theorem urlAlphabet_isAlphabet : IsAlphabet urlAlphabet := by
  rw [urlAlphabet_eq]
  refine ⟨List.Nodup.of_map Char.toNat ?_, rfl, rfl⟩
  simp only [alphanumericsWith, List.map_cons, List.map_nil, Char.reduceToNat]
  decide

private theorem byte_values_lt (bytes : List Byte) : ∀ d ∈ bytes.map Fin.val, d < 2 ^ 8 := by
  intro d hd
  obtain ⟨b, -, rfl⟩ := List.mem_map.mp hd
  exact b.isLt

private theorem map_val_byte {values : List ℕ} (h : ∀ d ∈ values, d < 2 ^ 8) :
    (values.map Cbor.byte).map Fin.val = values := by
  rw [List.map_map]
  conv_rhs => rw [← List.map_id values]
  apply List.map_congr_left
  intro d hd
  exact Nat.mod_eq_of_lt (h d hd)

section Alphabets

variable {chars : List Char}

/-- Decoding accepts exactly the encodings. -/
theorem decodeWith_eq_some (hchars : IsAlphabet chars) {text : String} {bytes : List Byte} :
    decodeWith chars text = some bytes ↔ text = encodeWith chars bytes := by
  have hread {words : List ℕ} : DigitText.read chars text.toList = some words ↔
      (∀ d ∈ words, d < chars.length) ∧ DigitText.spell chars 'A' words = text.toList :=
    DigitText.read_eq_some hchars.nodup
  simp only [hchars.length] at hread
  simp only [decodeWith, Option.bind_eq_bind, Option.bind_eq_some_iff, Option.pure_def,
    Option.some.injEq]
  constructor
  · intro hparts
    obtain ⟨words, hwords, values, hvalues, hbytes⟩ := hparts
    obtain ⟨hlt, hspell⟩ := hread.mp hwords
    have hbound := ((BitGroups.exact_eq_some (by decide) (by decide) hlt).mp hvalues).1
    have hpadded := BitGroups.padded_of_exact (by decide) (by decide) hlt hvalues
    subst hbytes
    rw [encodeWith, map_val_byte hbound, hpadded, hspell, String.ofList_toList]
  · intro htext
    subst htext
    have hlt : ∀ d ∈ BitGroups.padded 8 6 (bytes.map Fin.val), d < 2 ^ 6 :=
      BitGroups.padded_lt (by decide) (byte_values_lt bytes)
    refine ⟨_, hread.mpr ⟨hlt, by rw [encodeWith, String.toList_ofList]⟩, bytes.map Fin.val, ?_,
      Cbor.map_byte_val bytes⟩
    exact BitGroups.exact_padded (by decide) (by decide) (byte_values_lt bytes)

theorem encodeWith_length (hchars : IsAlphabet chars) (bytes : List Byte) :
    (utf8 (encodeWith chars bytes)).length = (8 * bytes.length + 5) / 6 := by
  rw [encodeWith, DigitText.utf8_spell_length hchars.ascii rfl,
    BitGroups.padded_length (by decide) (byte_values_lt bytes), List.length_map]

end Alphabets

theorem decode_eq_some {text : String} {bytes : List Byte} :
    decode text = some bytes ↔ text = encode bytes :=
  decodeWith_eq_some alphabet_isAlphabet

@[simp] theorem decode_encode (bytes : List Byte) : decode (encode bytes) = some bytes :=
  decode_eq_some.mpr rfl

theorem encode_injective : Function.Injective encode := by
  intro a b h
  have ha := decode_encode a
  rw [h, decode_encode] at ha
  exact (Option.some.inj ha).symm

theorem encode_length (bytes : List Byte) :
    (utf8 (encode bytes)).length = (8 * bytes.length + 5) / 6 :=
  encodeWith_length alphabet_isAlphabet bytes

theorem decodeUrl_eq_some {text : String} {bytes : List Byte} :
    decodeUrl text = some bytes ↔ text = encodeUrl bytes :=
  decodeWith_eq_some urlAlphabet_isAlphabet

theorem encodeUrl_injective : Function.Injective encodeUrl := by
  intro a b h
  have ha := decodeUrl_eq_some.mpr (rfl : encodeUrl a = encodeUrl a)
  rw [h, decodeUrl_eq_some.mpr rfl] at ha
  exact (Option.some.inj ha).symm

theorem encodeUrl_length (bytes : List Byte) :
    (utf8 (encodeUrl bytes)).length = (8 * bytes.length + 5) / 6 :=
  encodeWith_length urlAlphabet_isAlphabet bytes

theorem mem_encode {bytes : List Byte} {c : Char} (h : c ∈ (encode bytes).toList) :
    c ∈ alphabet := by
  rw [encode, String.toList_ofList] at h
  rcases DigitText.mem_spell h with hmem | hfallback
  · exact hmem
  · rw [hfallback, alphabet_eq]
    exact List.mem_cons_self

theorem mem_encodeUrl {bytes : List Byte} {c : Char} (h : c ∈ (encodeUrl bytes).toList) :
    c ∈ urlAlphabet := by
  rw [encodeUrl, encodeWith, String.toList_ofList] at h
  rcases DigitText.mem_spell h with hmem | hfallback
  · exact hmem
  · rw [hfallback, urlAlphabet_eq]
    exact List.mem_cons_self

theorem equals_not_mem_encodeUrl (bytes : List Byte) : '=' ∉ (encodeUrl bytes).toList := by
  intro hmem
  have halphabet := mem_encodeUrl hmem
  rw [urlAlphabet_eq] at halphabet
  simp [alphanumericsWith] at halphabet

theorem encodeUrl_ne_empty {bytes : List Byte} (h : bytes ≠ []) : encodeUrl bytes ≠ "" := by
  intro hempty
  have hlength := encodeUrl_length bytes
  rw [hempty] at hlength
  have hpositive := List.length_pos_of_ne_nil h
  have hzero : (utf8 "").length = 0 := rfl
  omega

end AgePluginPhone.Library.Base64
