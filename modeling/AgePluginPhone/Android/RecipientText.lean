import AgePluginPhone.Android.TaggedRecipientCrypto
import AgePluginPhone.Library.Bech32Text

/-!
# Recipient texts on Android

`encodeRecipient` and `decodeRecipient` of the Kotlin code. Its polynomial and its hrp expansion
are those of every bech32 code; their values stay below 2^30, within an `Int`.
-/

namespace AgePluginPhone.Android.TaggedRecipientCrypto

open Library P256

def recipientVersion : ℕ := 1

def recipientPayloadBytes : ℕ := 34

def recipientHrp : String := "age1phone"

def bech32Charset : List Char := "qpzry9x8gf2tvdw0s3jn54khce6mua7l".toList

def bech32HrpExpand (value : String) : List ℕ :=
  value.toList.map (fun c => c.toNat >>> 5) ++ [0] ++ value.toList.map fun c => c.toNat &&& 31

def bech32Polymod (values : List ℕ) : ℕ := Bech32.polymod values

def convertBits (values : List ℕ) (fromBits toBits : ℕ) (pad : Bool) :
    Except Failure (List ℕ) := do
  ensure (∀ value ∈ values, value >>> fromBits = 0) .invalidStanza
  let state := BitGroups.regroup fromBits toBits values
  let last := (state.2.1 <<< (toBits - state.2.2)) &&& ((1 <<< toBits) - 1)
  if pad then return if 0 < state.2.2 then state.1 ++ [last] else state.1
  else
    ensure (state.2.2 < fromBits ∧ last = 0) .invalidStanza
    return state.1

/-- The length of a `String`, in UTF-16 code units. -/
def utf16Length (value : String) : ℕ :=
  (value.toList.map fun c => if c.toNat < 0x10000 then 1 else 2).sum

variable (J : Jca)

def encodeRecipient (publicKey : J.PublicKey) : Except Failure String := do
  let compressed ← encodeCompressed J publicKey
  let data ← convertBits (recipientVersion :: compressed.map Fin.val) 8 5 true
  let checksumValue :=
    bech32Polymod (bech32HrpExpand recipientHrp ++ data ++ List.replicate 6 0) ^^^ 1
  let checksum := (List.range 6).map fun index => (checksumValue >>> (5 * (5 - index))) &&& 31
  return recipientHrp ++ "1" ++
    String.ofList ((data ++ checksum).map fun value => bech32Charset.getD value 'q')

/-- `decodeRecipient`, with the platform's `lowercase`. An index is one of characters: no part of a
surrogate pair is the separator. -/
def decodeRecipient (lowercase : String → String) (value : String) : Except Failure J.PublicKey := do
  ensure (value = lowercase value ∧ 8 ≤ utf16Length value ∧ utf16Length value ≤ 90) .invalidStanza
  let separator ← okOr (lastIndexOf '1' value.toList) .invalidStanza
  ensure (0 < separator ∧ value.toList.take separator = recipientHrp.toList) .invalidStanza
  let data ← okOr (DigitText.read bech32Charset (value.toList.drop (separator + 1))) .invalidStanza
  ensure (6 ≤ data.length ∧ bech32Polymod (bech32HrpExpand recipientHrp ++ data) = 1) .invalidStanza
  let payload ← convertBits (data.take (data.length - 6)) 5 8 false
  let payload := payload.map Cbor.byte
  ensure (payload.length = recipientPayloadBytes ∧ payload.head? = some 1) .invalidStanza
  let publicKey ← decodeCompressed J (payload.drop 1)
  let again ← encodeRecipient J publicKey
  ensure (again = value) .invalidStanza
  return publicKey

/-- What is relied on of `lowercase`: on ASCII it changes the capital letters only. -/
def LowercaseAscii (lowercase : String → String) : Prop :=
  ∀ value, (∀ c ∈ value.toList, c.toNat < 128) →
    lowercase value = String.ofList (value.toList.map Char.toLower)

section Words

variable {fromBits toBits : ℕ} {digits : List ℕ}

private theorem shiftRight_zero_of_lt {d : ℕ} (h : d < 2 ^ fromBits) : d >>> fromBits = 0 := by
  rw [Nat.shiftRight_eq_div_pow, Nat.div_eq_of_lt h]

theorem convertBits_pad (h : ∀ d ∈ digits, d < 2 ^ fromBits) :
    convertBits digits fromBits toBits true = .ok (BitGroups.padded fromBits toBits digits) := by
  have hfit : ∀ d ∈ digits, d >>> fromBits = 0 := fun d hd => shiftRight_zero_of_lt (h d hd)
  rw [convertBits, ensure_true _ hfit]
  rfl

theorem convertBits_exact (hto : 0 < toBits) (h : ∀ d ∈ digits, d < 2 ^ fromBits) :
    convertBits digits fromBits toBits false =
      okOr (BitGroups.exact fromBits toBits digits) .invalidStanza := by
  have hfit : ∀ d ∈ digits, d >>> fromBits = 0 := fun d hd => shiftRight_zero_of_lt (h d hd)
  have hpending := (BitGroups.regroup_holds hto h).pending
  have hpow := Nat.two_pow_pos (toBits - (BitGroups.regroup fromBits toBits digits).2.2)
  rw [convertBits, ensure_true _ hfit, ok_bind]
  simp only [BitGroups.last_word hpending.le, Nat.mul_eq_zero, hpow.ne', or_false,
    Bool.false_eq_true, if_false, BitGroups.exact]
  by_cases hexact : (BitGroups.regroup fromBits toBits digits).2.2 < fromBits ∧
      (BitGroups.regroup fromBits toBits digits).2.1 %
        2 ^ (BitGroups.regroup fromBits toBits digits).2.2 = 0
  · rw [ensure_true _ hexact, if_pos hexact]
    rfl
  · rw [ensure_false _ hexact, if_neg hexact]
    rfl

end Words

section Texts

variable {J} {key : J.PublicKey} {value : String}

/-- The words of a recipient's payload. -/
def payloadWords (key : J.PublicKey) : List ℕ :=
  Bech32.wordsOf (1 :: (P256.encodeCompressed (J.w key)).1)

private theorem hrpExpand_eq : bech32HrpExpand recipientHrp = Bech32.hrpExpand recipientHrp := by
  decide +kernel

theorem encodeRecipient_eq (key : J.PublicKey) :
    encodeRecipient J key = .ok (Bech32.encode recipientHrp (payloadWords key)) := by
  have hbytes : ∀ d ∈ recipientVersion :: (P256.encodeCompressed (J.w key)).1.map Fin.val,
      d < 2 ^ 8 := by
    intro d hd
    rcases List.mem_cons.mp hd with rfl | hmem
    · decide
    · obtain ⟨b, -, rfl⟩ := List.mem_map.mp hmem
      exact b.isLt
  rw [encodeRecipient, encodeCompressed_eq, ok_bind, convertBits_pad hbytes, ok_bind, hrpExpand_eq]
  rfl

private theorem utf16Length_ascii (h : ∀ c ∈ value.toList, c.toNat < 128) :
    utf16Length value = value.toList.length := by
  have hone : value.toList.map (fun c => if c.toNat < 0x10000 then 1 else 2) =
      value.toList.map fun _ => 1 := by
    apply List.map_congr_left
    intro c hc
    have hlt := h c hc
    exact if_pos (by omega)
  rw [utf16Length, hone]
  simp

variable {lowercase : String → String}

private theorem lowercase_eq (hlowercase : LowercaseAscii lowercase) {words : List ℕ} :
    lowercase (Bech32.encode recipientHrp words) = Bech32.encode recipientHrp words := by
  have hlower : ∀ c ∈ (Bech32.encode recipientHrp words).toList, c.toLower = c :=
    Bech32.lowercase_encode (by decide +kernel)
  rw [hlowercase _ (Bech32.ascii_encode (by decide +kernel)), List.map_congr_left hlower,
    List.map_id', String.ofList_toList]

/-- Exactly the texts of keys are decoded, to their key. -/
theorem decodeRecipient_eq_ok (hlowercase : LowercaseAscii lowercase) :
    decodeRecipient J lowercase value = .ok key ↔ encodeRecipient J key = .ok value := by
  constructor
  · intro h
    simp only [decodeRecipient, bind_eq_ok, ensure_eq_ok, okOr_eq_ok, pure_eq_ok, exists_const,
      Except.ok.injEq] at h
    obtain ⟨-, _, -, -, _, -, -, _, -, -, found, -, again, hagain, rfl, rfl⟩ := h
    exact hagain
  · intro h
    rw [encodeRecipient_eq, Except.ok.injEq] at h
    subst h
    have hwords : ∀ d ∈ payloadWords key, d < 32 := Bech32.wordsOf_lt _
    have hascii : ∀ c ∈ (Bech32.encode recipientHrp (payloadWords key)).toList, c.toNat < 128 :=
      Bech32.ascii_encode (by decide +kernel)
    have hhrp : recipientHrp.toList.length = 9 := by decide +kernel
    have hcount : (payloadWords key).length = 55 := by
      simp [payloadWords, Bech32.wordsOf_length, (P256.encodeCompressed (J.w key)).2]
    have hlength : utf16Length (Bech32.encode recipientHrp (payloadWords key)) = 71 := by
      rw [utf16Length_ascii hascii, Bech32.length_encode, hhrp, hcount]
    have hdrop : (Bech32.encode recipientHrp (payloadWords key)).toList.drop
        (recipientHrp.toList.length + 1) = DigitText.spell Bech32.charset 'q'
          (payloadWords key ++ Bech32.checksum recipientHrp (payloadWords key)) := by
      rw [Bech32.encode_toList]
      simp
    have hexact : convertBits (payloadWords key) 5 8 false =
        .ok ((1 :: (P256.encodeCompressed (J.w key)).1).map Fin.val) := by
      rw [convertBits_exact (by decide) hwords]
      exact congrArg (okOr · Failure.invalidStanza) (Bech32.exact_wordsOf _)
    simp only [decodeRecipient, bind_eq_ok, ensure_eq_ok, okOr_eq_ok, pure_eq_ok, exists_const,
      Except.ok.injEq]
    refine ⟨⟨(lowercase_eq hlowercase).symm, by omega, by omega⟩, recipientHrp.toList.length,
      Bech32.lastIndexOf_encode, ⟨by omega, ?_⟩, payloadWords key ++
        Bech32.checksum recipientHrp (payloadWords key), ?_, ⟨?_, ?_⟩,
      (1 :: (P256.encodeCompressed (J.w key)).1).map Fin.val, ?_, ⟨?_, rfl⟩, key, ?_, _,
      encodeRecipient_eq key, rfl, rfl⟩
    · rw [Bech32.encode_toList, List.take_left]
    · rw [hdrop]
      exact Bech32.read_data hwords
    · rw [List.length_append, Bech32.checksum_length]
      omega
    · rw [hrpExpand_eq]
      exact Bech32.polymod_checksum recipientHrp (payloadWords key)
    · rw [Bech32.take_data]
      exact hexact
    · simp [recipientPayloadBytes, (P256.encodeCompressed (J.w key)).2]
    · rw [Cbor.map_byte_val, decodeCompressed_eq_ok]
      rfl

end Texts

end AgePluginPhone.Android.TaggedRecipientCrypto
