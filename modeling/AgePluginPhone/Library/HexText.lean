import AgePluginPhone.Library.DigitText

/-!
# Bytes as hexadecimal text

Two lower-case digits for each byte, and the reader of such text.
-/

namespace AgePluginPhone.Library.HexText

def alphabet : List Char := "0123456789abcdef".toList

def nibbles (bytes : List Byte) : List ℕ := bytes.flatMap fun b => [b.val / 16, b.val % 16]

/-- The bytes of pairs of digits. -/
def pairs : List ℕ → List Byte
  | high :: low :: rest => Fin.ofNat 256 (16 * high + low) :: pairs rest
  | _ => []

def encode (bytes : List Byte) : List Char := DigitText.spell alphabet '0' (nibbles bytes)

def decode (chars : List Char) : Option (List Byte) := (DigitText.read alphabet chars).map pairs

theorem nibbles_length (bytes : List Byte) : (nibbles bytes).length = 2 * bytes.length := by
  simp [nibbles, List.length_flatMap, Nat.mul_comm]

theorem nibbles_lt (bytes : List Byte) : ∀ d ∈ nibbles bytes, d < alphabet.length := by
  intro d hd
  obtain ⟨b, -, hd⟩ := List.mem_flatMap.mp hd
  have hb := b.isLt
  have hlength : alphabet.length = 16 := by decide
  simp only [List.mem_cons, List.not_mem_nil, or_false] at hd
  omega

theorem encode_length (bytes : List Byte) : (encode bytes).length = 2 * bytes.length := by
  rw [encode, DigitText.spell_length, nibbles_length]

theorem pairs_nibbles (bytes : List Byte) : pairs (nibbles bytes) = bytes := by
  induction bytes with
  | nil => rfl
  | cons b bytes ih =>
      have hb : Fin.ofNat 256 (16 * (b.val / 16) + b.val % 16) = b := by
        apply Fin.ext
        have hlt := b.isLt
        simp only [Fin.ofNat]
        omega
      change Fin.ofNat 256 (16 * (b.val / 16) + b.val % 16) :: pairs (nibbles bytes) = b :: bytes
      rw [hb, ih]

theorem nibbles_pairs {digits : List ℕ} (hlength : 2 ∣ digits.length) (hlt : ∀ d ∈ digits, d < 16) :
    nibbles (pairs digits) = digits := by
  induction digits using pairs.induct with
  | case1 high low rest ih =>
      simp only [List.forall_mem_cons] at hlt
      obtain ⟨hhigh, hlow, hrest⟩ := hlt
      have hdvd : 2 ∣ rest.length := by
        simp only [List.length_cons] at hlength
        omega
      change (16 * high + low) % 256 / 16 :: (16 * high + low) % 256 % 16 :: nibbles (pairs rest) = _
      rw [ih hdvd hrest]
      congr 1
      · omega
      · congr 1
        omega
  | case2 digits hshort =>
      cases digits with
      | nil => rfl
      | cons d digits =>
          cases digits with
          | nil =>
              simp only [List.length_cons, List.length_nil] at hlength
              omega
          | cons low rest => exact absurd rfl (hshort d low rest)

theorem decode_encode (bytes : List Byte) : decode (encode bytes) = some bytes := by
  have hread : DigitText.read alphabet (encode bytes) = some (nibbles bytes) :=
    (DigitText.read_eq_some (by decide)).mpr ⟨nibbles_lt bytes, rfl⟩
  rw [decode, hread, Option.map_some, pairs_nibbles]

/-- Text of even length is the encoding of what it decodes to. -/
theorem encode_of_decode {chars : List Char} {bytes : List Byte} (hlength : 2 ∣ chars.length)
    (h : decode chars = some bytes) : encode bytes = chars := by
  obtain ⟨digits, hread, rfl⟩ := Option.map_eq_some_iff.mp h
  have hparts : (∀ d ∈ digits, d < alphabet.length) ∧
      DigitText.spell alphabet '0' digits = chars := (DigitText.read_eq_some (by decide)).mp hread
  obtain ⟨hlt, hspell⟩ := hparts
  have hdigits : 2 ∣ digits.length := by
    rw [← hspell, DigitText.spell_length] at hlength
    exact hlength
  rw [encode, nibbles_pairs hdigits hlt, hspell]

theorem mem_encode {bytes : List Byte} {c : Char} (h : c ∈ encode bytes) : c ∈ alphabet := by
  rcases DigitText.mem_spell h with hmem | rfl
  · exact hmem
  · decide

end AgePluginPhone.Library.HexText
