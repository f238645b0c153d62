import AgePluginPhone.Library.CborItem
import AgePluginPhone.Library.Fallible

/-!
# P-256 keys and recipients on iOS

What the app takes from CryptoKit, and `RecipientEncoding`: the compressed form of a public key
and the bech32 text of a recipient.
-/

namespace AgePluginPhone.Ios

open Library

abbrev Digest := Bytes 32

/-- `RecipientEncoding.compressed`, from an uncompressed X9.63 point. -/
def compressX963 (x963 : Bytes 65) : Bytes 33 :=
  ⟨(if (x963.1.getD 64 0).val % 2 = 0 then 2 else 3) :: (x963.1.drop 1).take 32, by
    simp [x963.2]⟩

/-- CryptoKit: public keys, decoding of their compressed form, signature verification and SHA-256.
The laws are those of SEC 1 point compression. -/
structure CryptoKit where
  PublicKey : Type
  [decEq : DecidableEq PublicKey]
  x963Representation : PublicKey → Bytes 65
  fromCompressed : Bytes 33 → Option PublicKey
  fromCompressed_compressed : ∀ key, fromCompressed (compressX963 (x963Representation key)) = some key
  compressed_fromCompressed : ∀ bytes key, fromCompressed bytes = some key →
    compressX963 (x963Representation key) = bytes
  isValidSignature : PublicKey → List Byte → Bytes 64 → Bool
  sha256 : List Byte → Digest

attribute [instance] CryptoKit.decEq

variable (K : CryptoKit)

/-- `RecipientEncoding.compressed` and `TaggedRecipientCrypto.compressedSigning`. -/
def compressed (key : K.PublicKey) : Bytes 33 := compressX963 (K.x963Representation key)

theorem compressed_injective : Function.Injective (compressed K) := by
  intro a b h
  have ha := K.fromCompressed_compressed a
  rw [show compressX963 (K.x963Representation a) = compressed K b from h,
    show compressed K b = compressX963 (K.x963Representation b) from rfl,
    K.fromCompressed_compressed b] at ha
  exact (Option.some.inj ha).symm

namespace RecipientEncoding

def charset : List Char := "qpzry9x8gf2tvdw0s3jn54khce6mua7l".toList

def generators : List ℕ := [0x3b6a57b2, 0x26508e6d, 0x1ea119fa, 0x3d4233dd, 0x2a1462b3]

def hrpExpand (value : String) : List ℕ :=
  (utf8 value).map (fun b => b.val >>> 5) ++ [0] ++ (utf8 value).map fun b => b.val &&& 31

def polymodStep (checksum value : ℕ) : ℕ :=
  let top := checksum >>> 25
  let shifted := ((checksum &&& 0x01ffffff) <<< 5) ^^^ value
  generators.zipIdx.foldl (fun acc (generator, index) =>
    if (top >>> index) &&& 1 ≠ 0 then acc ^^^ generator else acc) shifted

def polymod (values : List ℕ) : ℕ := values.foldl polymodStep 1

/-- One round of `convertBits`: shift a value in, then emit every complete output word. -/
def convertStep (fromBits toBits : ℕ) (state : List ℕ × ℕ × ℕ) (value : ℕ) : List ℕ × ℕ × ℕ :=
  let (output, accumulator, bits) := state
  let accumulator := ((accumulator <<< fromBits) ||| value) &&& ((1 <<< (fromBits + toBits - 1)) - 1)
  let bits := bits + fromBits
  let words := (List.range (bits / toBits)).map fun i =>
    (accumulator >>> (bits - toBits * (i + 1))) &&& ((1 <<< toBits) - 1)
  (output ++ words, accumulator, bits % toBits)

/-- `convertBits` with padding, on values that fit `fromBits`. -/
def convertBits (values : List ℕ) (fromBits toBits : ℕ) : List ℕ :=
  let (output, accumulator, bits) := values.foldl (convertStep fromBits toBits) ([], 0, 0)
  if 0 < bits then output ++ [(accumulator <<< (toBits - bits)) &&& ((1 <<< toBits) - 1)]
  else output

def encode (key : K.PublicKey) (tagged : Bool) : String :=
  let hrp := if tagged then "age1tag" else "age1phone"
  let payload := (if tagged then [] else [1]) ++ (compressed K key).1.map Fin.val
  let words := convertBits payload 8 5
  let checksumValue := polymod (hrpExpand hrp ++ words ++ List.replicate 6 0) ^^^ 1
  let checksum := (List.range 6).map fun i => (checksumValue >>> (5 * (5 - i))) &&& 31
  hrp ++ "1" ++ String.ofList ((words ++ checksum).map fun word => charset.getD word 'q')

section Length

theorem convertStep_count (fromBits toBits : ℕ) (values : List ℕ) (state : List ℕ × ℕ × ℕ) :
    toBits * (values.foldl (convertStep fromBits toBits) state).1.length +
        (values.foldl (convertStep fromBits toBits) state).2.2 =
      toBits * state.1.length + state.2.2 + fromBits * values.length := by
  induction values generalizing state with
  | nil => simp
  | cons value values ih =>
      rw [List.foldl_cons, ih]
      simp only [convertStep, List.length_append, List.length_map, List.length_range,
        List.length_cons]
      have := Nat.div_add_mod (state.2.2 + fromBits) toBits
      ring_nf at this ⊢
      omega

theorem convertBits_length_le (values : List ℕ) (fromBits toBits : ℕ) (h : 0 < toBits) :
    (convertBits values fromBits toBits).length ≤ fromBits * values.length / toBits + 1 := by
  have hcount := convertStep_count fromBits toBits values ([], 0, 0)
  simp only [List.length_nil, Nat.mul_zero, Nat.zero_add, Nat.add_zero] at hcount
  have hle : (values.foldl (convertStep fromBits toBits) ([], 0, 0)).1.length ≤
      fromBits * values.length / toBits := by
    rw [Nat.le_div_iff_mul_le h, Nat.mul_comm]
    omega
  simp only [convertBits]
  split_ifs
  · simpa using hle
  · omega

private theorem utf8_length (s : String) : (utf8 s).length = s.utf8ByteSize := by
  simp [utf8]

private theorem ofList_size {chars : List Char} (h : ∀ c ∈ chars, c.utf8Size = 1) :
    (String.ofList chars).utf8ByteSize = chars.length := by
  induction chars with
  | nil => rfl
  | cons c chars ih =>
      obtain ⟨hhead, htail⟩ := List.forall_mem_cons.mp h
      rw [String.ofList_cons, String.utf8ByteSize_append, String.utf8ByteSize_singleton, hhead,
        ih htail, List.length_cons, Nat.add_comm]

private theorem charset_size (word : ℕ) : (charset.getD word 'q').utf8Size = 1 := by
  have hall : charset.all (fun c => c.utf8Size == 1) := by decide +kernel
  rcases lt_or_ge word charset.length with hlt | hge
  · rw [List.getD_eq_getElem _ _ hlt]
    exact beq_iff_eq.mp (List.all_eq_true.mp hall _ (List.getElem_mem hlt))
  · rw [List.getD_eq_default _ _ hge]
    rfl

private theorem text_size (words : List ℕ) :
    (String.ofList (words.map fun word => charset.getD word 'q')).utf8ByteSize = words.length := by
  rw [ofList_size, List.length_map]
  intro c hc
  obtain ⟨word, -, rfl⟩ := List.mem_map.mp hc
  exact charset_size word

/-- Every recipient fits the text bounds of the pairing formats. -/
theorem encode_length_le (key : K.PublicKey) (tagged : Bool) :
    (utf8 (encode K key tagged)).length ≤ 90 := by
  have hpayload : ((if tagged then [] else [1]) ++ (compressed K key).1.map Fin.val).length ≤ 34 := by
    have := (compressed K key).2
    cases tagged <;> simp [this]
  have hwords := convertBits_length_le
    ((if tagged then [] else [1]) ++ (compressed K key).1.map Fin.val) 8 5 (by decide)
  have hbound : (convertBits ((if tagged then [] else [1]) ++ (compressed K key).1.map Fin.val)
      8 5).length ≤ 55 := by omega
  have hhrp : (if tagged then "age1tag" else "age1phone").utf8ByteSize ≤ 9 := by
    cases tagged <;> decide
  have hsep : "1".utf8ByteSize = 1 := by decide
  rw [utf8_length, encode, String.utf8ByteSize_append, String.utf8ByteSize_append, hsep,
    text_size]
  simp only [List.length_map, List.length_append, List.length_range]
  omega

end Length

end RecipientEncoding

end AgePluginPhone.Ios
