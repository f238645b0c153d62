import AgePluginPhone.Library.P256

/-!
# P-256 points

Points by their affine coordinates. Decompression takes the square root that exists because the
field prime is three modulo four, and checks it.
-/

namespace AgePluginPhone.Library.P256

open Cbor

def fieldPrime : ℕ := 0xffffffff00000001000000000000000000000000ffffffffffffffffffffffff

def curveB : ℕ := 0x5ac635d8aa3a93e7b3ebbd55769886bc651d06b0cc53b0f63bce3c3e27d2604b

/-- `base ^ exponent % modulus` by repeated squaring, for exponents of the given number of bits. -/
def modPow (modulus base : ℕ) : ℕ → ℕ → ℕ
  | 0, _ => 1 % modulus
  | bits + 1, exponent =>
      modPow modulus base bits (exponent / 2) ^ 2 * base ^ (exponent % 2) % modulus

theorem modPow_eq (modulus base : ℕ) {bits exponent : ℕ} (h : exponent < 2 ^ bits) :
    modPow modulus base bits exponent = base ^ exponent % modulus := by
  induction bits generalizing exponent with
  | zero =>
      have hzero : exponent = 0 := by simpa using h
      rw [modPow, hzero, pow_zero]
  | succ bits ih =>
      have hhalf : exponent / 2 < 2 ^ bits := by omega
      have hsplit : exponent / 2 * 2 + exponent % 2 = exponent := Nat.div_add_mod' exponent 2
      calc modPow modulus base bits (exponent / 2) ^ 2 * base ^ (exponent % 2) % modulus
          = (base ^ (exponent / 2) % modulus) ^ 2 * base ^ (exponent % 2) % modulus := by rw [ih hhalf]
        _ = (base ^ (exponent / 2)) ^ 2 * base ^ (exponent % 2) % modulus := by
            rw [Nat.mul_mod, ← Nat.pow_mod, ← Nat.mul_mod]
        _ = base ^ exponent % modulus := by rw [← pow_mul, ← pow_add, hsplit]

abbrev Affine := ℕ × ℕ

def encodeUncompressed (point : Affine) : Bytes 65 :=
  ⟨4 :: (bigEndian 32 point.1 ++ bigEndian 32 point.2), by simp⟩

def encodeCompressed (point : Affine) : Bytes 33 :=
  ⟨(if point.2 % 2 = 0 then 2 else 3) :: bigEndian 32 point.1, by simp⟩

/-- The right-hand side of the curve equation. -/
def equation (x : ℕ) : ℕ := (x ^ 3 % fieldPrime + (fieldPrime - 3) * x + curveB) % fieldPrime

def squareRoot (n : ℕ) : ℕ := modPow fieldPrime n 256 ((fieldPrime + 1) >>> 2)

/-- The point of a compressed encoding. -/
def decodeCompressed (encoded : Bytes 33) : Option Affine :=
  let x := bigEndianValue (encoded.1.drop 1)
  let root := squareRoot (equation x)
  let y := if root % 2 = (encoded.1.headD 0).val % 2 then root else fieldPrime - root
  if IsCompressed encoded ∧ x < fieldPrime ∧ root ^ 2 % fieldPrime = equation x ∧
      encodeCompressed (x, y) = encoded then some (x, y) else none

theorem compress_encodeUncompressed (point : Affine) :
    compress (encodeUncompressed point) = encodeCompressed point := by
  apply Subtype.ext
  have hlast : (4 :: (bigEndian 32 point.1 ++ bigEndian 32 point.2)).getD 64 0 = byte point.2 := by
    simp [bigEndian]
  simp only [compress, encodeUncompressed, encodeCompressed, hlast]
  congr 1
  simp [byte]

theorem squareRoot_lt (n : ℕ) : squareRoot n < fieldPrime := Nat.mod_lt _ (by decide)

theorem decodeCompressed_eq_some {encoded : Bytes 33} {point : Affine}
    (h : decodeCompressed encoded = some point) :
    IsCompressed encoded ∧ encodeCompressed point = encoded ∧ point.1 < fieldPrime ∧
      point.2 ≤ fieldPrime := by
  have hroot := squareRoot_lt (equation (bigEndianValue (encoded.1.drop 1)))
  simp only [decodeCompressed, Option.ite_none_right_eq_some, Option.some.injEq] at h
  obtain ⟨⟨htag, hx, _, hencoded⟩, rfl⟩ := h
  refine ⟨htag, hencoded, hx, ?_⟩
  dsimp only
  split_ifs <;> omega

/-- The points of the curve, as those that decompression finds. -/
abbrev Point := {point : Affine // decodeCompressed (encodeCompressed point) = some point}

namespace Point

def ofAffine (point : Affine) : Option Point :=
  if h : decodeCompressed (encodeCompressed point) = some point then some ⟨point, h⟩ else none

def fromCompressed (encoded : Bytes 33) : Option Point := (decodeCompressed encoded).bind ofAffine

/-- A point from any encoding that determines one: compressed, compact or uncompressed. The
compact form stands for the smaller of the two ordinates. -/
def fromSec1 (encoded : List Byte) : Option Point :=
  if h : encoded.length = 33 then
    if encoded.head? = some 5 then
      (decodeCompressed ⟨2 :: encoded.drop 1, by simp [h]⟩).bind fun point =>
        ofAffine (point.1, min point.2 (fieldPrime - point.2))
    else fromCompressed ⟨encoded, h⟩
  else if encoded.length = 65 ∧ encoded.head? = some 4 then
    ofAffine (bigEndianValue ((encoded.drop 1).take 32), bigEndianValue (encoded.drop 33))
  else none

@[simp] theorem ofAffine_val (point : Point) : ofAffine point = some point := dif_pos point.2

theorem fromCompressed_encodeCompressed (point : Point) :
    fromCompressed (encodeCompressed point) = some point := by
  rw [fromCompressed, point.2, Option.bind_some, ofAffine_val]

theorem encodeCompressed_of_fromCompressed {encoded : Bytes 33} {point : Point}
    (h : fromCompressed encoded = some point) :
    encodeCompressed point = encoded ∧ IsCompressed encoded := by
  obtain ⟨found, hfound, hpoint⟩ := Option.bind_eq_some_iff.mp h
  obtain ⟨htag, hencoded, -⟩ := decodeCompressed_eq_some hfound
  have hsame : found = point := by
    rw [ofAffine] at hpoint
    split_ifs at hpoint
    exact congrArg Subtype.val (Option.some.inj hpoint)
  exact ⟨hsame ▸ hencoded, htag⟩

theorem fromSec1_of_isCompressed {encoded : Bytes 33} (h : IsCompressed encoded) :
    fromSec1 encoded = fromCompressed encoded := by
  have hcompact : encoded.1.head? ≠ some 5 := by
    rcases h with h | h <;> rw [h] <;> decide
  rw [fromSec1, dif_pos encoded.2, if_neg hcompact]

theorem fromSec1_encodeCompressed (point : Point) :
    fromSec1 (encodeCompressed point) = some point := by
  rw [fromSec1_of_isCompressed (decodeCompressed_eq_some point.2).1, fromCompressed_encodeCompressed]

theorem fromSec1_tag {encoded : Bytes 33} {point : Point} (h : fromSec1 encoded = some point) :
    IsCompressed encoded ∨ encoded.1.head? = some 5 := by
  by_cases hcompact : encoded.1.head? = some 5
  · exact Or.inr hcompact
  · rw [fromSec1, dif_pos encoded.2, if_neg hcompact] at h
    exact Or.inl (encodeCompressed_of_fromCompressed h).2

theorem fromSec1_encodeUncompressed (point : Point) :
    fromSec1 (encodeUncompressed point) = some point := by
  obtain ⟨-, -, hx, hy⟩ := decodeCompressed_eq_some point.2
  have hbound : fieldPrime < 256 ^ 32 := by decide
  have hlength := (encodeUncompressed point).2
  have hfirst : ((encodeUncompressed point).1.drop 1).take 32 = bigEndian 32 point.1.1 := by
    rw [encodeUncompressed, List.drop_one, List.tail_cons, List.take_left' (bigEndian_length _ _)]
  have hsecond : (encodeUncompressed point).1.drop 33 = bigEndian 32 point.1.2 := by
    rw [encodeUncompressed, List.drop_succ_cons, List.drop_left' (bigEndian_length _ _)]
  rw [fromSec1, dif_neg (by rw [hlength]; decide), if_pos ⟨hlength, rfl⟩, hfirst, hsecond,
    bigEndianValue_bigEndian (hx.trans hbound), bigEndianValue_bigEndian (hy.trans_lt hbound)]
  exact ofAffine_val point

end Point

end AgePluginPhone.Library.P256
