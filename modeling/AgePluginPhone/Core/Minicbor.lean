import AgePluginPhone.Library.CborItem

/-!
# The minicbor boundary

The Rust side reads and writes CBOR through the `minicbor` crate. Its encoder emits heads in
shortest form. Its decoder is a parameter: the laws state only that it reads back what the
encoder wrote and leaves the rest of the input.
-/

namespace AgePluginPhone.Core

open Library

/-- `Encoder::array`. -/
def encodeArray (count : ℕ) : List Byte := Cbor.head 4 count

/-- `Encoder::u16` and `Encoder::u64`; both emit the shortest unsigned head. -/
def encodeUnsigned (n : ℕ) : List Byte := Cbor.head 0 n

/-- `Encoder::bytes`. -/
def encodeBytes (bytes : List Byte) : List Byte := Cbor.head 2 bytes.length ++ bytes

/-- The `minicbor::Decoder` methods, each from the remaining input to the value read and the
input after it. `array` yields `none` as its value for an indefinite-length array. -/
structure Minicbor where
  array : List Byte → Option (Option ℕ × List Byte)
  u16 : List Byte → Option (U16 × List Byte)
  u64 : List Byte → Option (U64 × List Byte)
  bytes : List Byte → Option (List Byte × List Byte)
  array_encodeArray : ∀ n rest, n < 2 ^ 64 → array (encodeArray n ++ rest) = some (some n, rest)
  u16_encodeUnsigned : ∀ (n : U16) rest, u16 (encodeUnsigned n ++ rest) = some (n, rest)
  u64_encodeUnsigned : ∀ (n : U64) rest, u64 (encodeUnsigned n ++ rest) = some (n, rest)
  bytes_encodeBytes : ∀ b rest, b.length < 2 ^ 64 → bytes (encodeBytes b ++ rest) = some (b, rest)

namespace Minicbor

private def readMajor (major : ℕ) (input : List Byte) : Option (ℕ × List Byte) :=
  match Cbor.readHead input with
  | some (m, n, rest) => if m = major then some (n, rest) else none
  | none => none

private theorem readMajor_head {major n : ℕ} (hm : major < 8) (hn : n < 2 ^ 64)
    (rest : List Byte) : readMajor major (Cbor.head major n ++ rest) = some (n, rest) := by
  simp [readMajor, Cbor.readHead_head hm hn]

private def readUnsigned (bound : ℕ) (input : List Byte) : Option (Fin bound × List Byte) :=
  (readMajor 0 input).bind fun (n, rest) =>
    if h : n < bound then some (⟨n, h⟩, rest) else none

private theorem readUnsigned_encodeUnsigned {bound : ℕ} (hb : bound ≤ 2 ^ 64)
    (n : Fin bound) (rest : List Byte) :
    readUnsigned bound (encodeUnsigned n ++ rest) = some (n, rest) := by
  have hread := readMajor_head (show 0 < 8 by decide) (lt_of_lt_of_le n.isLt hb) rest
  simp only [readUnsigned, encodeUnsigned, hread, Option.bind_some]
  exact dif_pos n.isLt

/-- The definite-length decoder that accepts heads of any width. -/
def definite : Minicbor where
  array input := (readMajor 4 input).map fun (n, rest) => (some n, rest)
  u16 := readUnsigned _
  u64 := readUnsigned _
  bytes input := (readMajor 2 input).bind fun (n, rest) =>
    if n ≤ rest.length then some (rest.take n, rest.drop n) else none
  array_encodeArray n rest hn := by
    simp only [encodeArray, readMajor_head (show 4 < 8 by decide) hn, Option.map_some]
  u16_encodeUnsigned := readUnsigned_encodeUnsigned (by decide)
  u64_encodeUnsigned := readUnsigned_encodeUnsigned (by decide)
  bytes_encodeBytes b rest hb := by
    have hread := readMajor_head (show 2 < 8 by decide) hb (b ++ rest)
    simp [encodeBytes, hread]

end Minicbor

section Text

/-- `Encoder::str`. -/
def encodeStr (s : String) : List Byte := Cbor.head 3 (utf8 s).length ++ utf8 s

/-- `Encoder::null`. -/
def encodeNull : List Byte := Cbor.head 7 22

/-- The `Type`s a decoder tells apart for an optional text. -/
inductive DataType
  | null
  | string
  | other
  deriving DecidableEq

/-- The decoder methods for text and null; `datatype` does not consume its input. -/
structure TextMinicbor extends Minicbor where
  str : List Byte → Option (String × List Byte)
  datatype : List Byte → Option DataType
  null : List Byte → Option (Unit × List Byte)
  str_encodeStr : ∀ s rest, (utf8 s).length < 2 ^ 64 → str (encodeStr s ++ rest) = some (s, rest)
  datatype_encodeStr : ∀ s rest, (utf8 s).length < 2 ^ 64 →
    datatype (encodeStr s ++ rest) = some .string
  datatype_encodeNull : ∀ rest, datatype (encodeNull ++ rest) = some .null
  null_encodeNull : ∀ rest, null (encodeNull ++ rest) = some ((), rest)

private def datatypeOf (major n : ℕ) : DataType :=
  if major = 3 then .string else if major = 7 ∧ n = 22 then .null else .other

/-- Text and null for the definite-length decoder. -/
def TextMinicbor.definite : TextMinicbor where
  toMinicbor := Minicbor.definite
  str input := (Minicbor.readMajor 3 input).bind fun (n, rest) =>
    if n ≤ rest.length then (fromUtf8 (rest.take n)).map fun s => (s, rest.drop n) else none
  datatype input := (Cbor.readHead input).map fun (major, n, _) => datatypeOf major n
  null input := (Minicbor.readMajor 7 input).bind fun (n, rest) =>
    if n = 22 then some ((), rest) else none
  str_encodeStr s rest hs := by
    have hread := Minicbor.readMajor_head (show 3 < 8 by decide) hs (utf8 s ++ rest)
    simp [encodeStr, hread]
  datatype_encodeStr s rest hs := by
    have hread := Cbor.readHead_head (show 3 < 8 by decide) hs (utf8 s ++ rest)
    simp [encodeStr, hread, datatypeOf]
  datatype_encodeNull rest := by
    have hread := Cbor.readHead_head (show 7 < 8 by decide) (show 22 < 2 ^ 64 by decide) rest
    simp [encodeNull, hread, datatypeOf]
  null_encodeNull rest := by
    have hread := Minicbor.readMajor_head (show 7 < 8 by decide) (show 22 < 2 ^ 64 by decide) rest
    simp [encodeNull, hread]

end Text

end AgePluginPhone.Core
