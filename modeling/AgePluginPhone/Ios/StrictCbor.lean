import AgePluginPhone.Library.CborItem
import AgePluginPhone.Library.Fallible

/-!
# Strict CBOR on iOS

`StrictCBOR` reads one definite-length item of unsigned integers, byte strings, text, arrays and
null in canonical form. Its values are the library's items; it never yields a negative integer.
-/

namespace AgePluginPhone.Ios

open Library Cbor

inductive StrictCborError
  | malformed
  | unsupported
  | nonCanonical
  | limit
  deriving DecidableEq

namespace StrictCbor

/-- A fixed-width argument, which must be above what the next shorter form can hold. -/
def readFixed (width floor : ℕ) (input : List Byte) : Except StrictCborError (ℕ × List Byte) := do
  let (value, rest) ← okOr (takeArgument width input) .malformed
  ensure (floor < value) .nonCanonical
  return (value, rest)

def readLength (additional : ℕ) (input : List Byte) : Except StrictCborError (ℕ × List Byte) :=
  if additional < 24 then .ok (additional, input)
  else if additional = 24 then readFixed 1 23 input
  else if additional = 25 then readFixed 2 0xff input
  else if additional = 26 then readFixed 4 0xffff input
  else if additional = 27 then readFixed 8 0xffffffff input
  else .error .unsupported

def takeContent (length : ℕ) (input : List Byte) :
    Except StrictCborError (List Byte × List Byte) := do
  ensure (length ≤ input.length) .malformed
  return (input.take length, input.drop length)

def parseMany (parseItem : List Byte → Except StrictCborError (Item × List Byte)) :
    ℕ → List Byte → Except StrictCborError (List Item × List Byte)
  | 0, input => .ok ([], input)
  | count + 1, input => do
      let (item, rest) ← parseItem input
      let (items, rest) ← parseMany parseItem count rest
      return (item :: items, rest)

/-- `parse` with the number of levels left of its depth limit. -/
def parse (maximumArrayElements : ℕ) :
    ℕ → List Byte → Except StrictCborError (Item × List Byte)
  | 0, _ => .error .limit
  | _ + 1, [] => .error .limit
  | levels + 1, initial :: rest => do
      let major := initial.val / 32
      let additional := initial.val % 32
      if major = 7 ∧ additional = 22 then return (.null, rest)
      ensure (major ≤ 4) .unsupported
      let (length, rest) ← readLength additional rest
      match major with
      | 0 => return (.unsigned length, rest)
      | 2 =>
          let (content, rest) ← takeContent length rest
          return (.bytes content, rest)
      | 3 =>
          let (content, rest) ← takeContent length rest
          let text ← okOr (fromUtf8 content) .malformed
          ensure (utf8 text = content) .malformed
          return (.text text, rest)
      | 4 =>
          ensure (length ≤ maximumArrayElements) .limit
          let (items, rest) ← parseMany (parse maximumArrayElements levels) length rest
          return (.array items, rest)
      | _ => .error .unsupported

def maximumDepth : ℕ := 16

def decode (data : List Byte) (maximumBytes maximumArrayElements : ℕ) :
    Except StrictCborError Item := do
  ensure (data ≠ [] ∧ data.length ≤ maximumBytes ∧ 0 < maximumArrayElements) .limit
  let (value, rest) ← parse maximumArrayElements (maximumDepth + 1) data
  ensure (rest = [] ∧ value.encode = data) .nonCanonical
  return value

/-- The limits where a caller gives none. -/
def decodeDefault (data : List Byte) : Except StrictCborError Item := decode data 65536 128

def exactArray (count : ℕ) : Item → Except StrictCborError (List Item)
  | .array items => if items.length = count then .ok items else .error .malformed
  | _ => .error .malformed

def exactBytes (count : ℕ) : Item → Except StrictCborError (Bytes count)
  | .bytes content => if h : content.length = count then .ok ⟨content, h⟩ else .error .malformed
  | _ => .error .malformed

/-- `exactBytes` without a length. -/
def anyBytes : Item → Except StrictCborError (List Byte)
  | .bytes content => .ok content
  | _ => .error .malformed

def boundedText (maximumUtf8Bytes : ℕ) : Item → Except StrictCborError String
  | .text content =>
      if (utf8 content).length ≤ maximumUtf8Bytes then .ok content else .error .malformed
  | _ => .error .malformed

/-- The parser yields no number of more than 64 bits. -/
def exactUnsigned : Item → Except StrictCborError U64
  | .unsigned n => if h : n < 18446744073709551616 then .ok ⟨n, h⟩ else .error .malformed
  | _ => .error .malformed

section Values

variable {value : Item}

theorem exactUnsigned_eq_ok {n : U64} :
    exactUnsigned value = .ok n ↔ value = .unsigned n.val := by
  cases value with
  | unsigned k =>
      rw [exactUnsigned, Item.unsigned.injEq]
      by_cases hk : k < 18446744073709551616
      · rw [dif_pos hk, Except.ok.injEq, Fin.ext_iff]
      · rw [dif_neg hk]
        simp only [reduceCtorEq, false_iff]
        intro heq
        exact hk (heq ▸ n.isLt)
  | _ => simp [exactUnsigned]

theorem exactBytes_eq_ok {count : ℕ} {content : Bytes count} :
    exactBytes count value = .ok content ↔ value = .bytes content.1 := by
  cases value with
  | bytes found =>
      rw [exactBytes, Item.bytes.injEq]
      by_cases hlength : found.length = count
      · rw [dif_pos hlength, Except.ok.injEq, Subtype.ext_iff]
      · rw [dif_neg hlength]
        simp only [reduceCtorEq, false_iff]
        intro heq
        exact hlength (heq ▸ content.2)
  | _ => simp [exactBytes]

theorem anyBytes_eq_ok {content : List Byte} :
    anyBytes value = .ok content ↔ value = .bytes content := by
  cases value <;> simp [anyBytes]

theorem exactArray_eq_ok {count : ℕ} {items : List Item} :
    exactArray count value = .ok items ↔ value = .array items ∧ items.length = count := by
  cases value with
  | array found =>
      simp only [exactArray, Item.array.injEq]
      by_cases hlength : found.length = count
      · rw [if_pos hlength, Except.ok.injEq]
        exact ⟨fun h => ⟨h, h ▸ hlength⟩, And.left⟩
      · rw [if_neg hlength]
        simp only [reduceCtorEq, false_iff, not_and]
        intro heq
        exact heq ▸ hlength
  | _ => simp [exactArray]

/-- What is decoded has the encoding it was decoded from. -/
theorem encode_of_decode {data : List Byte} {maximumBytes maximumArrayElements : ℕ}
    (h : decode data maximumBytes maximumArrayElements = .ok value) : value.encode = data := by
  simp only [decode, bind_eq_ok, ensure_eq_ok, exists_const, pure_eq_ok, Except.ok.injEq] at h
  obtain ⟨-, found, -, hcanonical, rfl⟩ := h
  exact hcanonical.2

end Values

end StrictCbor

/-- Items nested at most `levels` deep that fit a 64-bit head and the array limit. -/
inductive Encodable (maximumArrayElements : ℕ) : ℕ → Item → Prop
  | unsigned {levels n} : n < 2 ^ 64 → Encodable maximumArrayElements (levels + 1) (.unsigned n)
  | bytes {levels content} : content.length < 2 ^ 64 →
      Encodable maximumArrayElements (levels + 1) (.bytes content)
  | text {levels content} : (utf8 content).length < 2 ^ 64 →
      Encodable maximumArrayElements (levels + 1) (.text content)
  | array {levels items} : items.length ≤ maximumArrayElements → items.length < 2 ^ 64 →
      (∀ item ∈ items, Encodable maximumArrayElements levels item) →
      Encodable maximumArrayElements (levels + 1) (.array items)
  | null {levels} : Encodable maximumArrayElements (levels + 1) .null

section RoundTrip

open StrictCbor

variable {limit : ℕ}

private theorem readFixed_bigEndian {width floor n : ℕ} (hlow : floor < n) (hn : n < 256 ^ width)
    (rest : List Byte) : readFixed width floor (bigEndian width n ++ rest) = .ok (n, rest) := by
  simp [readFixed, takeArgument_bigEndian hn, ensure_true _ hlow]

/-- A shortest-form head opens with its major type, and its argument is accepted. -/
private theorem head_eq_cons {major n : ℕ} (hm : major < 8) (hn : n < 2 ^ 64) :
    ∃ initial : Byte, ∃ argument, head major n = initial :: argument ∧
      initial.val / 32 = major ∧
      ∀ rest, readLength (initial.val % 32) (argument ++ rest) = .ok (n, rest) := by
  unfold head
  split_ifs with h1 h2 h3 h4
  · obtain ⟨hq, hr⟩ := byte_split hm (show n < 32 by omega)
    exact ⟨_, [], rfl, hq, fun rest => by simp [readLength, hr, h1]⟩
  · obtain ⟨hq, hr⟩ := byte_split hm (show 24 < 32 by decide)
    refine ⟨_, _, rfl, hq, fun rest => ?_⟩
    have hfixed := readFixed_bigEndian (show 23 < n by omega) (show n < 256 ^ 1 by omega) rest
    simp [readLength, hr, hfixed]
  · obtain ⟨hq, hr⟩ := byte_split hm (show 25 < 32 by decide)
    refine ⟨_, _, rfl, hq, fun rest => ?_⟩
    have hfixed := readFixed_bigEndian (show 255 < n by omega) (show n < 256 ^ 2 by omega) rest
    simp [readLength, hr, hfixed]
  · obtain ⟨hq, hr⟩ := byte_split hm (show 26 < 32 by decide)
    refine ⟨_, _, rfl, hq, fun rest => ?_⟩
    have hfixed := readFixed_bigEndian (show 65535 < n by omega) (show n < 256 ^ 4 by omega) rest
    simp [readLength, hr, hfixed]
  · obtain ⟨hq, hr⟩ := byte_split hm (show 27 < 32 by decide)
    refine ⟨_, _, rfl, hq, fun rest => ?_⟩
    have hfixed := readFixed_bigEndian (show 4294967295 < n by omega) (show n < 256 ^ 8 by omega)
      rest
    simp [readLength, hr, hfixed]

private theorem takeContent_append (content rest : List Byte) :
    takeContent content.length (content ++ rest) = .ok (content, rest) := by
  simp [takeContent, ensure]

theorem parseMany_encodeAll {parseItem : List Byte → Except StrictCborError (Item × List Byte)}
    {items : List Item}
    (h : ∀ item ∈ items, ∀ rest, parseItem (item.encode ++ rest) = .ok (item, rest))
    (rest : List Byte) :
    parseMany parseItem items.length (Item.encodeAll items ++ rest) = .ok (items, rest) := by
  induction items with
  | nil => rfl
  | cons item items ih =>
      obtain ⟨hhead, htail⟩ := List.forall_mem_cons.mp h
      simp [parseMany, Item.encodeAll, hhead, ih htail]

/-- The parser returns exactly the encoded item and leaves what follows it. -/
theorem parse_encode {levels : ℕ} {item : Item} (h : Encodable limit levels item)
    (rest : List Byte) : parse limit levels (item.encode ++ rest) = .ok (item, rest) := by
  induction h generalizing rest with
  | unsigned hn =>
      obtain ⟨initial, argument, hhead, hmajor, hlength⟩ := head_eq_cons (show 0 < 8 by decide) hn
      simp [parse, Item.encode, hhead, hmajor, hlength, ensure]
  | bytes hlen =>
      obtain ⟨initial, argument, hhead, hmajor, hlength⟩ :=
        head_eq_cons (show 2 < 8 by decide) hlen
      simp [parse, Item.encode, hhead, hmajor, hlength, ensure, takeContent_append]
  | text hlen =>
      obtain ⟨initial, argument, hhead, hmajor, hlength⟩ :=
        head_eq_cons (show 3 < 8 by decide) hlen
      simp [parse, Item.encode, hhead, hmajor, hlength, ensure, takeContent_append]
  | array hlimit hlen _ ih =>
      obtain ⟨initial, argument, hhead, hmajor, hlength⟩ :=
        head_eq_cons (show 4 < 8 by decide) hlen
      have hitems := fun rest => parseMany_encodeAll (fun item hitem => ih item hitem) rest
      simp [parse, Item.encode, hhead, hmajor, hlength, ensure, hlimit, hitems]
  | null => simp [parse, Item.encode, head, byte]

/-- An item within the limits is decoded from its own encoding. -/
theorem decode_encode_item {item : Item} {maximumBytes : ℕ}
    (h : Encodable limit (maximumDepth + 1) item) (hlimit : 0 < limit)
    (hsize : item.encode.length ≤ maximumBytes) : decode item.encode maximumBytes limit = .ok item := by
  have hparse := parse_encode h []
  rw [List.append_nil] at hparse
  simp [decode, hparse, ensure, hsize, hlimit, Item.encode_ne_nil]

end RoundTrip

end AgePluginPhone.Ios
