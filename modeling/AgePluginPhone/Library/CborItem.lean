import AgePluginPhone.Library.Cbor

/-!
# CBOR items

Trees of integers, byte strings, text, null and definite-length arrays, with their
shortest-form encoding and a reader that returns every encoded item.
-/

namespace AgePluginPhone.Library

/-- The UTF-8 bytes of a string. -/
def utf8 (s : String) : List Byte := s.toByteArray.data.toList.map UInt8.toFin

def fromUtf8 (bytes : List Byte) : Option String :=
  String.fromUTF8? ⟨(bytes.map UInt8.ofFin).toArray⟩

@[simp] theorem fromUtf8_utf8 (s : String) : fromUtf8 (utf8 s) = some s := by
  have hbytes : (⟨((utf8 s).map UInt8.ofFin).toArray⟩ : ByteArray) = s.toByteArray := by
    simp [utf8, Function.comp_def]
  simp [fromUtf8, hbytes, String.fromUTF8?, String.fromUTF8, s.isValidUTF8]

namespace Cbor

inductive Item
  | unsigned (n : ℕ)
  | negative (n : ℕ)
  | bytes (content : List Byte)
  | text (content : String)
  | array (items : List Item)
  | null

namespace Item

/-- The item of an integer: `negative n` stands for `-1 - n`. -/
def integer : ℤ → Item
  | .ofNat n => unsigned n
  | .negSucc n => negative n

mutual

def encode : Item → List Byte
  | unsigned n => head 0 n
  | negative n => head 1 n
  | bytes content => head 2 content.length ++ content
  | text content => head 3 (utf8 content).length ++ utf8 content
  | array items => head 4 items.length ++ encodeAll items
  | null => head 7 22

def encodeAll : List Item → List Byte
  | [] => []
  | item :: items => encode item ++ encodeAll items

end

theorem encode_unsigned (n : ℕ) : encode (unsigned n) = head 0 n := rfl

theorem encode_bytes (content : List Byte) :
    encode (bytes content) = head 2 content.length ++ content := rfl

theorem encode_text (content : String) :
    encode (text content) = head 3 (utf8 content).length ++ utf8 content := rfl

theorem encode_array (items : List Item) :
    encode (array items) = head 4 items.length ++ encodeAll items := rfl

theorem encodeAll_nil : encodeAll [] = [] := rfl

theorem encodeAll_cons (item : Item) (items : List Item) :
    encodeAll (item :: items) = encode item ++ encodeAll items := rfl

/-- Read `count` consecutive items with the given reader. -/
def readMany (read : List Byte → Option (Item × List Byte)) :
    ℕ → List Byte → Option (List Item × List Byte)
  | 0, input => some ([], input)
  | count + 1, input => do
      let (item, rest) ← read input
      let (items, rest) ← readMany read count rest
      return (item :: items, rest)

private def takeContent (n : ℕ) (rest : List Byte) : Option (List Byte × List Byte) :=
  if n ≤ rest.length then some (rest.take n, rest.drop n) else none

/-- Read one item nested at most `depth` deep. -/
def read : ℕ → List Byte → Option (Item × List Byte)
  | 0, _ => none
  | depth + 1, input => do
      let (major, n, rest) ← readHead input
      match major with
      | 0 => return (unsigned n, rest)
      | 1 => return (negative n, rest)
      | 2 =>
          let (content, rest) ← takeContent n rest
          return (bytes content, rest)
      | 3 =>
          let (content, rest) ← takeContent n rest
          let content ← fromUtf8 content
          return (text content, rest)
      | 4 =>
          let (items, rest) ← readMany (read depth) n rest
          return (array items, rest)
      | 7 => if n = 22 then return (null, rest) else none
      | _ => none

/-- Items nested at most `depth` deep whose integers and lengths fit a 64-bit head. -/
inductive Bounded : ℕ → Item → Prop
  | unsigned {depth n} : n < 2 ^ 64 → Bounded (depth + 1) (.unsigned n)
  | negative {depth n} : n < 2 ^ 64 → Bounded (depth + 1) (.negative n)
  | bytes {depth content} : content.length < 2 ^ 64 → Bounded (depth + 1) (.bytes content)
  | text {depth content} : (utf8 content).length < 2 ^ 64 → Bounded (depth + 1) (.text content)
  | array {depth items} : items.length < 2 ^ 64 → (∀ item ∈ items, Bounded depth item) →
      Bounded (depth + 1) (.array items)
  | null {depth} : Bounded (depth + 1) .null

private theorem takeContent_append (content rest : List Byte) :
    takeContent content.length (content ++ rest) = some (content, rest) := by
  simp [takeContent]

theorem readMany_encodeAll {readItem : List Byte → Option (Item × List Byte)} {items : List Item}
    (h : ∀ item ∈ items, ∀ rest, readItem (encode item ++ rest) = some (item, rest))
    (rest : List Byte) :
    readMany readItem items.length (encodeAll items ++ rest) = some (items, rest) := by
  induction items with
  | nil => simp [readMany, encodeAll_nil]
  | cons item items ih =>
      obtain ⟨hhead, htail⟩ := List.forall_mem_cons.mp h
      simp [readMany, encodeAll_cons, hhead, ih htail]

/-- Reading returns exactly the encoded item and leaves what follows it. -/
theorem read_encode {depth : ℕ} {item : Item} (h : Bounded depth item) (rest : List Byte) :
    read depth (encode item ++ rest) = some (item, rest) := by
  induction h generalizing rest with
  | unsigned hn => simp [read, encode, readHead_head (show 0 < 8 by decide) hn]
  | negative hn => simp [read, encode, readHead_head (show 1 < 8 by decide) hn]
  | bytes hlen =>
      simp [read, encode, readHead_head (show 2 < 8 by decide) hlen, takeContent_append]
  | text hlen =>
      simp [read, encode, readHead_head (show 3 < 8 by decide) hlen, takeContent_append]
  | array hlen _ ih =>
      have hitems := fun rest => readMany_encodeAll (fun item hitem => ih item hitem) rest
      simp [read, encode, readHead_head (show 4 < 8 by decide) hlen, hitems]
  | null => simp [read, encode, readHead_head (show 7 < 8 by decide) (show 22 < 2 ^ 64 by decide)]

theorem bounded_integer {depth : ℕ} {n : ℤ} (hlow : -2 ^ 63 ≤ n) (hhigh : n < 2 ^ 63) :
    Bounded (depth + 1) (integer n) := by
  cases n with
  | ofNat n => exact .unsigned (by simp only [Int.ofNat_eq_natCast] at hhigh; omega)
  | negSucc n => exact .negative (by omega)

theorem encode_ne_nil (item : Item) : encode item ≠ [] := by
  cases item <;> simp [encode, head_ne_nil]

section Length

theorem encode_unsigned_length_le (n : ℕ) : (encode (unsigned n)).length ≤ 9 := by
  rw [encode_unsigned]
  exact head_length_le 0 n

theorem encode_bytes_length_le {n : ℕ} {content : List Byte} (h : content.length ≤ n) :
    (encode (bytes content)).length ≤ 9 + n := by
  rw [encode_bytes, List.length_append]
  exact Nat.add_le_add (head_length_le 2 _) h

theorem encode_text_length_le {n : ℕ} {content : String} (h : (utf8 content).length ≤ n) :
    (encode (text content)).length ≤ 9 + n := by
  rw [encode_text, List.length_append]
  exact Nat.add_le_add (head_length_le 3 _) h

theorem encodeAll_length_le {items : List Item} {n : ℕ}
    (h : ∀ item ∈ items, (encode item).length ≤ n) :
    (encodeAll items).length ≤ items.length * n := by
  induction items with
  | nil => simp [encodeAll_nil]
  | cons item items ih =>
      obtain ⟨hhead, htail⟩ := List.forall_mem_cons.mp h
      rw [encodeAll_cons, List.length_append, List.length_cons, Nat.succ_mul, Nat.add_comm]
      exact Nat.add_le_add (ih htail) hhead

theorem encode_array_length_le {items : List Item} {n : ℕ}
    (h : ∀ item ∈ items, (encode item).length ≤ n) :
    (encode (array items)).length ≤ 9 + items.length * n := by
  rw [encode_array, List.length_append]
  exact Nat.add_le_add (head_length_le 4 _) (encodeAll_length_le h)

/-- The last item of an array may have a bound of its own. -/
theorem encode_array_concat_length_le {items : List Item} {last : Item} {n k : ℕ}
    (h : ∀ item ∈ items, (encode item).length ≤ n) (hlast : (encode last).length ≤ k) :
    (encode (array (items ++ [last]))).length ≤ 9 + items.length * n + k := by
  have happend : encodeAll (items ++ [last]) = encodeAll items ++ encode last := by
    clear h
    induction items with
    | nil => simp [encodeAll_nil, encodeAll_cons]
    | cons item items ih => simp [encodeAll_cons, ih]
  have hhead := head_length_le 4 (items ++ [last]).length
  have hitems := encodeAll_length_le h
  rw [encode_array, happend]
  simp only [List.length_append] at hhead hitems ⊢
  omega

theorem encode_bytes_length_of_lt_24 {content : List Byte} (h : content.length < 24) :
    (encode (bytes content)).length = 1 + content.length := by
  rw [encode_bytes, List.length_append, head_length_of_lt_24 2 h]

theorem encode_bytes_length_le_of_lt_256 {content : List Byte} (h : content.length < 2 ^ 8) :
    (encode (bytes content)).length ≤ 2 + content.length := by
  rw [encode_bytes, List.length_append]
  exact Nat.add_le_add_right (head_length_le_of_lt_256 2 h) _

/-- A request identifier, a nonce and an expiry. -/
theorem encode_replay_entry_length_le (requestId : Bytes 16) (nonce : Bytes 32) (expires : ℕ) :
    (encode (array [bytes requestId, bytes nonce, unsigned expires])).length ≤ 61 := by
  have hid := encode_bytes_length_of_lt_24 (show requestId.1.length < 24 by rw [requestId.2]; decide)
  have hnonce := encode_bytes_length_le_of_lt_256 (show nonce.1.length < 2 ^ 8 by rw [nonce.2]; decide)
  have hexpires := encode_unsigned_length_le expires
  have hhead := head_length_of_lt_24 4 (show 3 < 24 by decide)
  have harray : encode (array [bytes requestId, bytes nonce, unsigned expires]) = head 4 3 ++
      (encode (bytes requestId) ++ (encode (bytes nonce) ++ (encode (unsigned expires) ++ []))) := by
    rw [encode_array]
    rfl
  rw [requestId.2] at hid
  rw [nonce.2] at hnonce
  rw [harray]
  simp only [List.length_append, List.length_nil]
  omega

end Length

end Item

end Cbor

end AgePluginPhone.Library
