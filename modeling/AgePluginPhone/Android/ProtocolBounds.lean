import AgePluginPhone.Library.CborGrammar
import AgePluginPhone.Library.Cursor

/-!
# Protocol bounds on Android

`ProtocolBounds.validateEncoded` walks over an encoded message before a tree is built of it. Its
offset is an `Int` and its lengths are of type `Long`; an access outside the array is a result of its
own.
-/

namespace AgePluginPhone.Android.ProtocolBounds

open Library Cbor

inductive Thrown
  | protocolException
  | indexOutOfBounds
  deriving DecidableEq

def maxMessageBytes : ℕ := 65536

/-- `Int` of a number, in two's complement. -/
def toInt (n : ℤ) : ℤ := n.bmod (2 ^ 32)

/-- `(result shl 8) or next` on `Long`. -/
def shiftIn (result : ℤ) (next : Byte) : ℤ :=
  (BitVec.ofInt 64 result <<< 8 ||| BitVec.ofNat 64 next.val).toInt

variable (bytes : List Byte)

/-- `bytes[offset]`. -/
def element (offset : ℤ) : Except Thrown Byte :=
  if 0 ≤ offset then okOr bytes[offset.toNat]? .indexOutOfBounds else .error .indexOutOfBounds

def byte (offset : ℤ) : Except Thrown (Byte × ℤ) := do
  ensure (offset < bytes.length) .protocolException
  let found ← element bytes offset
  return (found, toInt (offset + 1))

/-- The rounds of `repeat` that are left, after `index` of `count`. -/
def readArgument (count : ℕ) : ℕ → ℕ → ℤ → ℤ → Except Thrown (ℤ × ℤ)
  | 0, _, result, offset => .ok (result, offset)
  | rounds + 1, index, result, offset => do
      let (next, offset) ← byte bytes offset
      ensure (¬ (count = 8 ∧ index = 0 ∧ 128 ≤ next.val)) .protocolException
      readArgument count rounds (index + 1) (shiftIn result next) offset

def minimum (count : ℕ) : ℤ :=
  if count = 1 then 24 else if count = 2 then 256 else if count = 4 then 65536 else 4294967296

def readLength (additional : ℕ) (offset : ℤ) : Except Thrown (ℤ × ℤ) :=
  if additional < 24 then .ok (additional, offset)
  else do
    let count := 1 <<< (additional - 24)
    let (result, offset) ← readArgument bytes count count 0 0 offset
    ensure (minimum count ≤ result) .protocolException
    return (result, offset)

def values (value : ℤ → Except Thrown ℤ) : ℕ → ℤ → Except Thrown ℤ
  | 0, offset => .ok offset
  | count + 1, offset => value offset >>= values value count

/-- `when (major)`, after the length. -/
def content (value : ℤ → Except Thrown ℤ) (major : ℕ) (length offset : ℤ) : Except Thrown ℤ :=
  if major = 2 ∨ major = 3 then do
    ensure (length ≤ toInt (bytes.length - offset)) .protocolException
    return toInt (offset + toInt length)
  else if major = 4 then do
    ensure (length ≤ 128) .protocolException
    values value (toInt length).toNat offset
  else return offset

/-- `value` with the number of levels left of its depth limit. -/
def value : ℕ → ℤ → Except Thrown ℤ
  | 0, _ => .error .protocolException
  | levels + 1, offset => do
      let (first, offset) ← byte bytes offset
      if first.val = 0xf6 then return offset
      let major := first.val / 32
      let additional := first.val % 32
      ensure (major ∈ [0, 2, 3, 4] ∧ additional ≤ 27) .protocolException
      let (length, offset) ← readLength bytes additional offset
      content bytes (value levels) major length offset

def maximumDepth : ℕ := 16

def validateEncoded : Except Thrown Unit := do
  ensure (bytes ≠ [] ∧ bytes.length ≤ maxMessageBytes) .protocolException
  let offset ← value bytes (maximumDepth + 1) 0
  ensure (offset = bytes.length) .protocolException

section Arithmetic

private theorem toInt_eq {n : ℤ} (hlow : 0 ≤ n) (hhigh : n < 2147483648) : toInt n = n :=
  Int.bmod_eq_of_le (by omega) (by omega)

private theorem shiftIn_eq (result : ℕ) (next : Byte) (h : result * 256 + next.val < 2 ^ 63) :
    shiftIn result next = (result * 256 + next.val : ℕ) := by
  have hnext := next.isLt
  have hresult : (BitVec.ofInt 64 (result : ℤ)).toNat = result := by
    rw [BitVec.ofInt_natCast, BitVec.toNat_ofNat]
    exact Nat.mod_eq_of_lt (by omega)
  have hshifted : (BitVec.ofInt 64 (result : ℤ) <<< 8).toNat = result <<< 8 := by
    rw [BitVec.toNat_shiftLeft, hresult, Nat.shiftLeft_eq]
    have hlt : result * 2 ^ 8 < 2 ^ 64 :=
      calc result * 2 ^ 8 ≤ result * 256 + next.val := Nat.le_add_right _ _
        _ < 2 ^ 63 := h
        _ < 2 ^ 64 := by norm_num
    exact Nat.mod_eq_of_lt hlt
  have hbyte : (BitVec.ofNat 64 next.val).toNat = next.val := by
    rw [BitVec.toNat_ofNat]
    exact Nat.mod_eq_of_lt (by omega)
  have hvalue : (BitVec.ofInt 64 (result : ℤ) <<< 8 ||| BitVec.ofNat 64 next.val).toNat =
      result * 256 + next.val := by
    rw [BitVec.toNat_or, hshifted, hbyte, ← Nat.shiftLeft_add_eq_or_of_lt hnext, Nat.shiftLeft_eq]
  rw [shiftIn, BitVec.toInt_eq_toNat_of_lt (by rw [hvalue]; omega), hvalue]

end Arithmetic

section Heads

variable {bytes : List Byte} {offset : ℤ} {rest argument : List Byte} {b : Byte} {n : ℕ}

private theorem byte_cons (hsize : bytes.length ≤ maxMessageBytes) (hat : At bytes offset (b :: rest)) :
    byte bytes offset = .ok (b, offset + 1) := by
  have hlow := hat.nonneg
  have hlength := hat.add_length
  rw [List.length_cons, Nat.cast_succ] at hlength
  rw [maxMessageBytes] at hsize
  have hinside : offset < bytes.length := by omega
  have hwrap : toInt (offset + 1) = offset + 1 := toInt_eq (by omega) (by omega)
  rw [byte, ensure_true _ hinside, element, if_pos hlow, hat.getElem?, hwrap]
  rfl

private theorem byte_nil (hat : At bytes offset []) : byte bytes offset = .error .protocolException := by
  have hend : offset = bytes.length := hat.eq_nil_iff.mpr rfl
  rw [byte, ensure_false _ (by omega)]
  rfl

private theorem readArgument_cons (hsize : bytes.length ≤ maxMessageBytes) {count rounds index : ℕ}
    {result : ℤ} (hat : At bytes offset (b :: rest)) :
    readArgument bytes count (rounds + 1) index result offset =
      ensure (¬ (count = 8 ∧ index = 0 ∧ 128 ≤ b.val)) .protocolException >>= fun _ =>
        readArgument bytes count rounds (index + 1) (shiftIn result b) (offset + 1) := by
  rw [readArgument, byte_cons hsize hat]
  rfl

private theorem readArgument_ok (hsize : bytes.length ≤ maxMessageBytes) (count index result : ℕ)
    (hindex : count = 8 → 0 < index)
    (hresult : (result + 1) * 256 ^ argument.length ≤ 2 ^ 63)
    (hat : At bytes offset (argument ++ rest)) :
    readArgument bytes count argument.length index result offset =
      .ok ((result * 256 ^ argument.length + bigEndianValue argument : ℕ),
        offset + argument.length) := by
  induction argument generalizing index result offset with
  | nil => simp [readArgument, bigEndianValue]
  | cons b argument ih =>
      have hb := b.isLt
      rw [List.length_cons, pow_succ'] at hresult
      have hone : 1 ≤ 256 ^ argument.length := Nat.one_le_pow _ _ (by decide)
      have hnext : (result * 256 + b.val + 1) * 256 ^ argument.length ≤ 2 ^ 63 :=
        calc (result * 256 + b.val + 1) * 256 ^ argument.length
            ≤ ((result + 1) * 256) * 256 ^ argument.length := Nat.mul_le_mul_right _ (by omega)
          _ ≤ 2 ^ 63 := by rwa [Nat.mul_assoc]
      have hshift : result * 256 + b.val < 2 ^ 63 := by
        have hle := Nat.le_mul_of_pos_right (result * 256 + b.val + 1) hone
        omega
      have hguard : ¬ (count = 8 ∧ index = 0 ∧ 128 ≤ b.val) := by
        rintro ⟨hcount, hzero, -⟩
        exact absurd (hindex hcount) (by omega)
      have hmoved := ih (index + 1) (result * 256 + b.val) (fun _ => Nat.succ_pos index) hnext hat.cons
      have hvalue : (result * 256 + b.val) * 256 ^ argument.length + bigEndianValue argument =
          result * 256 ^ (argument.length + 1) + bigEndianValue (b :: argument) := by
        rw [bigEndianValue_cons]
        ring
      have hoffset : offset + 1 + argument.length = offset + (argument.length + 1 : ℕ) := by
        push_cast
        ring
      rw [List.length_cons, readArgument_cons hsize hat, ensure_true _ hguard, ok_bind,
        shiftIn_eq result b hshift, hmoved, hvalue, hoffset]

/-- The argument ends before its last byte. -/
private theorem readArgument_short (hsize : bytes.length ≤ maxMessageBytes) {count rounds index : ℕ}
    {result : ℤ} (hshort : rest.length < rounds) (hat : At bytes offset rest) :
    readArgument bytes count rounds index result offset = .error .protocolException := by
  induction rounds generalizing index result offset rest with
  | zero => exact absurd hshort (Nat.not_lt_zero _)
  | succ rounds ih =>
      cases rest with
      | nil => rw [readArgument, byte_nil hat, error_bind]
      | cons b rest =>
          rw [readArgument_cons hsize hat]
          by_cases hguard : ¬ (count = 8 ∧ index = 0 ∧ 128 ≤ b.val)
          · rw [ensure_true _ hguard, ok_bind]
            exact ih (Nat.lt_of_succ_lt_succ hshort) hat.cons
          · rw [ensure_false _ hguard, error_bind]

/-- Eight bytes whose first has its highest bit set. -/
private theorem readArgument_large (hsize : bytes.length ≤ maxMessageBytes) {rounds : ℕ} {result : ℤ}
    (hb : 128 ≤ b.val) (hat : At bytes offset (b :: rest)) :
    readArgument bytes 8 (rounds + 1) 0 result offset = .error .protocolException := by
  rw [readArgument_cons hsize hat, ensure_false _ (by simpa using hb), error_bind]

/-- Eight bytes whose first has its highest bit clear. -/
private theorem readArgument_eight (hsize : bytes.length ≤ maxMessageBytes) (hb : b.val < 128)
    (hlength : argument.length = 7) (hat : At bytes offset (b :: argument ++ rest)) :
    readArgument bytes 8 8 0 0 offset =
      .ok ((bigEndianValue (b :: argument) : ℕ), offset + 8) := by
  have hresult : (b.val + 1) * 256 ^ argument.length ≤ 2 ^ 63 := by
    rw [hlength]
    omega
  have hrest := readArgument_ok hsize 8 1 b.val (fun _ => Nat.one_pos) hresult (At.cons hat)
  have hshift := shiftIn_eq 0 b (by omega)
  have hguard : ¬ (8 = 8 ∧ 0 = 0 ∧ 128 ≤ b.val) := by omega
  have hoffset : offset + 1 + (7 : ℕ) = offset + 8 := by
    push_cast
    ring
  rw [Nat.cast_zero, Nat.zero_mul, Nat.zero_add] at hshift
  rw [hlength, hoffset] at hrest
  rw [readArgument_cons hsize hat, ensure_true _ hguard, ok_bind, hshift, hrest,
    bigEndianValue_cons, hlength]

private theorem minimum_eq {k : ℕ} (hk : k < 4) :
    minimum (2 ^ k) = ((if k = 0 then 24 else 256 ^ 2 ^ (k - 1) : ℕ) : ℤ) := by
  interval_cases k <;> rfl

/-- All bytes of an argument below the limit of `Long`. -/
private theorem readArgument_value (hsize : bytes.length ≤ maxMessageBytes) {k : ℕ} (hk : k < 4)
    (hlength : argument.length = 2 ^ k) (hvalue : bigEndianValue argument < 2 ^ 63)
    (hat : At bytes offset (argument ++ rest)) :
    readArgument bytes (2 ^ k) (2 ^ k) 0 0 offset =
      .ok ((bigEndianValue argument : ℕ), offset + argument.length) := by
  by_cases hthree : k = 3
  · subst hthree
    cases argument with
    | nil => simp at hlength
    | cons b argument =>
        have hseven : argument.length = 7 := by simpa using hlength
        have hb : b.val < 128 := by
          rw [bigEndianValue_cons, hseven] at hvalue
          omega
        rw [hlength]
        exact readArgument_eight hsize hb hseven hat
  · have hbound : (0 + 1) * 256 ^ argument.length ≤ 2 ^ 63 := by
      rw [hlength]
      interval_cases k <;> simp at hthree ⊢
    have hcount : 2 ^ k = 8 → 0 < 0 := by
      intro height
      interval_cases k <;> simp at hthree height
    have hok := readArgument_ok hsize (2 ^ k) 0 0 hcount hbound hat
    rw [hlength, Nat.zero_mul, Nat.zero_add] at hok
    rw [hlength]
    exact hok

/-- An argument from the limit of `Long` on. -/
private theorem readArgument_above (hsize : bytes.length ≤ maxMessageBytes) {k : ℕ} (hk : k < 4)
    (hlength : argument.length = 2 ^ k) (hvalue : ¬ bigEndianValue argument < 2 ^ 63)
    (hat : At bytes offset (argument ++ rest)) :
    readArgument bytes (2 ^ k) (2 ^ k) 0 0 offset = .error .protocolException := by
  have hlt := bigEndianValue_lt argument
  rw [hlength] at hlt
  obtain rfl : k = 3 := by
    by_contra hthree
    interval_cases k <;> simp at hthree hlt <;> omega
  cases argument with
  | nil => simp at hlength
  | cons b argument =>
      have hseven : argument.length = 7 := by simpa using hlength
      have hrest := bigEndianValue_lt argument
      have hb : 128 ≤ b.val := by
        rw [bigEndianValue_cons, hseven] at hvalue
        rw [hseven] at hrest
        omega
      exact readArgument_large hsize hb hat

private theorem readLength_argument (k : ℕ) : readLength bytes (24 + k) offset =
    readArgument bytes (2 ^ k) (2 ^ k) 0 0 offset >>= fun found =>
      ensure (minimum (2 ^ k) ≤ found.1) .protocolException >>= fun _ => .ok found := by
  rw [readLength, if_neg (by omega), Nat.add_sub_cancel_left, Nat.one_shiftLeft]
  rfl

/-- A shortest-form argument below the limit of `Long` is read. -/
private theorem readLength_ok (hsize : bytes.length ≤ maxMessageBytes) {additional : ℕ}
    (hargument : ArgumentOf additional argument n) (hn : n < 2 ^ 63)
    (hat : At bytes offset (argument ++ rest)) :
    readLength bytes additional offset = .ok (n, offset + argument.length) := by
  rcases hargument with ⟨hsmall, rfl, rfl⟩ | ⟨k, hk, rfl, hlength, rfl, hfloor⟩
  · simp [readLength, hsmall]
  · have hminimum : minimum (2 ^ k) ≤ (bigEndianValue argument : ℕ) := by
      rw [minimum_eq hk]
      exact Int.ofNat_le.mpr hfloor
    rw [readLength_argument, readArgument_value hsize hk hlength hn hat, ok_bind,
      ensure_true _ hminimum, ok_bind]

/-- What is read is a shortest-form argument, and everything else is refused. -/
private theorem readLength_cases (hsize : bytes.length ≤ maxMessageBytes) {additional : ℕ}
    (hadditional : additional ≤ 27) (hat : At bytes offset rest) :
    readLength bytes additional offset = .error .protocolException ∨
      ∃ argument after n, rest = argument ++ after ∧ ArgumentOf additional argument n ∧
        n < 2 ^ 63 ∧ readLength bytes additional offset = .ok (n, offset + argument.length) := by
  by_cases hsmall : additional < 24
  · right
    have hargument : ArgumentOf additional [] additional := .inl ⟨hsmall, rfl, rfl⟩
    have hn : additional < 2 ^ 63 := hsmall.trans (by norm_num)
    have hat : At bytes offset ([] ++ rest) := hat
    exact ⟨[], rest, additional, rfl, hargument, hn, readLength_ok hsize hargument hn hat⟩
  obtain ⟨k, rfl⟩ : ∃ k, additional = 24 + k := ⟨additional - 24, by omega⟩
  have hk : k < 4 := by omega
  by_cases hshort : rest.length < 2 ^ k
  · left
    rw [readLength_argument, readArgument_short hsize hshort hat, error_bind]
  have hlength : (rest.take (2 ^ k)).length = 2 ^ k := by
    rw [List.length_take]
    omega
  have hsplit : At bytes offset (rest.take (2 ^ k) ++ rest.drop (2 ^ k)) := by
    rwa [List.take_append_drop]
  by_cases hvalue : bigEndianValue (rest.take (2 ^ k)) < 2 ^ 63
  · by_cases hfloor : (if k = 0 then 24 else 256 ^ 2 ^ (k - 1)) ≤ bigEndianValue (rest.take (2 ^ k))
    · right
      have hargument : ArgumentOf (24 + k) (rest.take (2 ^ k)) _ :=
        .inr ⟨k, hk, rfl, hlength, rfl, hfloor⟩
      exact ⟨_, _, _, (List.take_append_drop _ _).symm, hargument, hvalue,
        readLength_ok hsize hargument hvalue hsplit⟩
    · left
      have hminimum : ¬ minimum (2 ^ k) ≤ (bigEndianValue (rest.take (2 ^ k)) : ℕ) := by
        rw [minimum_eq hk]
        exact fun hle => hfloor (Int.ofNat_le.mp hle)
      rw [readLength_argument, readArgument_value hsize hk hlength hvalue hsplit, ok_bind,
        ensure_false _ hminimum, error_bind]
  · left
    rw [readLength_argument, readArgument_above hsize hk hlength hvalue hsplit, error_bind]

end Heads

section Values

variable {bytes : List Byte} {offset : ℤ} {rest : List Byte} {levels : ℕ}

private theorem content_skip (hsize : bytes.length ≤ maxMessageBytes)
    (value : ℤ → Except Thrown ℤ) {major : ℕ} (hmajor : major = 2 ∨ major = 3) {skipped : List Byte}
    (hat : At bytes offset (skipped ++ rest)) :
    content bytes value major skipped.length offset = .ok (offset + skipped.length) := by
  have hlow := hat.nonneg
  have hlength := hat.add_length
  rw [List.length_append, Nat.cast_add] at hlength
  rw [maxMessageBytes] at hsize
  have hleft : toInt (bytes.length - offset) = bytes.length - offset := toInt_eq (by omega) (by omega)
  have hskipped : toInt skipped.length = skipped.length := toInt_eq (by omega) (by omega)
  have hmoved : toInt (offset + skipped.length) = offset + skipped.length :=
    toInt_eq (by omega) (by omega)
  rw [content, if_pos hmajor, hleft, ensure_true _ (by omega), ok_bind, hskipped, hmoved]
  rfl

/-- A declared length beyond the end of the array. -/
private theorem content_beyond (hsize : bytes.length ≤ maxMessageBytes)
    {value : ℤ → Except Thrown ℤ} {major : ℕ} (hmajor : major = 2 ∨ major = 3) {n : ℕ}
    (hn : rest.length < n) (hat : At bytes offset rest) :
    content bytes value major n offset = .error .protocolException := by
  have hlow := hat.nonneg
  have hlength := hat.add_length
  rw [maxMessageBytes] at hsize
  have hleft : toInt (bytes.length - offset) = bytes.length - offset := toInt_eq (by omega) (by omega)
  rw [content, if_pos hmajor, hleft, ensure_false _ (by omega), error_bind]

private theorem content_skip_cases (hsize : bytes.length ≤ maxMessageBytes)
    (value : ℤ → Except Thrown ℤ) {major : ℕ} (hmajor : major = 2 ∨ major = 3) (n : ℕ)
    (hat : At bytes offset rest) :
    content bytes value major n offset = .error .protocolException ∨
      ∃ skipped after, rest = skipped ++ after ∧ skipped.length = n ∧
        content bytes value major n offset = .ok (offset + skipped.length) := by
  by_cases hshort : rest.length < n
  · exact .inl (content_beyond hsize hmajor hshort hat)
  · have hlength : (rest.take n).length = n := by
      rw [List.length_take]
      omega
    have hsplit : At bytes offset (rest.take n ++ rest.drop n) := by
      rwa [List.take_append_drop]
    have hok := content_skip hsize value hmajor hsplit
    refine .inr ⟨rest.take n, rest.drop n, (List.take_append_drop _ _).symm, hlength, ?_⟩
    rwa [hlength] at hok ⊢

private theorem content_array {value : ℤ → Except Thrown ℤ} {n : ℕ} (hn : n ≤ 128) :
    content bytes value 4 n offset = values value n offset := by
  have hwrap : toInt n = n := toInt_eq (by omega) (by omega)
  rw [content, if_neg (by decide), if_pos rfl, ensure_true _ (by omega), ok_bind, hwrap,
    Int.toNat_natCast]

private theorem content_large {value : ℤ → Except Thrown ℤ} {n : ℕ} (hn : ¬ n ≤ 128) :
    content bytes value 4 n offset = .error .protocolException := by
  rw [content, if_neg (by decide), if_pos rfl, ensure_false _ (by omega), error_bind]

private theorem content_unsigned {value : ℤ → Except Thrown ℤ} {n : ℤ} :
    content bytes value 0 n offset = .ok offset := rfl

private theorem value_nil : At bytes offset [] →
    value bytes (levels + 1) offset = .error .protocolException := by
  intro hat
  rw [value, byte_nil hat, error_bind]

private theorem value_null (hsize : bytes.length ≤ maxMessageBytes) {initial : Byte}
    (hnull : initial.val = 0xf6) (hat : At bytes offset (initial :: rest)) :
    value bytes (levels + 1) offset = .ok (offset + 1) := by
  rw [value, byte_cons hsize hat]
  exact if_pos hnull

private theorem value_cons (hsize : bytes.length ≤ maxMessageBytes) {initial : Byte}
    (hnull : initial.val ≠ 0xf6) (hat : At bytes offset (initial :: rest)) :
    value bytes (levels + 1) offset =
      ensure (initial.val / 32 ∈ [0, 2, 3, 4] ∧ initial.val % 32 ≤ 27) .protocolException >>= fun _ =>
        readLength bytes (initial.val % 32) (offset + 1) >>= fun found =>
          content bytes (value bytes levels) (initial.val / 32) found.1 found.2 := by
  rw [value, byte_cons hsize hat]
  exact if_neg hnull

/-- A shortest-form head, and what its length stands for. -/
private theorem value_head (hsize : bytes.length ≤ maxMessageBytes) {major n : ℕ}
    (hmajor : major ∈ [0, 2, 3, 4]) (hn : n < 2 ^ 63) (hat : At bytes offset (head major n ++ rest)) :
    value bytes (levels + 1) offset =
      content bytes (value bytes levels) major n (offset + (head major n).length) := by
  have hlt : major < 8 := by
    simp only [List.mem_cons, List.not_mem_nil, or_false] at hmajor
    omega
  obtain ⟨initial, argument, hhead, hdiv, hargument⟩ :=
    head_cases hlt (hn.trans (by norm_num))
  rw [hhead, List.cons_append] at hat
  have hadditional : initial.val % 32 ≤ 27 := by
    rcases hargument with ⟨hsmall, -, -⟩ | ⟨k, hk, hadditional, -⟩ <;> omega
  have hnull : initial.val ≠ 0xf6 := by
    intro heq
    rw [heq] at hdiv
    subst hdiv
    simp at hmajor
  have hlength : offset + 1 + argument.length = offset + (head major n).length := by
    rw [hhead, List.length_cons]
    push_cast
    ring
  rw [value_cons hsize hnull hat, hdiv, ensure_true _ ⟨hmajor, hadditional⟩, ok_bind,
    readLength_ok hsize hargument hn hat.cons, ok_bind, hlength]

private theorem values_ok {value : ℤ → Except Thrown ℤ} {parts : List (List Byte)}
    (h : ∀ part ∈ parts, ∀ offset rest, At bytes offset (part ++ rest) →
      value offset = .ok (offset + part.length))
    (hat : At bytes offset (parts.flatten ++ rest)) :
    values value parts.length offset = .ok (offset + parts.flatten.length) := by
  induction parts generalizing offset with
  | nil => simp [values]
  | cons part parts ih =>
      obtain ⟨hhead, htail⟩ := List.forall_mem_cons.mp h
      rw [List.flatten_cons, List.append_assoc] at hat
      rw [List.length_cons, values, hhead offset _ hat, ok_bind, ih htail hat.append,
        List.flatten_cons, List.length_append]
      congr 1
      push_cast
      ring

private theorem values_cases {value : ℤ → Except Thrown ℤ} {condition : List Byte → Prop}
    (h : ∀ offset rest, At bytes offset rest → value offset = .error .protocolException ∨
      ∃ part after, rest = part ++ after ∧ condition part ∧ value offset = .ok (offset + part.length))
    (count : ℕ) (hat : At bytes offset rest) :
    values value count offset = .error .protocolException ∨
      ∃ parts : List (List Byte), ∃ after, rest = parts.flatten ++ after ∧ parts.length = count ∧
        (∀ part ∈ parts, condition part) ∧
        values value count offset = .ok (offset + parts.flatten.length) := by
  induction count generalizing offset rest with
  | zero => exact .inr ⟨[], rest, rfl, rfl, by simp, by simp [values]⟩
  | succ count ih =>
      rcases h offset rest hat with herror | ⟨part, after, rfl, hpart, hok⟩
      · left
        rw [values, herror, error_bind]
      · rw [values, hok, ok_bind]
        rcases ih hat.append with herror | ⟨parts, after', rfl, hcount, hparts, hok'⟩
        · exact .inl herror
        · refine .inr ⟨part :: parts, after', by simp, by simp [hcount], ?_, ?_⟩
          · exact List.forall_mem_cons.mpr ⟨hpart, hparts⟩
          · rw [hok', List.flatten_cons, List.length_append]
            congr 1
            push_cast
            ring

/-- The grammar that is accepted. -/
abbrev Accepted : ℕ → List Byte → Prop := Canonical (2 ^ 63) (fun _ => True) 128

private theorem value_skip (hsize : bytes.length ≤ maxMessageBytes) {major : ℕ}
    (hmajor : major = 2 ∨ major = 3) {skipped : List Byte}
    (hat : At bytes offset (head major skipped.length ++ skipped ++ rest)) :
    value bytes (levels + 1) offset =
      .ok (offset + (head major skipped.length ++ skipped).length) := by
  rw [List.append_assoc] at hat
  have hkind : major ∈ [0, 2, 3, 4] := by rcases hmajor with rfl | rfl <;> decide
  have hshort : skipped.length < 2 ^ 63 := by
    have hlength := hat.add_length
    have hlow := hat.nonneg
    rw [maxMessageBytes] at hsize
    simp only [List.length_append, Nat.cast_add] at hlength
    omega
  rw [value_head hsize hkind hshort hat, content_skip hsize _ hmajor hat.append, List.length_append,
    Nat.cast_add, add_assoc]

private theorem value_ok (hsize : bytes.length ≤ maxMessageBytes) {part : List Byte}
    (h : Accepted levels part) (hat : At bytes offset (part ++ rest)) :
    value bytes levels offset = .ok (offset + part.length) := by
  induction h generalizing offset rest with
  | unsigned hn => exact value_head hsize (by decide) hn hat
  | bytes => exact value_skip hsize (.inl rfl) hat
  | text _ => exact value_skip hsize (.inr rfl) hat
  | array hlimit _ ih =>
      rw [List.append_assoc] at hat
      have hshort := lt_of_le_of_lt hlimit (show 128 < 2 ^ 63 by norm_num)
      have hkind : 4 ∈ [0, 2, 3, 4] := by decide
      have hvalues := values_ok (fun part hpart offset rest hat => ih part hpart hat) hat.append
      rw [value_head hsize hkind hshort hat, content_array hlimit, hvalues, List.length_append,
        Nat.cast_add, add_assoc]
  | null => exact value_null hsize rfl hat

/-- After a head: what is accepted completes an item of the grammar. -/
private theorem content_cases (hsize : bytes.length ≤ maxMessageBytes)
    (ih : ∀ offset rest, At bytes offset rest → value bytes levels offset = .error .protocolException ∨
      ∃ part after, rest = part ++ after ∧ Accepted levels part ∧
        value bytes levels offset = .ok (offset + part.length))
    {major n : ℕ} (hmajor : major ∈ [0, 2, 3, 4]) (hn : n < 2 ^ 63) (hat : At bytes offset rest) :
    content bytes (value bytes levels) major n offset = .error .protocolException ∨
      ∃ part after, rest = part ++ after ∧ Accepted (levels + 1) (head major n ++ part) ∧
        content bytes (value bytes levels) major n offset = .ok (offset + part.length) := by
  simp only [List.mem_cons, List.not_mem_nil, or_false] at hmajor
  rcases hmajor with rfl | rfl | rfl | rfl
  · exact .inr ⟨[], rest, rfl, by rw [List.append_nil]; exact .unsigned hn, by simp [content]⟩
  · rcases content_skip_cases hsize (value bytes levels) (.inl rfl) n hat with
      herror | ⟨part, after, rfl, rfl, hok⟩
    · exact .inl herror
    · exact .inr ⟨part, after, rfl, .bytes, hok⟩
  · rcases content_skip_cases hsize (value bytes levels) (.inr rfl) n hat with
      herror | ⟨part, after, rfl, rfl, hok⟩
    · exact .inl herror
    · exact .inr ⟨part, after, rfl, .text True.intro, hok⟩
  · by_cases hlimit : n ≤ 128
    · rw [content_array hlimit]
      rcases values_cases ih n hat with
        herror | ⟨parts, after, rfl, rfl, hparts, hok⟩
      · exact .inl herror
      · exact .inr ⟨parts.flatten, after, rfl, .array hlimit hparts, hok⟩
    · exact .inl (content_large hlimit)

/-- What is accepted is one item of the grammar; everything else is refused with the exception of
the protocol. -/
private theorem value_cases (hsize : bytes.length ≤ maxMessageBytes) (levels : ℕ) (hat : At bytes offset rest) :
    value bytes levels offset = .error .protocolException ∨
      ∃ part after, rest = part ++ after ∧ Accepted levels part ∧
        value bytes levels offset = .ok (offset + part.length) := by
  induction levels generalizing offset rest with
  | zero => exact .inl rfl
  | succ levels ih =>
      cases rest with
      | nil => exact .inl (value_nil hat)
      | cons initial rest =>
          by_cases hnull : initial.val = 0xf6
          · have hpart : Accepted (levels + 1) [initial] := by
              have hinitial : initial = 0xf6 := Fin.ext hnull
              rw [hinitial]
              exact .null
            exact .inr ⟨[initial], rest, rfl, hpart, value_null hsize hnull hat⟩
          rw [value_cons hsize hnull hat]
          by_cases hkind : initial.val / 32 ∈ [0, 2, 3, 4] ∧ initial.val % 32 ≤ 27
          swap
          · left
            rw [ensure_false _ hkind, error_bind]
          rw [ensure_true _ hkind, ok_bind]
          rcases readLength_cases hsize hkind.2 hat.cons with
            herror | ⟨argument, after, n, rfl, hargument, hn, hok⟩
          · left
            rw [herror, error_bind]
          rw [hok, ok_bind]
          have hhead := head_of_argument hargument
          rcases content_cases hsize (fun offset rest hat => ih hat) hkind.1 hn hat.cons.append with
            herror | ⟨part, after, rfl, hpart, hcontent⟩
          · exact .inl herror
          · rw [hhead] at hpart
            refine .inr ⟨initial :: argument ++ part, after, by simp, hpart, ?_⟩
            rw [hcontent, List.length_append, List.length_cons]
            congr 1
            push_cast
            ring

end Values

section Messages

variable {bytes : List Byte}

/-- What is accepted is exactly one item of the grammar. -/
theorem validateEncoded_eq_ok : validateEncoded bytes = .ok () ↔
    bytes.length ≤ maxMessageBytes ∧ Accepted (maximumDepth + 1) bytes := by
  constructor
  · intro h
    simp only [validateEncoded, bind_eq_ok, ensure_eq_ok, exists_const] at h
    obtain ⟨⟨-, hsize⟩, offset, hvalue, hend⟩ := h
    rcases value_cases hsize (maximumDepth + 1) (At.zero bytes) with
      herror | ⟨part, after, hbytes, hpart, hok⟩
    · rw [herror] at hvalue
      cases hvalue
    · rw [hok, Except.ok.injEq] at hvalue
      have hlength := congrArg List.length hbytes
      rw [List.length_append] at hlength
      have hafter : after = [] := List.length_eq_zero_iff.mp (by omega)
      rw [hafter, List.append_nil] at hbytes
      exact ⟨hsize, hbytes ▸ hpart⟩
  · rintro ⟨hsize, hitem⟩
    have hat : At bytes 0 (bytes ++ []) := by
      rw [List.append_nil]
      exact At.zero bytes
    have hvalue := value_ok hsize hitem hat
    rw [validateEncoded, ensure_true _ ⟨hitem.ne_nil, hsize⟩, ok_bind, hvalue, ok_bind,
      ensure_true _ (zero_add _)]

theorem validateEncoded_error {failure : Thrown} (h : validateEncoded bytes = .error failure) :
    failure = .protocolException := by
  simp only [validateEncoded, bind_eq_error, ensure_eq_error, ensure_eq_ok, exists_const] at h
  rcases h with ⟨-, rfl⟩ | ⟨⟨-, hsize⟩, hvalue | ⟨offset, -, -, rfl⟩⟩
  · rfl
  · rcases value_cases hsize (maximumDepth + 1) (At.zero bytes) with
      herror | ⟨part, after, -, -, hok⟩
    · rw [herror] at hvalue
      exact (Except.error.inj hvalue).symm
    · rw [hok] at hvalue
      cases hvalue
  · rfl

end Messages

end AgePluginPhone.Android.ProtocolBounds
