import Mathlib

/-!
# CBOR item heads

The initial byte and argument of a definite-length CBOR item, written in the shortest form
and read in any form. Items of every major type are built from these heads.
-/

namespace AgePluginPhone.Library

abbrev Byte := Fin 256

abbrev U16 := Fin 65536

abbrev U64 := Fin 18446744073709551616

instance neZero_byte : NeZero 256 := ⟨by decide⟩

instance neZero_u16 : NeZero 65536 := ⟨by decide⟩

instance neZero_u64 : NeZero 18446744073709551616 := ⟨by decide⟩

/-- Byte strings of a fixed length. -/
abbrev Bytes (n : ℕ) := {bytes : List Byte // bytes.length = n}

def Bytes.replicate (n : ℕ) (b : Byte) : Bytes n := ⟨List.replicate n b, List.length_replicate⟩

namespace Cbor

def byte (n : ℕ) : Byte := Fin.ofNat 256 n

theorem map_byte_val (bytes : List Byte) : (bytes.map Fin.val).map byte = bytes := by
  rw [List.map_map]
  conv_rhs => rw [← List.map_id bytes]
  apply List.map_congr_left
  intro b _
  exact Fin.ext (Nat.mod_eq_of_lt b.isLt)

/-- The lowest `8 * width` bits of a number, most significant byte first. -/
def bigEndian : ℕ → ℕ → List Byte
  | 0, _ => []
  | width + 1, n => byte (n / 256 ^ width) :: bigEndian width n

def bigEndianValue (bytes : List Byte) : ℕ :=
  bytes.foldl (fun value b => value * 256 + b.val) 0

/-- Shortest-form head of an item with the given major type and argument. -/
def head (major n : ℕ) : List Byte :=
  if n < 24 then [byte (32 * major + n)]
  else if n < 2 ^ 8 then byte (32 * major + 24) :: bigEndian 1 n
  else if n < 2 ^ 16 then byte (32 * major + 25) :: bigEndian 2 n
  else if n < 2 ^ 32 then byte (32 * major + 26) :: bigEndian 4 n
  else byte (32 * major + 27) :: bigEndian 8 n

def takeArgument (width : ℕ) (rest : List Byte) : Option (ℕ × List Byte) :=
  if width ≤ rest.length then some (bigEndianValue (rest.take width), rest.drop width) else none

/-- Read a head of any width: the major type, the argument and the remaining input. -/
def readHead : List Byte → Option (ℕ × ℕ × List Byte)
  | [] => none
  | b :: rest =>
      let major := b.val / 32
      let info := b.val % 32
      if info < 24 then some (major, info, rest)
      else if info = 24 then (takeArgument 1 rest).map fun a => (major, a)
      else if info = 25 then (takeArgument 2 rest).map fun a => (major, a)
      else if info = 26 then (takeArgument 4 rest).map fun a => (major, a)
      else if info = 27 then (takeArgument 8 rest).map fun a => (major, a)
      else none

@[simp] theorem bigEndian_length (width n : ℕ) : (bigEndian width n).length = width := by
  induction width with
  | zero => rfl
  | succ width ih => simp [bigEndian, ih]

private theorem bigEndian_foldl (width n start : ℕ) :
    (bigEndian width n).foldl (fun value b => value * 256 + b.val) start =
      start * 256 ^ width + n % 256 ^ width := by
  induction width generalizing start with
  | zero => simp [bigEndian, Nat.mod_one]
  | succ width ih =>
      have hsplit : n % 256 ^ (width + 1) =
          256 ^ width * (n / 256 ^ width % 256) + n % 256 ^ width := by
        rw [pow_succ, Nat.mod_mul]
        ring
      simp only [bigEndian, List.foldl_cons, ih, hsplit, byte, Fin.val_ofNat]
      ring

theorem bigEndianValue_bigEndian {width n : ℕ} (h : n < 256 ^ width) :
    bigEndianValue (bigEndian width n) = n := by
  rw [bigEndianValue, bigEndian_foldl, Nat.mod_eq_of_lt h]
  simp

private theorem foldl_value (bytes : List Byte) (start : ℕ) :
    bytes.foldl (fun value b => value * 256 + b.val) start =
      start * 256 ^ bytes.length + bigEndianValue bytes := by
  induction bytes generalizing start with
  | nil => simp [bigEndianValue]
  | cons c bytes ih =>
      rw [bigEndianValue, List.foldl_cons, List.foldl_cons, ih, ih, List.length_cons]
      ring

theorem bigEndianValue_cons (b : Byte) (bytes : List Byte) :
    bigEndianValue (b :: bytes) = b.val * 256 ^ bytes.length + bigEndianValue bytes := by
  rw [bigEndianValue, List.foldl_cons, foldl_value, Nat.zero_mul, Nat.zero_add]

theorem bigEndianValue_lt (bytes : List Byte) : bigEndianValue bytes < 256 ^ bytes.length := by
  induction bytes with
  | nil => exact Nat.one_pos
  | cons b bytes ih =>
      have hb : b.val * 256 ^ bytes.length + 256 ^ bytes.length ≤ 256 * 256 ^ bytes.length := by
        rw [← Nat.succ_mul]
        exact Nat.mul_le_mul_right _ b.isLt
      rw [bigEndianValue_cons, List.length_cons, pow_succ']
      omega

private theorem bigEndian_add (width start n : ℕ) :
    bigEndian width (start * 256 ^ width + n) = bigEndian width n := by
  induction width generalizing start with
  | zero => rfl
  | succ width ih =>
      have hrest : start * 256 ^ (width + 1) + n = start * 256 * 256 ^ width + n := by
        rw [pow_succ']
        ring
      have hfirst : (start * 256 * 256 ^ width + n) / 256 ^ width = n / 256 ^ width + start * 256 := by
        rw [Nat.add_comm, Nat.add_mul_div_right _ _ (by positivity)]
      rw [bigEndian, bigEndian, hrest, ih, hfirst]
      congr 1
      exact Fin.ext (Nat.add_mul_mod_self_right _ _ _)

theorem bigEndian_bigEndianValue (bytes : List Byte) :
    bigEndian bytes.length (bigEndianValue bytes) = bytes := by
  induction bytes with
  | nil => rfl
  | cons b bytes ih =>
      have hfirst : (b.val * 256 ^ bytes.length + bigEndianValue bytes) / 256 ^ bytes.length = b := by
        rw [Nat.add_comm, Nat.add_mul_div_right _ _ (by positivity),
          Nat.div_eq_of_lt (bigEndianValue_lt bytes), Nat.zero_add]
      rw [bigEndianValue_cons, List.length_cons, bigEndian, bigEndian_add, ih, hfirst]
      congr 1
      exact Fin.ext (Nat.mod_eq_of_lt b.isLt)

/-- Four bytes put together by shifts. -/
theorem bigEndianValue_shifts (a b c d : Byte) : bigEndianValue [a, b, c, d] =
    ((a.val <<< 24 ||| b.val <<< 16) ||| c.val <<< 8) ||| d.val := by
  have hsum : bigEndianValue [a, b, c, d] = ((a.val * 256 + b.val) * 256 + c.val) * 256 + d.val := by
    simp [bigEndianValue]
  have hhigh : a.val <<< 24 ||| b.val <<< 16 = (a.val * 256 + b.val) <<< 16 := by
    rw [← Nat.shiftLeft_add_eq_or_of_lt (by rw [Nat.shiftLeft_eq]; omega)]
    simp only [Nat.shiftLeft_eq]
    ring
  have hmiddle : (a.val * 256 + b.val) <<< 16 ||| c.val <<< 8 =
      ((a.val * 256 + b.val) * 256 + c.val) <<< 8 := by
    rw [← Nat.shiftLeft_add_eq_or_of_lt (by rw [Nat.shiftLeft_eq]; omega)]
    simp only [Nat.shiftLeft_eq]
    ring
  rw [hhigh, hmiddle, ← Nat.shiftLeft_add_eq_or_of_lt (by omega), hsum, Nat.shiftLeft_eq]

theorem takeArgument_bigEndian {width n : ℕ} (h : n < 256 ^ width) (rest : List Byte) :
    takeArgument width (bigEndian width n ++ rest) = some (n, rest) := by
  have htake : (bigEndian width n ++ rest).take width = bigEndian width n :=
    List.take_left' (bigEndian_length width n)
  have hdrop : (bigEndian width n ++ rest).drop width = rest :=
    List.drop_left' (bigEndian_length width n)
  simp [takeArgument, htake, hdrop, bigEndianValue_bigEndian h]

private theorem byte_val {n : ℕ} (h : n < 256) : (byte n).val = n := by
  simp [byte, Nat.mod_eq_of_lt h]

theorem byte_split {major info : ℕ} (hm : major < 8) (hi : info < 32) :
    (byte (32 * major + info)).val / 32 = major ∧
      (byte (32 * major + info)).val % 32 = info := by
  rw [byte_val (by omega)]
  omega

/-- A shortest-form head is read back whatever follows it. -/
theorem readHead_head {major n : ℕ} (hm : major < 8) (hn : n < 2 ^ 64) (rest : List Byte) :
    readHead (head major n ++ rest) = some (major, n, rest) := by
  unfold head
  split_ifs with h1 h2 h3 h4
  · obtain ⟨hq, hr⟩ := byte_split hm (show n < 32 by omega)
    simp [readHead, hq, hr, h1]
  · obtain ⟨hq, hr⟩ := byte_split hm (show 24 < 32 by omega)
    simp [readHead, hq, hr, takeArgument_bigEndian (show n < 256 ^ 1 by simpa using h2)]
  · obtain ⟨hq, hr⟩ := byte_split hm (show 25 < 32 by omega)
    simp [readHead, hq, hr, takeArgument_bigEndian (show n < 256 ^ 2 by simpa using h3)]
  · obtain ⟨hq, hr⟩ := byte_split hm (show 26 < 32 by omega)
    simp [readHead, hq, hr, takeArgument_bigEndian (show n < 256 ^ 4 by simpa using h4)]
  · obtain ⟨hq, hr⟩ := byte_split hm (show 27 < 32 by omega)
    simp [readHead, hq, hr, takeArgument_bigEndian (show n < 256 ^ 8 by simpa using hn)]

/-- No head is longer than nine bytes. -/
theorem head_length_le (major n : ℕ) : (head major n).length ≤ 9 := by
  unfold head
  split_ifs <;> simp

theorem head_length_of_lt_24 {n : ℕ} (major : ℕ) (h : n < 24) : (head major n).length = 1 := by
  simp [head, h]

theorem head_length_le_of_lt_256 {n : ℕ} (major : ℕ) (h : n < 2 ^ 8) :
    (head major n).length ≤ 2 := by
  unfold head
  split_ifs <;> simp

theorem head_length_le_of_lt_65536 {n : ℕ} (major : ℕ) (h : n < 2 ^ 16) :
    (head major n).length ≤ 3 := by
  unfold head
  split_ifs <;> simp

theorem head_ne_nil (major n : ℕ) : head major n ≠ [] := by
  unfold head
  split_ifs <;> simp

end Cbor

end AgePluginPhone.Library
