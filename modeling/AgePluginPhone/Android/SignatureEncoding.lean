import AgePluginPhone.Library.Der
import AgePluginPhone.Library.Fallible
import AgePluginPhone.Library.P256Signature

/-!
# Signature encodings on Android

`derToCompact` and `compactToDer`, between the DER signatures of the platform and the fixed-width
ones of the protocol, and the checks of `verify`.
-/

namespace AgePluginPhone.Android.SignatureEncoding

open Library Cbor Der P256

inductive Thrown
  | protocolException
  | indexOutOfBounds
  deriving DecidableEq

/-- The signed value of a `Byte`. -/
def signed (b : Byte) : ℤ := if b.val < 128 then b.val else b.val - 256

/-- `BigInteger(1, bytes)`. -/
def bigInteger (bytes : List Byte) : ℕ := bigEndianValue bytes

/-- `bytes[offset]`. -/
def element (bytes : List Byte) (offset : ℕ) : Except Thrown Byte :=
  okOr bytes[offset]? .indexOutOfBounds

def fixed (value size : ℕ) : Except Thrown (List Byte) := do
  let raw := toByteArray value
  let unsigned := if size < raw.length ∧ raw.head? = some 0 then raw.drop 1 else raw
  ensure (unsigned.length ≤ size) .protocolException
  return List.replicate (size - unsigned.length) 0 ++ unsigned

/-- `integer()` of `derToCompact`: the content at the offset, and the offset behind it. -/
def integerAt (der : List Byte) (offset : ℕ) : Except Thrown (List Byte × ℕ) := do
  let tag ← element der offset
  ensure (tag = 2) .protocolException
  let size ← element der (offset + 1)
  ensure ((1 ≤ size.val ∧ size.val ≤ 33) ∧ offset + 2 + size.val ≤ der.length) .protocolException
  return ((der.drop (offset + 2)).take size.val, offset + 2 + size.val)

def derToCompact (der : List Byte) : Except Thrown (List Byte) := do
  ensure (8 ≤ der.length) .protocolException
  ensure ((← element der 0) = 0x30) .protocolException
  ensure (signed (← element der 1) = der.length - 2) .protocolException
  let (r, offset) ← integerAt der 2
  let (content, _) ← integerAt der offset
  let s := bigInteger content
  let s := if order / 2 < s then order - s else s
  return (← fixed (bigInteger r) 32) ++ (← fixed s 32)

/-- `copyOfRange` of both halves is in range for every compact signature that is 64 bytes long. -/
def compactToDer (signature : Bytes 64) : List Byte :=
  let r := toByteArray (bigInteger (signature.1.take 32))
  let s := toByteArray (bigInteger (signature.1.drop 32))
  [0x30, byte (4 + r.length + s.length), 2, byte r.length] ++ r ++ ([2, byte s.length] ++ s)

/-- `verify` up to the platform's verifier, with the order of the key's parameters. -/
def verify (keyOrder : ℕ) (accepts : List Byte → Bool) (compact : List Byte) : Except Thrown Unit := do
  if h : compact.length = 64 then
    ensure (¬ keyOrder / 2 < bigInteger (compact.drop 32)) .protocolException
    ensure (accepts (compactToDer ⟨compact, h⟩)) .protocolException
  else .error .protocolException

section Correctness

variable {n r s : ℕ}

private theorem bigEndian_pad {width : ℕ} (hn : n < 256 ^ width) (zeros : ℕ) :
    List.replicate zeros 0 ++ bigEndian width n = bigEndian (zeros + width) n := by
  have hvalue : bigEndianValue (List.replicate zeros 0 ++ bigEndian width n) = n := by
    induction zeros with
    | zero => exact bigEndianValue_bigEndian hn
    | succ zeros ih =>
        rw [List.replicate_succ, List.cons_append, bigEndianValue_cons, ih]
        simp
  have hback := bigEndian_bigEndianValue (List.replicate zeros 0 ++ bigEndian width n)
  rw [hvalue, List.length_append, List.length_replicate, bigEndian_length] at hback
  exact hback.symm

private theorem size_le_256 (hn : n < order) : n.size ≤ 256 := by
  have horder : order < 2 ^ 256 := by norm_num [order]
  exact Nat.size_le.mpr (hn.trans horder)

private theorem toByteArray_length_le (hn : n < order) : (toByteArray n).length ≤ 33 := by
  have hsize := size_le_256 hn
  rw [toByteArray_length]
  omega

/-- A number below the order takes exactly its 32 bytes. -/
private theorem fixed_eq (hn : n < order) : fixed n 32 = .ok (bigEndian 32 n) := by
  have hlt : n < 256 ^ 32 := hn.trans (by norm_num [order])
  have hlength := toByteArray_length n
  have hle := toByteArray_length_le hn
  by_cases hlong : n.size / 8 + 1 = 33
  · have hraw : toByteArray n = 0 :: bigEndian 32 n := by
      rw [toByteArray, hlong, bigEndian, Nat.div_eq_of_lt hlt]
      rfl
    have hunsigned : (if 32 < (toByteArray n).length ∧ (toByteArray n).head? = some 0 then
        (toByteArray n).drop 1 else toByteArray n) = bigEndian 32 n := by
      rw [hlength, hlong, hraw]
      rfl
    rw [fixed, hunsigned, bigEndian_length, ensure_true _ (le_refl 32)]
    rfl
  · have hshort : (toByteArray n).length ≤ 32 := by omega
    have hunsigned : (if 32 < (toByteArray n).length ∧ (toByteArray n).head? = some 0 then
        (toByteArray n).drop 1 else toByteArray n) = toByteArray n :=
      if_neg fun h => absurd h.1 (not_lt.mpr hshort)
    have hsize : n < 256 ^ (n.size / 8 + 1) := by
      have hself := bigEndianValue_lt (toByteArray n)
      rwa [toByteArray_value, hlength] at hself
    have hpad := bigEndian_pad hsize (32 - (toByteArray n).length)
    rw [hlength, Nat.sub_add_cancel (hlength ▸ hshort)] at hpad
    rw [fixed, hunsigned, ensure_true _ hshort, ok_bind, hlength, toByteArray]
    exact congrArg Except.ok hpad

theorem compactToDer_compact (hr : r < order) (hs : s < order) :
    compactToDer (compact r s) = [0x30, byte (4 + (toByteArray r).length + (toByteArray s).length), 2,
      byte (toByteArray r).length] ++ toByteArray r ++ ([2, byte (toByteArray s).length] ++
        toByteArray s) := by
  rw [compactToDer, bigInteger, bigInteger, compact_first hr, compact_second hs]

private theorem byte_val {k : ℕ} (hk : k < 256) : (byte k).val = k := Nat.mod_eq_of_lt hk

private theorem integerAt_eq {content : List Byte} (hcontent : content ≠ [])
    (hlength : content.length ≤ 33) (front rest : List Byte) :
    integerAt (front ++ ([2, byte content.length] ++ content) ++ rest) front.length =
      .ok (content, front.length + 2 + content.length) := by
  have hpositive := List.length_pos_of_ne_nil hcontent
  have hsize : (byte content.length).val = content.length := byte_val (by omega)
  have htag : element (front ++ ([2, byte content.length] ++ content) ++ rest) front.length = .ok 2 := by
    simp [element]
  have hlen : element (front ++ ([2, byte content.length] ++ content) ++ rest) (front.length + 1) =
      .ok (byte content.length) := by
    simp [element]
  have hrange : (1 ≤ content.length ∧ content.length ≤ 33) ∧ front.length + 2 + content.length ≤
      (front ++ ([2, byte content.length] ++ content) ++ rest).length := by
    simp only [List.length_append, List.length_cons, List.length_nil]
    omega
  have hfound : ((front ++ ([2, byte content.length] ++ content) ++ rest).drop
      (front.length + 2)).take content.length = content := by
    have hfront : front.drop (front.length + 2) = [] := List.drop_eq_nil_of_le (by omega)
    simp [List.drop_append, hfront]
  rw [integerAt, htag, ok_bind, ensure_true _ rfl, ok_bind, hlen, ok_bind, hsize,
    ensure_true _ hrange, ok_bind, hfound]
  rfl

/-- Both integers are minimal, and every length byte is the length of what follows it. -/
theorem compactToDer_minimal (hr : r < order) (hs : s < order) :
    ∃ first second, ∃ total firstLength secondLength : Byte,
      IsInteger r first ∧ IsInteger s second ∧
      compactToDer (compact r s) = [0x30, total, 2, firstLength] ++ first ++
        ([2, secondLength] ++ second) ∧
      firstLength.val = first.length ∧ secondLength.val = second.length ∧
      total.val = 4 + first.length + second.length ∧ total.val < 128 := by
  have hfirst := toByteArray_length_le hr
  have hsecond := toByteArray_length_le hs
  have htotal : (byte (4 + (toByteArray r).length + (toByteArray s).length)).val =
      4 + (toByteArray r).length + (toByteArray s).length := byte_val (by omega)
  refine ⟨toByteArray r, toByteArray s, _, _, _, isInteger_iff.mpr rfl, isInteger_iff.mpr rfl,
    compactToDer_compact hr hs, byte_val (by omega), byte_val (by omega), htotal, ?_⟩
  omega

theorem derToCompact_compactToDer (hr : r < order) (hs : s < order) :
    derToCompact (compactToDer (compact r s)) = .ok (compact r (min s (order - s))).1 := by
  have hfirst := toByteArray_length_le hr
  have hsecond := toByteArray_length_le hs
  have hnonempty : ∀ n, toByteArray n ≠ [] := fun n => (isInteger_iff.mpr rfl : IsInteger n _).nonempty
  have hone := List.length_pos_of_ne_nil (hnonempty r)
  have hone' := List.length_pos_of_ne_nil (hnonempty s)
  have htotal : (byte (4 + (toByteArray r).length + (toByteArray s).length)).val =
      4 + (toByteArray r).length + (toByteArray s).length := byte_val (by omega)
  rw [compactToDer_compact hr hs]
  generalize hder : [0x30, byte (4 + (toByteArray r).length + (toByteArray s).length), 2,
    byte (toByteArray r).length] ++ toByteArray r ++ ([2, byte (toByteArray s).length] ++
      toByteArray s) = der
  have hlength : der.length = 6 + (toByteArray r).length + (toByteArray s).length := by
    rw [← hder]
    simp only [List.length_append, List.length_cons, List.length_nil]
    omega
  have htag : element der 0 = .ok 0x30 := by
    rw [← hder]
    rfl
  have hsize : element der 1 = .ok (byte (4 + (toByteArray r).length + (toByteArray s).length)) := by
    rw [← hder]
    rfl
  have hsigned : signed (byte (4 + (toByteArray r).length + (toByteArray s).length)) =
      der.length - 2 := by
    rw [signed, htotal, if_pos (by omega), hlength]
    omega
  have hr' : integerAt der 2 = .ok (toByteArray r, 4 + (toByteArray r).length) := by
    have hread := integerAt_eq (hnonempty r) hfirst
      [0x30, byte (4 + (toByteArray r).length + (toByteArray s).length)]
      ([2, byte (toByteArray s).length] ++ toByteArray s)
    rw [← hder]
    exact hread
  have hs' : integerAt der (4 + (toByteArray r).length) =
      .ok (toByteArray s, 6 + (toByteArray r).length + (toByteArray s).length) := by
    have hread := integerAt_eq (hnonempty s) hsecond
      ([0x30, byte (4 + (toByteArray r).length + (toByteArray s).length), 2,
        byte (toByteArray r).length] ++ toByteArray r) []
    have hfront : ([0x30, byte (4 + (toByteArray r).length + (toByteArray s).length), 2,
        byte (toByteArray r).length] ++ toByteArray r).length = 4 + (toByteArray r).length := by
      simp only [List.length_append, List.length_cons, List.length_nil]
    rw [List.append_nil, hfront, hder] at hread
    rw [hread]
    congr 2
    omega
  have hmin : (if order / 2 < s then order - s else s) = min s (order - s) := by
    by_cases hlow : s ≤ order / 2
    · rw [if_neg (not_lt.mpr hlow), min_negative_of_low hlow]
    · rw [if_pos (not_le.mp hlow), min_negative_of_high hlow]
  have hminimum : min s (order - s) < order := (min_le_left _ _).trans_lt hs
  rw [derToCompact, ensure_true _ (by omega), ok_bind, htag, ok_bind, ensure_true _ rfl, ok_bind, hsize,
    ok_bind, ensure_true _ hsigned, ok_bind, hr', ok_bind]
  simp only [hs', ok_bind, bigInteger, toByteArray_value, hmin, fixed_eq hr, fixed_eq hminimum]
  rfl

private theorem halves_inj {a b : List Byte} (hlength : a.length = b.length)
    (h : toByteArray (bigInteger a) = toByteArray (bigInteger b)) : a = b := by
  have hvalue : bigEndianValue a = bigEndianValue b := by
    have hboth := congrArg bigEndianValue h
    rwa [toByteArray_value, toByteArray_value] at hboth
  rw [← bigEndian_bigEndianValue a, ← bigEndian_bigEndianValue b, hvalue, hlength]

private theorem half_length_le {half : List Byte} (h : half.length = 32) :
    (toByteArray (bigInteger half)).length ≤ 33 := by
  have hlt : bigInteger half < 2 ^ 256 := by
    have := bigEndianValue_lt half
    rwa [h] at this
  have hsize := Nat.size_le.mpr hlt
  rw [toByteArray_length]
  omega

/-- No two signatures have one encoding. -/
theorem compactToDer_injective : Function.Injective compactToDer := by
  intro a b h
  have hfirst (signature : Bytes 64) : (signature.1.take 32).length = 32 := by
    rw [List.length_take, signature.2]
    rfl
  have hsecond (signature : Bytes 64) : (signature.1.drop 32).length = 32 := by
    rw [List.length_drop, signature.2]
  simp only [compactToDer, List.cons_append, List.nil_append, List.cons.injEq, true_and] at h
  obtain ⟨-, hlength, hparts⟩ := h
  have hlengths : (toByteArray (bigInteger (a.1.take 32))).length =
      (toByteArray (bigInteger (b.1.take 32))).length := by
    have hle := half_length_le (hfirst a)
    have hle' := half_length_le (hfirst b)
    have hval := congrArg Fin.val hlength
    rwa [byte_val (by omega), byte_val (by omega)] at hval
  obtain ⟨hr, htail⟩ := List.append_inj hparts hlengths
  have hs := (List.cons.inj (List.cons.inj htail).2).2
  have htake := halves_inj ((hfirst a).trans (hfirst b).symm) hr
  have hdrop := halves_inj ((hsecond a).trans (hsecond b).symm) hs
  rw [Subtype.ext_iff, ← List.take_append_drop 32 a.1, htake, hdrop, List.take_append_drop]

end Correctness

end AgePluginPhone.Android.SignatureEncoding
