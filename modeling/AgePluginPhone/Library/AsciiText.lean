import AgePluginPhone.Library.HexText

/-!
# ASCII text

The bytes of ASCII text, the folding of letter case, and fields that a separator ends.
-/

namespace AgePluginPhone.Library.AsciiText

/-- The byte of an ASCII character. -/
def byte (c : Char) : Byte := c.val.toUInt8.toFin

section Utf8

theorem utf8_append (s t : String) : utf8 (s ++ t) = utf8 s ++ utf8 t := by
  simp [utf8]

theorem utf8_injective : Function.Injective utf8 := by
  intro s t h
  have hread : fromUtf8 (utf8 s) = fromUtf8 (utf8 t) := by rw [h]
  simpa using hread

private theorem utf8_singleton {c : Char} (h : c.utf8Size = 1) :
    utf8 (String.singleton c) = [byte c] := by
  simp [utf8, byte, List.utf8Encode_singleton, String.utf8EncodeChar_eq_singleton h]

theorem utf8_ofList {chars : List Char} (h : ∀ c ∈ chars, c.utf8Size = 1) :
    utf8 (String.ofList chars) = chars.map byte := by
  induction chars with
  | nil => rfl
  | cons c chars ih =>
      obtain ⟨hhead, htail⟩ := List.forall_mem_cons.mp h
      have hsplit : String.ofList (c :: chars) = String.singleton c ++ String.ofList chars := by
        rw [String.ofList_cons]
      rw [hsplit, utf8_append, utf8_singleton hhead, ih htail]
      rfl

end Utf8

section Digits

private theorem isDigit_bounds {c : Char} (h : c.isDigit) : 48 ≤ c.val.toNat ∧ c.val.toNat ≤ 57 := by
  rw [Char.isDigit, Bool.and_eq_true, decide_eq_true_eq, decide_eq_true_eq] at h
  exact ⟨UInt32.le_iff_toNat_le.mp h.1, UInt32.le_iff_toNat_le.mp h.2⟩

private theorem mem_toDigits {n : ℕ} {c : Char} (hc : c ∈ Nat.toDigits 10 n) :
    48 ≤ c.val.toNat ∧ c.val.toNat ≤ 57 :=
  isDigit_bounds (Nat.isDigit_of_mem_toDigits (by decide) (by decide) hc)

theorem utf8_decimal (n : ℕ) : utf8 (toString n) = (Nat.toDigits 10 n).map byte := by
  have hdigits : toString n = String.ofList (Nat.toDigits 10 n) := Nat.toString_eq_ofList_toDigits
  rw [hdigits, utf8_ofList]
  intro c hc
  have hdigit := mem_toDigits hc
  have hsmall : c.val.toNat ≤ 127 := by omega
  exact Char.utf8Size_eq_one_iff.mpr (UInt32.le_iff_toNat_le.mpr hsmall)

theorem decimal_bytes (n : ℕ) : ∀ b ∈ utf8 (toString n), 48 ≤ b.val ∧ b.val ≤ 57 := by
  intro b hb
  rw [utf8_decimal] at hb
  obtain ⟨c, hc, rfl⟩ := List.mem_map.mp hb
  have hdigit := mem_toDigits hc
  have hbyte : (byte c).val = c.val.toNat % 256 := rfl
  omega

theorem decimal_injective : Function.Injective fun n : ℕ => utf8 (toString n) := by
  intro m n h
  exact Nat.repr_injective (utf8_injective h)

end Digits

section Case

def lowerByte (b : Byte) : Byte := if 65 ≤ b.val ∧ b.val ≤ 90 then Fin.ofNat 256 (b.val + 32) else b

/-- The text with its ASCII capitals made small. -/
def foldCase (text : List Byte) : List Byte := text.map lowerByte

/-- Text without capitals. -/
def Folded (text : List Byte) : Prop := ∀ b ∈ text, b.val < 65 ∨ 90 < b.val

instance (text : List Byte) : Decidable (Folded text) :=
  inferInstanceAs (Decidable (∀ b ∈ text, b.val < 65 ∨ 90 < b.val))

theorem Folded.foldCase_eq {text : List Byte} (h : Folded text) : foldCase text = text := by
  induction text with
  | nil => rfl
  | cons b text ih =>
      obtain ⟨hhead, htail⟩ := List.forall_mem_cons.mp h
      have hb : lowerByte b = b := if_neg (by omega)
      have hrest : text.map lowerByte = text := ih htail
      rw [foldCase, List.map_cons, hb, hrest]

@[simp] theorem folded_append {xs ys : List Byte} : Folded (xs ++ ys) ↔ Folded xs ∧ Folded ys :=
  List.forall_mem_append

theorem folded_decimal (n : ℕ) : Folded (utf8 (toString n)) := by
  intro b hb
  have hdigit := decimal_bytes n b hb
  omega

end Case

section Fields

variable {sep : Byte} {xs ys rest rest' : List Byte}

/-- A field that ends at the separator is the field of every text that begins with both. -/
theorem field_eq_of_prefix (hxs : sep ∉ xs) (hys : sep ∉ ys)
    (h : xs ++ [sep] <+: ys ++ sep :: rest) : xs = ys := by
  induction xs generalizing ys with
  | nil =>
      cases ys with
      | nil => rfl
      | cons y ys =>
          obtain ⟨rfl, -⟩ := List.cons_prefix_cons.mp h
          exact absurd List.mem_cons_self hys
  | cons x xs ih =>
      cases ys with
      | nil =>
          obtain ⟨rfl, -⟩ := List.cons_prefix_cons.mp h
          exact absurd List.mem_cons_self hxs
      | cons y ys =>
          obtain ⟨rfl, htail⟩ := List.cons_prefix_cons.mp h
          rw [ih (List.not_mem_of_not_mem_cons hxs) (List.not_mem_of_not_mem_cons hys) htail]

theorem fields_eq (hxs : sep ∉ xs) (hys : sep ∉ ys) (h : xs ++ sep :: rest = ys ++ sep :: rest') :
    xs = ys ∧ rest = rest' := by
  have hprefix : xs ++ [sep] <+: ys ++ sep :: rest' := ⟨rest, by rw [← h]; simp⟩
  obtain rfl := field_eq_of_prefix hxs hys hprefix
  simpa using h

/-- A text that only begins with the separator and begins a field and more begins the field. -/
theorem prefix_of_prefix_append (hys : sep ∉ ys) (hxs : xs ≠ [])
    (h : sep :: ys <+: xs ++ sep :: rest) : sep :: ys <+: xs := by
  rcases le_or_gt (sep :: ys).length xs.length with hle | hlt
  · exact List.prefix_of_prefix_length_le h (List.prefix_append _ _) hle
  · exfalso
    have hwhole : xs ++ [sep] <+: xs ++ sep :: rest := by
      rw [List.prefix_append_right_inj]
      exact ⟨rest, rfl⟩
    have hlonger : xs ++ [sep] <+: sep :: ys :=
      List.prefix_of_prefix_length_le hwhole h (by simp at hlt ⊢; omega)
    cases xs with
    | nil => exact hxs rfl
    | cons x xs =>
        have htail : xs ++ [sep] <+: ys := (List.cons_prefix_cons.mp hlonger).2
        exact hys (htail.subset (List.mem_append_right _ List.mem_cons_self))

end Fields

end AgePluginPhone.Library.AsciiText
