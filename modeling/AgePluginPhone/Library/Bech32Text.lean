import AgePluginPhone.Library.Bech32

/-!
# Bech32 texts

What a reader that looks for the last separator meets in an encoded text.
-/

namespace AgePluginPhone.Library

/-- The index of the last occurrence of a character. -/
def lastIndexOf (c : Char) (chars : List Char) : Option ℕ :=
  (chars.reverse.findIdx? (· = c)).map fun i => chars.length - 1 - i

theorem lastIndexOf_append {c : Char} {front back : List Char} (h : c ∉ back) :
    lastIndexOf c (front ++ c :: back) = some front.length := by
  have hback : back.reverse.findIdx? (· = c) = none := by
    rw [List.findIdx?_eq_none_iff]
    intro other hother
    have hne : other ≠ c := fun heq => h (heq ▸ List.mem_reverse.mp hother)
    simp [hne]
  have hfound : (front ++ c :: back).reverse.findIdx? (· = c) = some back.length := by
    simp [List.findIdx?_append, List.findIdx?_cons, hback]
  rw [lastIndexOf, hfound]
  simp

namespace Bech32

variable {hrp : String} {words : List ℕ}

/-- The characters of a text after its human-readable part. -/
private theorem charset_ascii : '1' ∉ charset ∧
    ('1' :: charset).all (fun c => c.toLower == c) ∧ ('1' :: charset).all (fun c => c.toNat < 128) := by
  decide +kernel

theorem encode_toList : (encode hrp words).toList =
    hrp.toList ++ '1' :: DigitText.spell charset 'q' (words ++ checksum hrp words) := by
  simp [encode, String.toList_append, String.toList_ofList]

theorem length_encode : (encode hrp words).toList.length = hrp.toList.length + words.length + 7 := by
  simp [encode_toList, DigitText.spell_length, checksum_length]
  omega

theorem separator_not_mem : '1' ∉ DigitText.spell charset 'q' words := by
  intro h
  rcases DigitText.mem_spell h with hmem | hq
  · exact charset_ascii.1 hmem
  · exact absurd hq (by decide)

theorem lastIndexOf_encode : lastIndexOf '1' (encode hrp words).toList = some hrp.toList.length := by
  rw [encode_toList]
  exact lastIndexOf_append separator_not_mem

theorem lowercase_encode (h : hrp.toList.all fun c => c.toLower == c) :
    ∀ c ∈ (encode hrp words).toList, c.toLower = c := by
  intro c hc
  rcases mem_encode hc with hmem | hmem
  · exact beq_iff_eq.mp (List.all_eq_true.mp h c hmem)
  · exact beq_iff_eq.mp (List.all_eq_true.mp charset_ascii.2.1 c hmem)

theorem ascii_encode (h : hrp.toList.all fun c => c.toNat < 128) :
    ∀ c ∈ (encode hrp words).toList, c.toNat < 128 := by
  intro c hc
  rcases mem_encode hc with hmem | hmem
  · simpa using List.all_eq_true.mp h c hmem
  · simpa using List.all_eq_true.mp charset_ascii.2.2 c hmem

theorem read_data (h : ∀ d ∈ words, d < 32) : DigitText.read charset
    (DigitText.spell charset 'q' (words ++ checksum hrp words)) =
      some (words ++ checksum hrp words) := by
  rw [DigitText.read_eq_some charset_nodup, charset_length]
  exact ⟨List.forall_mem_append.mpr ⟨h, checksum_lt hrp words⟩, rfl⟩

theorem take_data : (words ++ checksum hrp words).take
    ((words ++ checksum hrp words).length - 6) = words := by
  rw [List.length_append, checksum_length, Nat.add_sub_cancel, List.take_left]

end Bech32

end AgePluginPhone.Library
