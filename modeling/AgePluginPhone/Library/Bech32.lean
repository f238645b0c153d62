import AgePluginPhone.Library.BitGroups
import AgePluginPhone.Library.DigitText

/-!
# Bech32

Texts with a human-readable part, data words of five bits and a checksum of six words.
-/

namespace AgePluginPhone.Library.Bech32

def charset : List Char := "qpzry9x8gf2tvdw0s3jn54khce6mua7l".toList

def generators : List ℕ := [0x3b6a57b2, 0x26508e6d, 0x1ea119fa, 0x3d4233dd, 0x2a1462b3]

def hrpExpand (hrp : String) : List ℕ :=
  (utf8 hrp).map (fun b => b.val >>> 5) ++ [0] ++ (utf8 hrp).map fun b => b.val &&& 31

def polymodStep (checksum word : ℕ) : ℕ :=
  let top := checksum >>> 25
  let shifted := ((checksum &&& 0x01ffffff) <<< 5) ^^^ word
  generators.zipIdx.foldl (fun acc (generator, index) =>
    if (top >>> index) &&& 1 ≠ 0 then acc ^^^ generator else acc) shifted

def polymod (words : List ℕ) : ℕ := words.foldl polymodStep 1

/-- The six words that bring the checksum of the text to one. -/
def checksum (hrp : String) (words : List ℕ) : List ℕ :=
  let residue := polymod (hrpExpand hrp ++ words ++ List.replicate 6 0) ^^^ 1
  (List.range 6).map fun i => (residue >>> (5 * (5 - i))) &&& 31

def encode (hrp : String) (words : List ℕ) : String :=
  hrp ++ "1" ++ String.ofList (DigitText.spell charset 'q' (words ++ checksum hrp words))

/-- The data words of a text with the given human-readable part and a correct checksum. -/
def decode (hrp text : String) : Option (List ℕ) := do
  let data ← DigitText.read charset (text.toList.drop (hrp.toList.length + 1))
  let words := data.take (data.length - 6)
  if encode hrp words = text then some words else none

/-- The words of a byte string. -/
def wordsOf (bytes : List Byte) : List ℕ := BitGroups.padded 8 5 (bytes.map Fin.val)

section Checksum

private theorem foldl_xor (top start word : ℕ) (table : List (ℕ × ℕ)) :
    table.foldl (fun acc (generator, index) =>
      if (top >>> index) &&& 1 ≠ 0 then acc ^^^ generator else acc) (start ^^^ word) =
    table.foldl (fun acc (generator, index) =>
      if (top >>> index) &&& 1 ≠ 0 then acc ^^^ generator else acc) start ^^^ word := by
  induction table generalizing start with
  | nil => rfl
  | cons entry table ih =>
      obtain ⟨generator, index⟩ := entry
      rw [List.foldl_cons, List.foldl_cons, ← ih]
      congr 1
      dsimp only
      split_ifs
      · rw [Nat.xor_assoc, Nat.xor_comm word, ← Nat.xor_assoc]
      · rfl

private theorem polymodStep_word (checksum word : ℕ) :
    polymodStep checksum word = polymodStep checksum 0 ^^^ word := by
  simp only [polymodStep, Nat.xor_zero]
  exact foldl_xor _ _ _ _

/-- A difference below the top five bits is shifted through a step. -/
private theorem polymodStep_xor {difference : ℕ} (h : difference < 2 ^ 25) (checksum word : ℕ) :
    polymodStep (checksum ^^^ difference) word =
      polymodStep checksum 0 ^^^ ((difference <<< 5) ^^^ word) := by
  have htop : (checksum ^^^ difference) >>> 25 = checksum >>> 25 := by
    rw [Nat.shiftRight_xor_distrib, Nat.shiftRight_eq_div_pow difference, Nat.div_eq_of_lt h,
      Nat.xor_zero]
  have hlow : (checksum ^^^ difference) &&& 0x01ffffff = (checksum &&& 0x01ffffff) ^^^ difference := by
    have hmask : difference &&& 0x01ffffff = difference := by
      rw [show (0x01ffffff : ℕ) = 2 ^ 25 - 1 by norm_num, Nat.and_two_pow_sub_one_eq_mod,
        Nat.mod_eq_of_lt h]
    rw [Nat.and_xor_distrib_right, hmask]
  simp only [polymodStep, htop, hlow, Nat.xor_zero, Nat.shiftLeft_xor_distrib]
  rw [Nat.xor_assoc, foldl_xor]

private theorem foldl_xor_lt (top : ℕ) {start : ℕ} {table : List (ℕ × ℕ)} (hstart : start < 2 ^ 30)
    (htable : ∀ entry ∈ table, entry.1 < 2 ^ 30) :
    table.foldl (fun acc (generator, index) =>
      if (top >>> index) &&& 1 ≠ 0 then acc ^^^ generator else acc) start < 2 ^ 30 := by
  induction table generalizing start with
  | nil => exact hstart
  | cons entry table ih =>
      obtain ⟨hhead, htail⟩ := List.forall_mem_cons.mp htable
      obtain ⟨generator, index⟩ := entry
      rw [List.foldl_cons]
      apply ih _ htail
      dsimp only
      split_ifs
      · exact Nat.xor_lt_two_pow hstart hhead
      · exact hstart

private theorem polymodStep_lt {word : ℕ} (hword : word < 2 ^ 30) (checksum : ℕ) :
    polymodStep checksum word < 2 ^ 30 := by
  have hshifted : (checksum &&& 0x01ffffff) <<< 5 < 2 ^ 30 := by
    have hlow := Nat.and_le_right (n := checksum) (m := 0x01ffffff)
    rw [Nat.shiftLeft_eq]
    omega
  exact foldl_xor_lt _ (Nat.xor_lt_two_pow hshifted hword) (by decide)

private theorem low_word (n : ℕ) : ((n >>> 5) <<< 5) ^^^ (n &&& 31) = n := by
  apply Nat.eq_of_testBit_eq
  intro i
  rw [Nat.testBit_xor, Nat.testBit_shiftLeft, Nat.testBit_shiftRight,
    show (31 : ℕ) = 2 ^ 5 - 1 by norm_num, Nat.testBit_and, Nat.testBit_two_pow_sub_one]
  by_cases hi : i < 5
  · simp [hi, Nat.not_le.mpr hi]
  · have hge : 5 ≤ i := not_lt.mp hi
    simp [hi, hge]

/-- Appending words instead of zeros changes the checksum by those words. -/
private theorem foldl_replicate_xor (count : ℕ) (start residue : ℕ) (hcount : count ≤ 6)
    (hresidue : residue < 2 ^ 30) :
    ((List.range count).map fun i => (residue >>> (5 * (5 - i))) &&& 31).foldl polymodStep start =
      (List.replicate count 0).foldl polymodStep start ^^^ (residue >>> (5 * (6 - count))) := by
  induction count with
  | zero =>
      have hzero : residue >>> (5 * (6 - 0)) = 0 := by
        rw [Nat.shiftRight_eq_div_pow]
        exact Nat.div_eq_of_lt hresidue
      rw [hzero, Nat.xor_zero]
      rfl
  | succ count ih =>
      have hdifference : residue >>> (5 * (6 - count)) < 2 ^ 25 := by
        rw [Nat.shiftRight_eq_div_pow]
        apply Nat.div_lt_of_lt_mul
        rw [← pow_add]
        exact lt_of_lt_of_le hresidue (Nat.pow_le_pow_right (by decide) (by omega))
      have hshift : residue >>> (5 * (6 - count)) = (residue >>> (5 * (5 - count))) >>> 5 := by
        rw [← Nat.shiftRight_add]
        congr 1
        omega
      have hsame : 6 - (count + 1) = 5 - count := by omega
      rw [List.range_succ, List.map_append, List.foldl_append, ih (by omega), List.replicate_succ',
        List.foldl_append, List.map_singleton, List.foldl_cons, List.foldl_nil, List.foldl_cons,
        List.foldl_nil, polymodStep_xor hdifference, hshift, low_word, hsame]

/-- The checksum of a complete text is one. -/
theorem polymod_checksum (hrp : String) (words : List ℕ) :
    polymod (hrpExpand hrp ++ (words ++ checksum hrp words)) = 1 := by
  have hzeros : polymod (hrpExpand hrp ++ words ++ List.replicate 6 0) < 2 ^ 30 := by
    rw [polymod, List.replicate_succ', ← List.append_assoc, List.foldl_append]
    exact polymodStep_lt (by decide) _
  have hresidue : polymod (hrpExpand hrp ++ words ++ List.replicate 6 0) ^^^ 1 < 2 ^ 30 :=
    Nat.xor_lt_two_pow hzeros (by decide)
  have hfold := foldl_replicate_xor 6 (polymod (hrpExpand hrp ++ words)) _ le_rfl hresidue
  have hsame : (List.replicate 6 0).foldl polymodStep (polymod (hrpExpand hrp ++ words)) =
      polymod (hrpExpand hrp ++ words ++ List.replicate 6 0) := by
    rw [polymod, polymod, List.foldl_append (l := hrpExpand hrp ++ words)]
  rw [← List.append_assoc, polymod, List.foldl_append]
  refine hfold.trans ?_
  rw [hsame, Nat.sub_self, Nat.mul_zero, Nat.shiftRight_zero, ← Nat.xor_assoc, Nat.xor_self,
    Nat.zero_xor]

end Checksum

private theorem charset_eq : charset = ['q', 'p', 'z', 'r', 'y', '9', 'x', '8', 'g', 'f', '2', 't', 'v',
    'd', 'w', '0', 's', '3', 'j', 'n', '5', '4', 'k', 'h', 'c', 'e', '6', 'm', 'u', 'a', '7', 'l'] :=
  String.toList_ofList

theorem charset_nodup : charset.Nodup := by
  apply List.Nodup.of_map Char.toNat
  rw [charset_eq]
  simp only [List.map_cons, List.map_nil, Char.reduceToNat]
  decide

theorem charset_length : charset.length = 32 := by
  rw [charset_eq]
  rfl

theorem checksum_lt (hrp : String) (words : List ℕ) : ∀ d ∈ checksum hrp words, d < 32 := by
  intro d hd
  obtain ⟨i, -, rfl⟩ := List.mem_map.mp hd
  exact lt_of_le_of_lt Nat.and_le_right (by decide)

theorem checksum_length (hrp : String) (words : List ℕ) : (checksum hrp words).length = 6 := by
  simp [checksum]

theorem wordsOf_lt (bytes : List Byte) : ∀ d ∈ wordsOf bytes, d < 32 := by
  have hbytes : ∀ d ∈ bytes.map Fin.val, d < 2 ^ 8 := by
    intro d hd
    obtain ⟨b, -, rfl⟩ := List.mem_map.mp hd
    exact b.isLt
  exact BitGroups.padded_lt (by decide) hbytes

theorem wordsOf_length (bytes : List Byte) : (wordsOf bytes).length = (8 * bytes.length + 4) / 5 := by
  rw [wordsOf, BitGroups.padded_length (by decide), List.length_map]
  intro d hd
  obtain ⟨b, -, rfl⟩ := List.mem_map.mp hd
  exact b.isLt

theorem exact_wordsOf (bytes : List Byte) :
    BitGroups.exact 5 8 (wordsOf bytes) = some (bytes.map Fin.val) := by
  apply BitGroups.exact_padded (by decide) (by decide)
  intro d hd
  obtain ⟨b, -, rfl⟩ := List.mem_map.mp hd
  exact b.isLt

theorem mem_encode {hrp : String} {words : List ℕ} {c : Char}
    (h : c ∈ (encode hrp words).toList) : c ∈ hrp.toList ∨ c ∈ '1' :: charset := by
  rw [encode, String.toList_append, String.toList_append, List.append_assoc] at h
  rcases List.mem_append.mp h with hhrp | h
  · exact Or.inl hhrp
  · rcases List.mem_append.mp h with hone | h
    · have hone : c = '1' := by simpa using hone
      subst hone
      exact Or.inr List.mem_cons_self
    · rw [String.toList_ofList] at h
      rcases DigitText.mem_spell h with hmem | hq
      · exact Or.inr (List.mem_cons_of_mem _ hmem)
      · subst hq
        exact Or.inr (by decide)

theorem decode_encode (hrp : String) {words : List ℕ} (h : ∀ d ∈ words, d < 32) :
    decode hrp (encode hrp words) = some words := by
  have hdrop : (encode hrp words).toList.drop (hrp.toList.length + 1) =
      DigitText.spell charset 'q' (words ++ checksum hrp words) := by
    rw [encode, String.toList_append, String.toList_append, List.drop_left' (by simp),
      String.toList_ofList]
  have hread : DigitText.read charset (DigitText.spell charset 'q' (words ++ checksum hrp words)) =
      some (words ++ checksum hrp words) := by
    rw [DigitText.read_eq_some charset_nodup, charset_length]
    exact ⟨List.forall_mem_append.mpr ⟨h, checksum_lt hrp words⟩, rfl⟩
  have htake : (words ++ checksum hrp words).take ((words ++ checksum hrp words).length - 6) = words := by
    rw [List.length_append, checksum_length, Nat.add_sub_cancel, List.take_left]
  simp only [decode, hdrop, hread, Option.bind_eq_bind, Option.bind_some, htake, if_true]

theorem encode_length (hrp : String) (words : List ℕ) :
    (utf8 (encode hrp words)).length = (utf8 hrp).length + words.length + 7 := by
  have happend (a b : String) : (utf8 (a ++ b)).length = (utf8 a).length + (utf8 b).length := by
    simp [utf8]
  rw [encode, happend, happend, DigitText.utf8_spell_length (by rw [charset_eq]; rfl) rfl,
    List.length_append, checksum_length, show (utf8 "1").length = 1 from rfl]
  omega

end AgePluginPhone.Library.Bech32
