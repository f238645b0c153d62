import AgePluginPhone.Library.CborItem

/-!
# Digits as text

Digits spelled with the characters of an alphabet, and read back.
-/

namespace AgePluginPhone.Library.DigitText

variable (alphabet : List Char) (fallback : Char)

def spell (digits : List ℕ) : List Char := digits.map fun d => alphabet.getD d fallback

def read (chars : List Char) : Option (List ℕ) :=
  chars.mapM fun c => alphabet.findIdx? (· = c)

variable {alphabet fallback} {digits : List ℕ} {chars : List Char}

private theorem findIdx?_eq_some (hnodup : alphabet.Nodup) {c : Char} {d : ℕ} :
    alphabet.findIdx? (· = c) = some d ↔ d < alphabet.length ∧ alphabet.getD d fallback = c := by
  rw [List.findIdx?_eq_some_iff_getElem]
  constructor
  · intro hparts
    obtain ⟨hlt, hchar, _⟩ := hparts
    refine ⟨hlt, ?_⟩
    rw [List.getD_eq_getElem _ _ hlt]
    exact of_decide_eq_true hchar
  · intro hparts
    obtain ⟨hlt, hchar⟩ := hparts
    rw [List.getD_eq_getElem _ _ hlt] at hchar
    refine ⟨hlt, decide_eq_true hchar, ?_⟩
    intro j hj hsame
    have heq : alphabet[j] = alphabet[d] := (of_decide_eq_true hsame).trans hchar.symm
    have hindex := (hnodup.getElem_inj_iff).mp heq
    omega

/-- Reading accepts exactly the spelled digits of the alphabet. -/
theorem read_eq_some (hnodup : alphabet.Nodup) :
    read alphabet chars = some digits ↔
      (∀ d ∈ digits, d < alphabet.length) ∧ spell alphabet fallback digits = chars := by
  induction chars generalizing digits with
  | nil => cases digits <;> simp [read, spell]
  | cons c chars ih =>
      cases digits with
      | nil => simp [read, spell, List.mapM_cons, Option.bind_eq_some_iff]
      | cons d digits =>
          have hhead := @findIdx?_eq_some alphabet fallback hnodup c d
          have htail := @ih digits
          simp only [read, spell, List.mapM_cons, Option.bind_eq_bind, Option.bind_eq_some_iff,
            Option.pure_def, Option.some.injEq, List.cons.injEq, List.map_cons,
            List.forall_mem_cons] at hhead htail ⊢
          constructor
          · intro hparts
            obtain ⟨found, hfound, rest, hrest, hcons⟩ := hparts
            obtain ⟨rfl, rfl⟩ := hcons
            obtain ⟨hlt, hchar⟩ := hhead.mp hfound
            obtain ⟨hall, hchars⟩ := htail.mp hrest
            exact ⟨⟨hlt, hall⟩, hchar, hchars⟩
          · intro hparts
            obtain ⟨⟨hlt, hall⟩, hchar, hchars⟩ := hparts
            exact ⟨d, hhead.mpr ⟨hlt, hchar⟩, digits, htail.mpr ⟨hall, hchars⟩, rfl, rfl⟩

theorem spell_length : (spell alphabet fallback digits).length = digits.length := by
  simp [spell]

private theorem utf8_length (s : String) : (utf8 s).length = s.utf8ByteSize := by
  simp [utf8]

theorem utf8_ofList_length {chars : List Char} (h : ∀ c ∈ chars, c.utf8Size = 1) :
    (utf8 (String.ofList chars)).length = chars.length := by
  have hsize : (String.ofList chars).utf8ByteSize = chars.length := by
    induction chars with
    | nil => rfl
    | cons c chars ih =>
        obtain ⟨hhead, htail⟩ := List.forall_mem_cons.mp h
        rw [String.ofList_cons, String.utf8ByteSize_append, String.utf8ByteSize_singleton, hhead,
          ih htail, List.length_cons, Nat.add_comm]
  rw [utf8_length, hsize]

theorem mem_spell {c : Char} (h : c ∈ spell alphabet fallback digits) :
    c ∈ alphabet ∨ c = fallback := by
  obtain ⟨d, -, rfl⟩ := List.mem_map.mp h
  by_cases hlt : d < alphabet.length
  · rw [List.getD_eq_getElem _ _ hlt]
    exact Or.inl (List.getElem_mem hlt)
  · rw [List.getD_eq_default _ _ (not_lt.mp hlt)]
    exact Or.inr rfl

/-- Every digit of an ASCII alphabet takes one byte of UTF-8. -/
theorem utf8_spell_length (hascii : alphabet.all fun c => c.utf8Size == 1)
    (hfallback : fallback.utf8Size = 1) :
    (utf8 (String.ofList (spell alphabet fallback digits))).length = digits.length := by
  rw [utf8_ofList_length, spell_length]
  intro c hc
  rcases mem_spell hc with hmem | rfl
  · exact beq_iff_eq.mp (List.all_eq_true.mp hascii c hmem)
  · exact hfallback

end AgePluginPhone.Library.DigitText
