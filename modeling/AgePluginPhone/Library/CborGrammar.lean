import AgePluginPhone.Library.CborItem

/-!
# The grammar of canonical CBOR

The byte strings that are one definite-length item with every head in its shortest form. A reader of
heads that accepts no other form is the inverse of writing them.
-/

namespace AgePluginPhone.Library.Cbor

/-- One item nested at most so many levels deep: unsigned integers below a bound, byte strings, texts
whose content is valid, null, and arrays of at most so many elements. -/
inductive Canonical (bound : ℕ) (valid : List Byte → Prop) (limit : ℕ) : ℕ → List Byte → Prop
  | unsigned {levels n} : n < bound → Canonical bound valid limit (levels + 1) (head 0 n)
  | bytes {levels} {content : List Byte} :
      Canonical bound valid limit (levels + 1) (head 2 content.length ++ content)
  | text {levels} {content : List Byte} : valid content →
      Canonical bound valid limit (levels + 1) (head 3 content.length ++ content)
  | array {levels} {parts : List (List Byte)} : parts.length ≤ limit →
      (∀ part ∈ parts, Canonical bound valid limit levels part) →
      Canonical bound valid limit (levels + 1) (head 4 parts.length ++ parts.flatten)
  | null {levels} : Canonical bound valid limit (levels + 1) (head 7 22)

/-- The bytes after an initial byte with this additional information, in the shortest form of `n`. -/
def ArgumentOf (additional : ℕ) (argument : List Byte) (n : ℕ) : Prop :=
  (additional < 24 ∧ n = additional ∧ argument = []) ∨
    ∃ k < 4, additional = 24 + k ∧ argument.length = 2 ^ k ∧ n = bigEndianValue argument ∧
      (if k = 0 then 24 else 256 ^ 2 ^ (k - 1)) ≤ n

section Heads

variable {major n : ℕ} {initial : Byte} {argument : List Byte}

private theorem byte_eq (initial : Byte) : byte (32 * (initial.val / 32) + initial.val % 32) = initial := by
  rw [Nat.div_add_mod]
  exact Fin.ext (Nat.mod_eq_of_lt initial.isLt)

/-- A head in its shortest form, read from its first byte on. -/
theorem head_of_argument (h : ArgumentOf (initial.val % 32) argument n) :
    head (initial.val / 32) n = initial :: argument := by
  have hinitial := byte_eq initial
  rcases h with ⟨hsmall, rfl, rfl⟩ | ⟨k, hk, hadditional, hlength, rfl, hfloor⟩
  · rw [head, if_pos hsmall, hinitial]
  · have hvalue := bigEndian_bigEndianValue argument
    have hbound := bigEndianValue_lt argument
    rw [hlength] at hvalue hbound
    rw [hadditional] at hinitial
    interval_cases k
    · rw [head, if_neg (by simpa using hfloor), if_pos (by simpa using hbound), hinitial]
      exact congrArg _ hvalue
    · rw [head, if_neg (by simp at hfloor; omega), if_neg (by simpa using hfloor),
        if_pos (by simpa using hbound), hinitial]
      exact congrArg _ hvalue
    · rw [head, if_neg (by simp at hfloor; omega), if_neg (by simp at hfloor; omega),
        if_neg (by simpa using hfloor), if_pos (by simpa using hbound), hinitial]
      exact congrArg _ hvalue
    · rw [head, if_neg (by simp at hfloor; omega), if_neg (by simp at hfloor; omega),
        if_neg (by simp at hfloor; omega), if_neg (by simpa using hfloor), hinitial]
      exact congrArg _ hvalue

/-- Every head has a first byte with its major type and an argument in the shortest form. -/
theorem head_cases (hmajor : major < 8) (hn : n < 2 ^ 64) :
    ∃ initial argument, head major n = initial :: argument ∧ initial.val / 32 = major ∧
      ArgumentOf (initial.val % 32) argument n := by
  unfold head
  split_ifs with h1 h2 h3 h4
  · obtain ⟨hdiv, hmod⟩ := byte_split hmajor (show n < 32 by omega)
    exact ⟨_, _, rfl, hdiv, .inl ⟨by rwa [hmod], hmod.symm, rfl⟩⟩
  · obtain ⟨hdiv, hmod⟩ := byte_split hmajor (show 24 < 32 by decide)
    refine ⟨_, _, rfl, hdiv, .inr ⟨0, by decide, hmod, bigEndian_length 1 n, ?_, ?_⟩⟩
    · exact (bigEndianValue_bigEndian (by simpa using h2)).symm
    · simpa using h1
  · obtain ⟨hdiv, hmod⟩ := byte_split hmajor (show 25 < 32 by decide)
    refine ⟨_, _, rfl, hdiv, .inr ⟨1, by decide, hmod, bigEndian_length 2 n, ?_, ?_⟩⟩
    · exact (bigEndianValue_bigEndian (by simpa using h3)).symm
    · simpa using h2
  · obtain ⟨hdiv, hmod⟩ := byte_split hmajor (show 26 < 32 by decide)
    refine ⟨_, _, rfl, hdiv, .inr ⟨2, by decide, hmod, bigEndian_length 4 n, ?_, ?_⟩⟩
    · exact (bigEndianValue_bigEndian (by simpa using h4)).symm
    · simpa using h3
  · obtain ⟨hdiv, hmod⟩ := byte_split hmajor (show 27 < 32 by decide)
    refine ⟨_, _, rfl, hdiv, .inr ⟨3, by decide, hmod, bigEndian_length 8 n, ?_, ?_⟩⟩
    · exact (bigEndianValue_bigEndian (by simpa using hn)).symm
    · simpa using h4

theorem head_append_inj {major' n' : ℕ} {rest rest' : List Byte} (hmajor : major < 8) (hn : n < 2 ^ 64)
    (hmajor' : major' < 8) (hn' : n' < 2 ^ 64)
    (h : head major n ++ rest = head major' n' ++ rest') : major = major' ∧ n = n' ∧ rest = rest' := by
  have hread := congrArg readHead h
  rw [readHead_head hmajor hn, readHead_head hmajor' hn'] at hread
  simpa using hread

end Heads

namespace Canonical

variable {bound bound' limit levels : ℕ} {valid valid' : List Byte → Prop} {input : List Byte}

/-- A larger bound and a weaker condition on texts admit more. -/
theorem mono (hbound : bound ≤ bound') (hvalid : ∀ content, valid content → valid' content)
    (h : Canonical bound valid limit levels input) : Canonical bound' valid' limit levels input := by
  induction h with
  | unsigned hn => exact .unsigned (hn.trans_le hbound)
  | bytes => exact .bytes
  | text hcontent => exact .text (hvalid _ hcontent)
  | array hlimit _ ih => exact .array hlimit ih
  | null => exact .null

theorem ne_nil (h : Canonical bound valid limit levels input) : input ≠ [] := by
  cases h <;> simp [head_ne_nil]

section Intersection

variable {part part' rest rest' : List Byte}

private theorem inter_flatten {parts parts' : List (List Byte)} {condition : List Byte → Prop}
    (hlength : parts.length = parts'.length)
    (h : ∀ part ∈ parts, ∀ part' ∈ parts', ∀ rest rest', part ++ rest = part' ++ rest' →
      part = part' ∧ condition part)
    (happend : parts.flatten ++ rest = parts'.flatten ++ rest') :
    parts = parts' ∧ ∀ part ∈ parts, condition part := by
  induction parts generalizing parts' with
  | nil =>
      have hnil : parts' = [] := List.length_eq_zero_iff.mp hlength.symm
      simp [hnil]
  | cons part parts ih =>
      cases parts' with
      | nil => simp at hlength
      | cons part' parts' =>
          rw [List.flatten_cons, List.flatten_cons, List.append_assoc, List.append_assoc] at happend
          obtain ⟨rfl, hpart⟩ := h part List.mem_cons_self part' List.mem_cons_self _ _ happend
          obtain ⟨rfl, hparts⟩ := ih (Nat.succ.inj hlength)
            (fun first hfirst second hsecond => h first (List.mem_cons_of_mem _ hfirst) second
              (List.mem_cons_of_mem _ hsecond)) (List.append_cancel_left happend)
          exact ⟨rfl, List.forall_mem_cons.mpr ⟨hpart, hparts⟩⟩

/-- What follows the head of an item, by its major type. -/
private def BodyOf (bound : ℕ) (valid : List Byte → Prop) (limit levels n : ℕ) (body : List Byte) :
    ℕ → Prop
  | 0 => n < bound ∧ body = []
  | 2 => n = body.length
  | 3 => n = body.length ∧ valid body
  | 4 => ∃ parts : List (List Byte), n = parts.length ∧ parts.length ≤ limit ∧
      body = parts.flatten ∧ ∀ part ∈ parts, Canonical bound valid limit levels part
  | 7 => n = 22 ∧ body = []
  | _ => False

private theorem exists_head (hbound : bound ≤ 2 ^ 64) (hlimit : limit < 2 ^ 64)
    (hsize : part.length < 2 ^ 64) (h : Canonical bound valid limit (levels + 1) part) :
    ∃ major n body, part = head major n ++ body ∧ major < 8 ∧ n < 2 ^ 64 ∧
      BodyOf bound valid limit levels n body major := by
  cases h with
  | @unsigned _ n hn => exact ⟨0, n, [], by simp, by decide, hn.trans_le hbound, hn, rfl⟩
  | @bytes _ content =>
      rw [List.length_append] at hsize
      exact ⟨2, _, content, rfl, by decide, by omega, rfl⟩
  | @text _ content hvalid =>
      rw [List.length_append] at hsize
      exact ⟨3, _, content, rfl, by decide, by omega, rfl, hvalid⟩
  | @array _ parts hle hparts =>
      exact ⟨4, _, _, rfl, by decide, hle.trans_lt hlimit, parts, rfl, hle, rfl, hparts⟩
  | null => exact ⟨7, 22, [], by simp, by decide, by decide, rfl, rfl⟩

/-- No item is a proper beginning of another, and an item of two grammars is one of both. -/
theorem inter (hbound : bound ≤ bound') (hbound' : bound' ≤ 2 ^ 64) (hlimit : limit < 2 ^ 64)
    (h : Canonical bound valid limit levels part) (h' : Canonical bound' valid' limit levels part')
    (hsize : part.length < 2 ^ 64) (hsize' : part'.length < 2 ^ 64)
    (happend : part ++ rest = part' ++ rest') :
    part = part' ∧ Canonical bound (fun content => valid content ∧ valid' content) limit levels part := by
  induction levels generalizing part part' rest rest' with
  | zero => cases h
  | succ levels ih =>
      obtain ⟨major, n, body, rfl, hmajor, hn, hbody⟩ :=
        exists_head (hbound.trans hbound') hlimit hsize h
      obtain ⟨major', n', body', rfl, hmajor', hn', hbody'⟩ := exists_head hbound' hlimit hsize' h'
      rw [List.append_assoc, List.append_assoc] at happend
      obtain ⟨rfl, rfl, hbodies⟩ := head_append_inj hmajor hn hmajor' hn' happend
      unfold BodyOf at hbody hbody'
      split at hbody
      · obtain ⟨hlt, rfl⟩ := hbody
        obtain ⟨-, rfl⟩ := hbody'
        rw [List.append_nil]
        exact ⟨rfl, .unsigned hlt⟩
      · obtain ⟨rfl, -⟩ := List.append_inj hbodies (hbody.symm.trans hbody')
        rw [hbody]
        exact ⟨rfl, .bytes⟩
      · obtain ⟨rfl, -⟩ := List.append_inj hbodies (hbody.1.symm.trans hbody'.1)
        rw [hbody.1]
        exact ⟨rfl, .text ⟨hbody.2, hbody'.2⟩⟩
      · obtain ⟨parts, rfl, hle, rfl, hparts⟩ := hbody
        obtain ⟨parts', hcount, -, rfl, hparts'⟩ := hbody'
        rw [List.length_append] at hsize hsize'
        have hitems : ∀ first ∈ parts, ∀ second ∈ parts', ∀ rest rest', first ++ rest = second ++ rest' →
            first = second ∧
              Canonical bound (fun content => valid content ∧ valid' content) limit levels first := by
          intro first hfirst second hsecond rest rest' heq
          have hle := (List.sublist_flatten_of_mem hfirst).length_le
          have hle' := (List.sublist_flatten_of_mem hsecond).length_le
          exact ih (hparts first hfirst) (hparts' second hsecond) (by omega) (by omega) heq
        obtain ⟨rfl, hall⟩ := inter_flatten hcount hitems hbodies
        exact ⟨rfl, .array hle hall⟩
      · obtain ⟨rfl, rfl⟩ := hbody
        obtain ⟨-, rfl⟩ := hbody'
        rw [List.append_nil]
        exact ⟨rfl, .null⟩
      · exact absurd hbody id

end Intersection

end Canonical

end AgePluginPhone.Library.Cbor
