import AgePluginPhone.Library.CborGrammar

/-!
# CBOR items within limits

Trees whose encodings the grammar of canonical CBOR contains, and that a reader bounded in depth
gives back.
-/

namespace AgePluginPhone.Library.Cbor

/-- Trees of unsigned integers below a bound, byte strings, texts, null and arrays of at most so
many elements, nested at most so many levels deep. -/
inductive Plain (bound limit : ℕ) : ℕ → Item → Prop
  | unsigned {levels n} : n < bound → Plain bound limit (levels + 1) (.unsigned n)
  | bytes {levels content} : Plain bound limit (levels + 1) (.bytes content)
  | text {levels content} : Plain bound limit (levels + 1) (.text content)
  | array {levels items} : items.length ≤ limit → (∀ item ∈ items, Plain bound limit levels item) →
      Plain bound limit (levels + 1) (.array items)
  | null {levels} : Plain bound limit (levels + 1) .null

namespace Plain

variable {bound limit levels more : ℕ} {item : Item} {items : List Item}

theorem encodeAll_flatten (items : List Item) :
    Item.encodeAll items = (items.map Item.encode).flatten := by
  induction items with
  | nil => rfl
  | cons item items ih => rw [Item.encodeAll, ih, List.map_cons, List.flatten_cons]

private theorem element_length_le (h : item ∈ items) :
    item.encode.length ≤ (Item.array items).encode.length := by
  have hmem := List.mem_map_of_mem (f := Item.encode) h
  have hsub := (List.sublist_flatten_of_mem hmem).length_le
  rw [Item.encode, encodeAll_flatten, List.length_append]
  exact hsub.trans (Nat.le_add_left _ _)

theorem mono (h : Plain bound limit levels item) (hle : levels ≤ more) :
    Plain bound limit more item := by
  induction h generalizing more with
  | @array levels items hlimit _ ih =>
      obtain ⟨rest, rfl⟩ := Nat.exists_eq_add_of_le' hle
      refine .array hlimit fun item hitem => ih item hitem ?_
      exact Nat.le_add_left _ _
  | @unsigned levels n hn =>
      obtain ⟨rest, rfl⟩ := Nat.exists_eq_add_of_le' hle
      exact .unsigned hn
  | bytes =>
      obtain ⟨rest, rfl⟩ := Nat.exists_eq_add_of_le' hle
      exact .bytes
  | text =>
      obtain ⟨rest, rfl⟩ := Nat.exists_eq_add_of_le' hle
      exact .text
  | null =>
      obtain ⟨rest, rfl⟩ := Nat.exists_eq_add_of_le' hle
      exact .null

theorem canonical (h : Plain bound limit levels item) :
    Canonical bound (fun _ => True) limit levels item.encode := by
  induction h with
  | unsigned hn => exact .unsigned hn
  | bytes => exact .bytes
  | text => exact .text True.intro
  | @array levels items hlimit _ ih =>
      have hparts : ∀ part ∈ items.map Item.encode,
          Canonical bound (fun _ => True) limit levels part := by
        simpa using ih
      have harray := Canonical.array (by simpa using hlimit) hparts
      rw [Item.encode, encodeAll_flatten]
      rwa [List.length_map] at harray
  | null => exact .null

/-- A tree whose encoding has a 64-bit length has heads for all its parts. -/
theorem bounded (h : Plain bound limit levels item) (hbound : bound ≤ 2 ^ 64)
    (hlimit : limit < 2 ^ 64) (hsize : item.encode.length < 2 ^ 64) : item.Bounded levels := by
  induction h with
  | unsigned hn => exact .unsigned (hn.trans_le hbound)
  | bytes =>
      rw [Item.encode, List.length_append] at hsize
      exact .bytes (by omega)
  | text =>
      rw [Item.encode, List.length_append] at hsize
      exact .text (by omega)
  | array hle _ ih =>
      refine .array (hle.trans_lt hlimit) fun item hitem => ih item hitem ?_
      exact (element_length_le hitem).trans_lt hsize
  | null => exact .null

end Plain

end AgePluginPhone.Library.Cbor
