import AgePluginPhone.Ios.StrictCborCursor
import AgePluginPhone.Library.CborGrammar

/-!
# Strict CBOR on iOS as a codec

What the reader accepts: exactly the encodings of values within its limits, each of its own value.
-/

namespace AgePluginPhone.Ios

open Library Cbor StrictCbor

/-- Values of `CBORValue` nested at most so many levels deep, within the limit on arrays. -/
inductive Nested (limit : ℕ) : ℕ → Item → Prop
  | unsigned {levels n} : n < 2 ^ 64 → Nested limit (levels + 1) (.unsigned n)
  | bytes {levels content} : Nested limit (levels + 1) (.bytes content)
  | text {levels content} : Nested limit (levels + 1) (.text content)
  | array {levels items} : items.length ≤ limit → (∀ item ∈ items, Nested limit levels item) →
      Nested limit (levels + 1) (.array items)
  | null {levels} : Nested limit (levels + 1) .null

section Codec

variable {limit levels : ℕ} {item : Item} {input rest : List Byte}

private theorem encodeAll_eq_flatten (items : List Item) :
    Item.encodeAll items = (items.map Item.encode).flatten := by
  induction items with
  | nil => rfl
  | cons item items ih => rw [Item.encodeAll, ih, List.map_cons, List.flatten_cons]

private theorem encode_length_le {items : List Item} (h : item ∈ items) :
    item.encode.length ≤ (Item.encode (.array items)).length := by
  have hmem := List.mem_map_of_mem (f := Item.encode) h
  have hsub := (List.sublist_flatten_of_mem hmem).length_le
  rw [Item.encode, encodeAll_eq_flatten, List.length_append]
  exact hsub.trans (Nat.le_add_left _ _)

/-- A value whose encoding has a 64-bit length has heads for all its lengths. -/
theorem Nested.encodable (h : Nested limit levels item) (hlimit : limit < 2 ^ 64)
    (hsize : item.encode.length < 2 ^ 64) : Encodable limit levels item := by
  induction h with
  | unsigned hn => exact .unsigned hn
  | bytes =>
      rw [Item.encode, List.length_append] at hsize
      exact .bytes (by omega)
  | text =>
      rw [Item.encode, List.length_append] at hsize
      exact .text (by omega)
  | array hle _ ih =>
      refine .array hle (hle.trans_lt hlimit) fun item hitem => ih item hitem ?_
      exact (encode_length_le hitem).trans_lt hsize
  | null => exact .null

private theorem readFixed_lt {width floor n : ℕ} (hwidth : width ≤ 8)
    (h : StrictCbor.readFixed width floor input = .ok (n, rest)) : n < 2 ^ 64 := by
  simp only [StrictCbor.readFixed, bind_eq_ok, okOr_eq_ok, ensure_eq_ok, exists_const] at h
  obtain ⟨found, hfound, -, hresult⟩ := h
  obtain rfl : found = (n, rest) := Except.ok.inj hresult
  rw [takeArgument] at hfound
  split_ifs at hfound with hlength
  rw [Option.some.injEq, Prod.mk.injEq] at hfound
  rw [← hfound.1]
  have hlt := bigEndianValue_lt (input.take width)
  have hle : 256 ^ (input.take width).length ≤ 256 ^ 8 := by
    refine Nat.pow_le_pow_right (by decide) ?_
    rw [List.length_take]
    omega
  exact hlt.trans_le hle

private theorem readLength_lt {additional n : ℕ}
    (h : StrictCbor.readLength additional input = .ok (n, rest)) : n < 2 ^ 64 := by
  unfold StrictCbor.readLength at h
  split_ifs at h with hsmall
  · have hn : additional = n := congrArg Prod.fst (Except.ok.inj h)
    omega
  · exact readFixed_lt (by decide) h
  · exact readFixed_lt (by decide) h
  · exact readFixed_lt (by decide) h
  · exact readFixed_lt (by decide) h

private theorem parseMany_nested {parseItem : List Byte → Except StrictCborError (Item × List Byte)}
    {condition : Item → Prop}
    (h : ∀ input item rest, parseItem input = .ok (item, rest) → condition item) {count : ℕ}
    {items : List Item} (hmany : StrictCbor.parseMany parseItem count input = .ok (items, rest)) :
    items.length = count ∧ ∀ item ∈ items, condition item := by
  induction count generalizing input items rest with
  | zero =>
      obtain rfl : [] = items := congrArg Prod.fst (Except.ok.inj hmany)
      simp
  | succ count ih =>
      simp only [StrictCbor.parseMany, bind_eq_ok, pure_eq_ok, Except.ok.injEq, Prod.mk.injEq] at hmany
      obtain ⟨first, hfirst, others, hothers, rfl, -⟩ := hmany
      have hothers : StrictCbor.parseMany parseItem count first.2 = .ok (others.1, others.2) := hothers
      obtain ⟨hlength, hall⟩ := ih hothers
      exact ⟨by rw [List.length_cons, hlength],
        List.forall_mem_cons.mpr ⟨h _ first.1 first.2 hfirst, hall⟩⟩

/-- The parser yields values within its limits only. -/
theorem nested_of_parse (h : StrictCbor.parse limit levels input = .ok (item, rest)) :
    Nested limit levels item := by
  induction levels generalizing input item rest with
  | zero => cases h
  | succ levels ih =>
      cases input with
      | nil => cases h
      | cons initial input =>
          rw [StrictCbor.parse] at h
          dsimp only at h
          split_ifs at h with hnull
          · obtain rfl : Item.null = item := congrArg Prod.fst (Except.ok.inj h)
            exact .null
          simp only [bind_eq_ok, ensure_eq_ok, exists_const] at h
          obtain ⟨-, found, hlength, h⟩ := h
          have hlength : StrictCbor.readLength (initial.val % 32) input = .ok (found.1, found.2) :=
            hlength
          have hn := readLength_lt hlength
          generalize initial.val / 32 = major at h
          rcases major with _ | _ | _ | _ | _ | major
          · obtain rfl := congrArg Prod.fst (Except.ok.inj h)
            exact .unsigned hn
          · cases h
          · simp only [bind_eq_ok] at h
            obtain ⟨content, -, h⟩ := h
            obtain rfl := congrArg Prod.fst (Except.ok.inj h)
            exact .bytes
          · simp only [bind_eq_ok] at h
            obtain ⟨content, -, text, -, -, -, h⟩ := h
            obtain rfl := congrArg Prod.fst (Except.ok.inj h)
            exact .text
          · simp only [bind_eq_ok, ensure_eq_ok, exists_const] at h
            obtain ⟨hlimit, items, hitems, h⟩ := h
            have hitems : StrictCbor.parseMany (StrictCbor.parse limit levels) found.1 found.2 =
                .ok (items.1, items.2) := hitems
            obtain ⟨hcount, hall⟩ := parseMany_nested (fun _ _ _ hparse => ih hparse) hitems
            obtain rfl := congrArg Prod.fst (Except.ok.inj h)
            exact .array (hcount.trans_le hlimit) hall
          · cases h

/-- A decoded value is within the limits, and the data is its encoding. -/
theorem nested_of_decode {data : List Byte} {maximumBytes : ℕ}
    (h : StrictCbor.decode data maximumBytes limit = .ok item) :
    Nested limit (maximumDepth + 1) item ∧ item.encode = data ∧ data.length ≤ maximumBytes := by
  have hencode := encode_of_decode h
  simp only [StrictCbor.decode, bind_eq_ok, ensure_eq_ok, exists_const, pure_eq_ok,
    Except.ok.injEq] at h
  obtain ⟨hchecked, found, hparse, -, rfl⟩ := h
  have hparse : StrictCbor.parse limit (maximumDepth + 1) data = .ok (found.1, found.2) := hparse
  exact ⟨nested_of_parse hparse, hencode, hchecked.2.1⟩

theorem decode_encode_nested {maximumBytes : ℕ} (hbytes : maximumBytes < 2 ^ 63) (hlimit : 0 < limit)
    (hlimit' : limit < 2 ^ 63) (h : Nested limit (maximumDepth + 1) item)
    (hsize : item.encode.length ≤ maximumBytes) :
    StrictCbor.decode item.encode maximumBytes limit = .ok item := by
  have hlarge : 2 ^ 63 < 2 ^ 64 := by norm_num
  exact decode_encode_item (h.encodable (hlimit'.trans hlarge) (hsize.trans_lt (hbytes.trans hlarge)))
    hlimit hsize

/-- The reader and the writer are a canonical codec, whatever the limits. -/
theorem strictCbor_canonical {maximumBytes maximumArrayElements : ℕ} (hbytes : maximumBytes < 2 ^ 63)
    (hpositive : 1 ≤ maximumArrayElements) (helements : maximumArrayElements < 2 ^ 63) :
    (∀ data value, StrictCbor.decode data maximumBytes maximumArrayElements = .ok value →
      value.encode = data) ∧
    (∀ value, Nested maximumArrayElements (maximumDepth + 1) value →
      value.encode.length ≤ maximumBytes →
      StrictCbor.decode value.encode maximumBytes maximumArrayElements = .ok value) ∧
    (∀ data, (¬ ∃ value, Nested maximumArrayElements (maximumDepth + 1) value ∧
        value.encode.length ≤ maximumBytes ∧ value.encode = data) →
      ∃ error, StrictCbor.decode data maximumBytes maximumArrayElements = .error error) ∧
    (∀ data : List Byte, data.length + 8 < 2 ^ 63 →
      StrictCborCursor.decode data maximumBytes maximumArrayElements =
        (StrictCbor.decode data maximumBytes maximumArrayElements).mapError .thrown) := by
  refine ⟨fun data value => encode_of_decode, fun value hnested hsize => ?_, fun data hother => ?_,
    fun data hdata => StrictCborCursor.decode_eq hdata helements⟩
  · exact decode_encode_nested hbytes hpositive helements hnested hsize
  · cases hdecoded : StrictCbor.decode data maximumBytes maximumArrayElements with
    | error error => exact ⟨error, rfl⟩
    | ok value =>
        obtain ⟨hnested, hencode, hsize⟩ := nested_of_decode hdecoded
        exact absurd ⟨value, hnested, by rwa [hencode], hencode⟩ hother

/-- The limits of a replay state. -/
theorem strictCbor_canonical_sample :
    StrictCbor.decode [0x82, 0x17, 0x41, 0xff] 1048576 16384 =
      .ok (.array [.unsigned 23, .bytes [0xff]]) := by
  have hbytes : 1048576 < 2 ^ 63 := by norm_num
  have hpositive : 1 ≤ 16384 := by norm_num
  have helements : 16384 < 2 ^ 63 := by norm_num
  have hcanonical := strictCbor_canonical hbytes hpositive helements
  have hitems : ∀ item ∈ [Item.unsigned 23, .bytes [0xff]], Nested 16384 maximumDepth item :=
    List.forall_mem_cons.mpr ⟨.unsigned (by norm_num), List.forall_mem_singleton.mpr .bytes⟩
  exact hcanonical.2.1 _ (.array (by decide) hitems) (by decide)

end Codec

section Grammar

variable {limit levels : ℕ} {data : List Byte}

/-- The content of a text. -/
def IsUtf8 (content : List Byte) : Prop := ∃ s, utf8 s = content

/-- The encodings of values are the byte strings of the grammar. -/
theorem canonical_iff_nested : Canonical (2 ^ 64) IsUtf8 limit levels data ↔
    ∃ item, Nested limit levels item ∧ item.encode = data := by
  constructor
  · intro h
    induction h with
    | unsigned hn => exact ⟨.unsigned _, .unsigned hn, rfl⟩
    | bytes => exact ⟨.bytes _, .bytes, rfl⟩
    | text hvalid =>
        obtain ⟨s, rfl⟩ := hvalid
        exact ⟨.text s, .text, rfl⟩
    | @array levels parts hlimit _ ih =>
        have hnonempty : Nonempty Item := ⟨.null⟩
        choose! item hnested hencode using ih
        have hparts : parts.map (Item.encode ∘ item) = parts := by
          conv_rhs => rw [← List.map_id parts]
          exact List.map_congr_left hencode
        refine ⟨.array (parts.map item), .array (by simpa using hlimit) ?_, ?_⟩
        · simpa using hnested
        · rw [Item.encode, encodeAll_eq_flatten, List.map_map, hparts, List.length_map]
    | null => exact ⟨.null, .null, rfl⟩
  · rintro ⟨item, hnested, rfl⟩
    induction hnested with
    | unsigned hn => exact .unsigned hn
    | bytes => exact .bytes
    | text => exact .text ⟨_, rfl⟩
    | @array levels items hlimit _ ih =>
        have hparts : ∀ part ∈ items.map Item.encode, Canonical (2 ^ 64) IsUtf8 limit levels part := by
          simpa using ih
        have hlength : (items.map Item.encode).length ≤ limit := by rwa [List.length_map]
        have harray := Canonical.array hlength hparts
        rw [Item.encode, encodeAll_eq_flatten]
        rwa [List.length_map] at harray
    | null => exact .null

/-- The byte strings that the reader accepts. -/
theorem decode_isOk_iff {maximumBytes : ℕ} (hbytes : maximumBytes < 2 ^ 63) (hlimit : 0 < limit)
    (hlimit' : limit < 2 ^ 63) : (∃ value, StrictCbor.decode data maximumBytes limit = .ok value) ↔
      data.length ≤ maximumBytes ∧ Canonical (2 ^ 64) IsUtf8 limit (maximumDepth + 1) data := by
  rw [canonical_iff_nested]
  constructor
  · rintro ⟨value, hdecoded⟩
    obtain ⟨hnested, hencode, hsize⟩ := nested_of_decode hdecoded
    exact ⟨hsize, value, hnested, hencode⟩
  · rintro ⟨hsize, value, hnested, rfl⟩
    exact ⟨value, decode_encode_nested hbytes hlimit hlimit' hnested hsize⟩

end Grammar

end AgePluginPhone.Ios
