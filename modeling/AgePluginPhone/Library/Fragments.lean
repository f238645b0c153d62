import Mathlib

/-!
# Fragments of a message

A message cut into pieces of one size, and slots that are filled with pieces one at a time.
-/

namespace AgePluginPhone.Library.Fragments

variable {α : Type*}

section Pieces

/-- How many pieces of the size cover the message. -/
def pieceCount (size length : ℕ) : ℕ := (length + size - 1) / size

def piece (size : ℕ) (message : List α) (i : ℕ) : List α := (message.drop (i * size)).take size

/-- The pieces in order; only the last may be shorter. -/
def pieces (size : ℕ) (message : List α) : List (List α) :=
  (List.range (pieceCount size message.length)).map (piece size message)

variable {size : ℕ} {message : List α}

theorem flatten_pieces_take (size : ℕ) (message : List α) (count : ℕ) :
    ((List.range count).map (piece size message)).flatten = message.take (count * size) := by
  induction count with
  | zero => simp
  | succ count ih =>
      rw [List.range_succ, List.map_append, List.flatten_append, ih, Nat.succ_mul, List.take_add]
      simp [piece]

theorem length_le_pieceCount_mul (hsize : 0 < size) (length : ℕ) :
    length ≤ pieceCount size length * size := by
  have hdiv := Nat.div_add_mod (length + size - 1) size
  have hmod := Nat.mod_lt (length + size - 1) hsize
  rw [pieceCount, Nat.mul_comm]
  omega

/-- Put together, the pieces are the message. -/
theorem flatten_pieces (hsize : 0 < size) : (pieces size message).flatten = message := by
  rw [pieces, flatten_pieces_take, List.take_of_length_le]
  exact length_le_pieceCount_mul hsize message.length

theorem pieceCount_mul_lt (hsize : 0 < size) (length : ℕ) :
    pieceCount size length * size < length + size := by
  have hle := Nat.div_mul_le_self (length + size - 1) size
  rw [pieceCount]
  omega

theorem piece_length_le (i : ℕ) : (piece size message i).length ≤ size := by
  simp [piece]

/-- Every piece but the last has the full size. -/
theorem piece_length (hsize : 0 < size) {i : ℕ} (h : i + 1 < pieceCount size message.length) :
    (piece size message i).length = size := by
  have hcount := pieceCount_mul_lt hsize message.length
  have hnext : (i + 2) * size ≤ pieceCount size message.length * size :=
    Nat.mul_le_mul_right _ h
  rw [piece, List.length_take, List.length_drop]
  have hexpand : (i + 2) * size = i * size + size + size := by ring
  omega

theorem piece_ne_nil (hsize : 0 < size) {i : ℕ} (h : i < pieceCount size message.length) :
    piece size message i ≠ [] := by
  have hcount := pieceCount_mul_lt hsize message.length
  have hnext : (i + 1) * size ≤ pieceCount size message.length * size :=
    Nat.mul_le_mul_right _ h
  have hexpand : (i + 1) * size = i * size + size := by ring
  have hpositive : 0 < (piece size message i).length := by
    rw [piece, List.length_take, List.length_drop]
    omega
  exact List.ne_nil_of_length_pos hpositive

theorem piece_length_le_message (i : ℕ) : (piece size message i).length ≤ message.length := by
  rw [piece, List.length_take, List.length_drop]
  omega

theorem pieceCount_pos (hsize : 0 < size) (hmessage : message ≠ []) :
    0 < pieceCount size message.length := by
  have hlength := List.length_pos_of_ne_nil hmessage
  exact Nat.div_pos (by omega) hsize

end Pieces

section Slots

variable {slots : List (Option (List α))} {i : ℕ} {chunk : List α}

/-- The length of what the slots hold. -/
def weight (slots : List (Option (List α))) : ℕ :=
  (slots.map fun slot => (slot.getD []).length).sum

theorem weight_replicate (count : ℕ) : weight (List.replicate count (none : Option (List α))) = 0 := by
  simp [weight]

theorem weight_set (h : slots[i]? = some none) :
    weight (slots.set i (some chunk)) = weight slots + chunk.length := by
  induction slots generalizing i with
  | nil => simp at h
  | cons slot slots ih =>
      cases i with
      | zero =>
          obtain rfl : slot = none := by simpa using h
          simp [weight, Nat.add_comm]
      | succ i =>
          have hrest := ih (by simpa using h)
          simp only [weight, List.set_cons_succ, List.map_cons, List.sum_cons] at hrest ⊢
          omega

/-- Storing a chunk where it is held changes nothing. -/
theorem set_held (h : slots[i]? = some (some chunk)) : slots.set i (some chunk) = slots := by
  obtain ⟨hlt, hheld⟩ := List.getElem?_eq_some_iff.mp h
  rw [← hheld, List.set_getElem_self]

theorem countP_set (h : slots[i]? = some none) :
    (slots.set i (some chunk)).countP Option.isSome = slots.countP Option.isSome + 1 := by
  induction slots generalizing i with
  | nil => simp at h
  | cons slot slots ih =>
      cases i with
      | zero =>
          obtain rfl : slot = none := by simpa using h
          simp
      | succ i =>
          have hrest := ih (by simpa using h)
          simp only [List.set_cons_succ, List.countP_cons, hrest]
          omega

/-- What full slots hold, in order. -/
theorem mapM_id_eq_some {chunks : List (List α)} :
    slots.mapM id = some chunks ↔ slots = chunks.map some := by
  induction slots generalizing chunks with
  | nil => cases chunks <;> simp
  | cons slot slots ih =>
      cases chunks with
      | nil => simp [List.mapM_cons, Option.bind_eq_some_iff]
      | cons chunk chunks =>
          simp only [List.mapM_cons, Option.bind_eq_bind, Option.bind_eq_some_iff, id_eq,
            Option.pure_def, Option.some.injEq, List.map_cons, List.cons.injEq]
          constructor
          · intro hparts
            obtain ⟨first, hfirst, rest, hrest, hchunk, hchunks⟩ := hparts
            subst hchunk hchunks
            exact ⟨hfirst, ih.mp hrest⟩
          · intro hparts
            exact ⟨chunk, hparts.1, chunks, ih.mpr hparts.2, rfl, rfl⟩

theorem countP_isSome_eq_length : slots.countP Option.isSome = slots.length ↔
    ∃ chunks : List (List α), slots = chunks.map some := by
  rw [List.countP_eq_length]
  constructor
  · intro hall
    refine ⟨slots.map fun slot => slot.getD [], ?_⟩
    rw [List.map_map]
    conv_lhs => rw [← List.map_id slots]
    apply List.map_congr_left
    intro slot hslot
    obtain ⟨chunk, hchunk⟩ := Option.isSome_iff_exists.mp (hall slot hslot)
    simp [hchunk]
  · intro hchunks
    obtain ⟨chunks, rfl⟩ := hchunks
    simp

theorem weight_map_some (chunks : List (List α)) :
    weight (chunks.map some) = chunks.flatten.length := by
  simp [weight, List.length_flatten, Function.comp_def]

/-- Slots that hold nothing but chunks of a message weigh no more than the message. -/
theorem weight_le {chunks : List (List α)}
    (h : ∀ (i : ℕ) chunk, slots[i]? = some (some chunk) → chunks[i]? = some chunk)
    (hlength : slots.length = chunks.length) : weight slots ≤ chunks.flatten.length := by
  induction slots generalizing chunks with
  | nil => simp [weight]
  | cons slot slots ih =>
      cases chunks with
      | nil => simp at hlength
      | cons first chunks =>
          have hrest := ih (fun i chunk hslot => by simpa using h (i + 1) chunk (by simpa using hslot))
            (by simpa using hlength)
          have hfirst : (slot.getD []).length ≤ first.length := by
            cases slot with
            | none => simp
            | some held =>
                have heq := h 0 held (by simp)
                simp only [List.getElem?_cons_zero, Option.some.injEq] at heq
                simp [heq]
          simp only [weight, List.map_cons, List.sum_cons, List.flatten_cons,
            List.length_append] at hrest ⊢
          omega

end Slots

end AgePluginPhone.Library.Fragments
