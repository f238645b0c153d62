import Mathlib

/-!
# Places in a list

A place in a list is a split into what comes before it, the element and what comes after.
-/

namespace AgePluginPhone.Library.Splits

variable {α : Type*} {l a b a' b' : List α} {x x' : α}

/-- Of two places in one list either they are the same or one comes before the other. -/
theorem compare (h : a ++ x :: b = a' ++ x' :: b') :
    (a = a' ∧ x = x' ∧ b = b') ∨ x ∈ a' ∨ x' ∈ a := by
  induction a generalizing a' with
  | nil =>
      cases a' with
      | nil =>
          obtain ⟨hx, hb⟩ := List.cons.inj h
          exact Or.inl ⟨rfl, hx, hb⟩
      | cons y a' =>
          obtain ⟨rfl, -⟩ := List.cons.inj h
          exact Or.inr (Or.inl List.mem_cons_self)
  | cons y a ih =>
      cases a' with
      | nil =>
          obtain ⟨rfl, -⟩ := List.cons.inj h
          exact Or.inr (Or.inr List.mem_cons_self)
      | cons z a' =>
          obtain ⟨rfl, hrest⟩ := List.cons.inj h
          rcases ih hrest with hsame | hx | hx'
          · obtain ⟨rfl, hx, hb⟩ := hsame
            exact Or.inl ⟨rfl, hx, hb⟩
          · exact Or.inr (Or.inl (List.mem_cons_of_mem _ hx))
          · exact Or.inr (Or.inr (List.mem_cons_of_mem _ hx'))

/-- The first place with a property is the only one with none before it. -/
theorem first_unique {P : α → Prop} (h : a ++ x :: b = a' ++ x' :: b') (hx : P x) (hx' : P x')
    (ha : ∀ y ∈ a, ¬ P y) (ha' : ∀ y ∈ a', ¬ P y) : a = a' ∧ x = x' ∧ b = b' := by
  rcases compare h with hsame | hmem | hmem
  · exact hsame
  · exact absurd hx (ha' x hmem)
  · exact absurd hx' (ha x' hmem)

/-- Where no other element has a property, the place of one that has it is unique. -/
theorem only_unique {P : α → Prop} (h : a ++ x :: b = a' ++ x' :: b') (hother : ∀ y ∈ a ++ b, ¬ P y)
    (hx' : P x') : a = a' ∧ x = x' ∧ b = b' := by
  rcases List.append_eq_append_iff.mp h with hlonger | hshorter
  · obtain ⟨between, rfl, hrest⟩ := hlonger
    cases between with
    | nil =>
        obtain ⟨rfl, rfl⟩ := List.cons.inj hrest
        exact ⟨(List.append_nil _).symm, rfl, rfl⟩
    | cons first between =>
        obtain ⟨-, rfl⟩ := List.cons.inj hrest
        exact absurd hx' (hother x' (by simp))
  · obtain ⟨between, rfl, hrest⟩ := hshorter
    cases between with
    | nil =>
        obtain ⟨rfl, rfl⟩ := List.cons.inj hrest
        exact ⟨List.append_nil _, rfl, rfl⟩
    | cons first between =>
        obtain ⟨rfl, -⟩ := List.cons.inj hrest
        exact absurd hx' (hother x' (by simp))

theorem exists_first {P : α → Prop} (h : ∃ x ∈ l, P x) :
    ∃ a x b, l = a ++ x :: b ∧ P x ∧ ∀ y ∈ a, ¬ P y := by
  induction l with
  | nil => simp at h
  | cons y l ih =>
      by_cases hy : P y
      · exact ⟨[], y, l, rfl, hy, by simp⟩
      · obtain ⟨x, hmem, hx⟩ := h
        rcases List.mem_cons.mp hmem with rfl | hmem
        · exact absurd hx hy
        · obtain ⟨a, x, b, rfl, hx, ha⟩ := ih ⟨x, hmem, hx⟩
          exact ⟨y :: a, x, b, rfl, hx, List.forall_mem_cons.mpr ⟨hy, ha⟩⟩

/-- Where no element with a property comes after another, at most one has it. -/
theorem length_filter_le_one {p : α → Bool}
    (h : ∀ before a after, l = before ++ a :: after → p a → ∀ later ∈ after, p later = false) :
    (l.filter p).length ≤ 1 := by
  induction l with
  | nil => simp
  | cons a l ih =>
      have hrest : (l.filter p).length ≤ 1 := by
        apply ih
        intro before b after hl
        exact h (a :: before) b after (by rw [hl]; rfl)
      cases ha : p a with
      | false => simpa [List.filter_cons, ha] using hrest
      | true =>
          have hnone : l.filter p = [] := by
            apply List.filter_eq_nil_iff.mpr
            intro b hb
            simp [h [] a l rfl ha b hb]
          simp [ha, hnone]

/-- A place in a concatenation is one in the first list or one in the second. -/
theorem append_split {m before after : List α} (h : l ++ m = before ++ x :: after) :
    (∃ between, l = before ++ x :: between) ∨
      ∃ between, before = l ++ between ∧ m = between ++ x :: after := by
  rcases List.append_eq_append_iff.mp h with hlonger | hshorter
  · obtain ⟨between, rfl, hrest⟩ := hlonger
    exact Or.inr ⟨between, rfl, hrest⟩
  · obtain ⟨between, rfl, hrest⟩ := hshorter
    cases between with
    | nil =>
        refine Or.inr ⟨[], by simp, ?_⟩
        simpa using hrest.symm
    | cons y between =>
        obtain ⟨rfl, -⟩ := List.cons.inj hrest
        exact Or.inl ⟨between, rfl⟩

/-- Erasing an element leaves what comes before it and what comes after. -/
theorem eraseIdx_split {k : ℕ} (h : l[k]? = some x) :
    ∃ before after, l = before ++ x :: after ∧ l.eraseIdx k = before ++ after := by
  induction l generalizing k with
  | nil => simp at h
  | cons y l ih =>
      cases k with
      | zero =>
          obtain rfl : y = x := by simpa using h
          exact ⟨[], l, rfl, rfl⟩
      | succ k =>
          obtain ⟨before, after, rfl, herase⟩ := ih (by simpa using h)
          exact ⟨y :: before, after, rfl, by simp [herase]⟩

/-- A search of pairs searches the second list for each element of the first. -/
theorem find?_product {β : Type*} (p : α × β → Bool) (l : List α) (m : List β) :
    (l ×ˢ m).find? p = l.findSome? fun a => (m.find? fun b => p (a, b)).map fun b => (a, b) := by
  induction l with
  | nil => rfl
  | cons a l ih =>
      rw [List.product_cons, List.find?_append, List.find?_map, ih, List.findSome?_cons]
      cases hfind : m.find? (p ∘ fun b => (a, b)) with
      | none =>
          have hnone : (m.find? fun b => p (a, b)) = none := hfind
          rw [hnone]
          rfl
      | some b =>
          have hsome : (m.find? fun b => p (a, b)) = some b := hfind
          rw [hsome]
          rfl

end AgePluginPhone.Library.Splits
