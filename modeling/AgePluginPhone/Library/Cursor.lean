import AgePluginPhone.Library.Fallible

/-!
# Cursors

An offset into a list of symbols beside what is left of them. A reader that moves an offset agrees
with one that consumes the list when both end alike and the offset stays where the list begins.
-/

namespace AgePluginPhone.Library

variable {σ ε ε' : Type} {α β : Type}

/-- The offset is in the data, and this is what follows it. -/
def At (data : List σ) (offset : ℤ) (rest : List σ) : Prop :=
  ∃ front, data = front ++ rest ∧ offset = front.length

namespace At

variable {data rest part : List σ} {offset : ℤ} {s : σ}

theorem zero (data : List σ) : At data 0 data := ⟨[], rfl, rfl⟩

theorem nonneg (h : At data offset rest) : 0 ≤ offset := by
  obtain ⟨front, -, rfl⟩ := h
  exact Int.natCast_nonneg _

theorem add_length (h : At data offset rest) : offset + rest.length = data.length := by
  obtain ⟨front, rfl, rfl⟩ := h
  simp

theorem append (h : At data offset (part ++ rest)) : At data (offset + part.length) rest := by
  obtain ⟨front, rfl, rfl⟩ := h
  exact ⟨front ++ part, by simp, by simp⟩

theorem cons (h : At data offset (s :: rest)) : At data (offset + 1) rest :=
  @append σ data rest [s] offset h

theorem getElem? (h : At data offset (s :: rest)) : data[offset.toNat]? = some s := by
  obtain ⟨front, rfl, rfl⟩ := h
  simp

theorem drop (h : At data offset rest) : data.drop offset.toNat = rest := by
  obtain ⟨front, rfl, rfl⟩ := h
  simp

theorem take (h : At data offset rest) (n : ℕ) (hn : n ≤ rest.length) :
    At data (offset + n) (rest.drop n) := by
  have hsplit : At data offset (rest.take n ++ rest.drop n) := by rwa [List.take_append_drop]
  have hmoved := hsplit.append
  rwa [List.length_take, Nat.min_eq_left hn] at hmoved

/-- At the end of the data nothing is left. -/
theorem eq_nil_iff (h : At data offset rest) : offset = data.length ↔ rest = [] := by
  have hlength := h.add_length
  rw [← List.length_eq_zero_iff]
  omega

end At

/-- Both readers fail, the first with the second's failure, or both return the same value and the
first is left at what the second leaves. -/
def Agrees (data : List σ) (lift : ε' → ε) (x : Except ε (α × ℤ)) (y : Except ε' (α × List σ)) :
    Prop :=
  (∃ failure, x = .error (lift failure) ∧ y = .error failure) ∨
    ∃ a offset rest, x = .ok (a, offset) ∧ y = .ok (a, rest) ∧ At data offset rest

namespace Agrees

variable {data : List σ} {lift : ε' → ε} {x : Except ε (α × ℤ)} {y : Except ε' (α × List σ)}
  {f : α × ℤ → Except ε (β × ℤ)} {g : α × List σ → Except ε' (β × List σ)}

theorem ok {a : α} {offset : ℤ} {rest : List σ} (h : At data offset rest) :
    Agrees data lift (.ok (a, offset)) (.ok (a, rest)) :=
  .inr ⟨a, offset, rest, rfl, rfl, h⟩

theorem error (failure : ε') :
    Agrees data lift (.error (lift failure) : Except ε (α × ℤ)) (.error failure) :=
  .inl ⟨failure, rfl, rfl⟩

theorem bind (hfirst : Agrees data lift x y)
    (hnext : ∀ a offset rest, At data offset rest →
      Agrees data lift (f (a, offset)) (g (a, rest))) :
    Agrees data lift (x >>= f) (y >>= g) := by
  rcases hfirst with ⟨failure, rfl, rfl⟩ | ⟨a, offset, rest, rfl, rfl, hat⟩
  · exact error failure
  · exact hnext a offset rest hat

/-- The same check on both sides. -/
theorem ensure {condition : Prop} [Decidable condition] (failure : ε')
    {x : Except ε (α × ℤ)} {y : Except ε' (α × List σ)}
    (hnext : condition → Agrees data lift x y) :
    Agrees data lift (Library.ensure condition (lift failure) >>= fun _ => x)
      (Library.ensure condition failure >>= fun _ => y) := by
  by_cases hcondition : condition
  · rw [ensure_true _ hcondition, ensure_true _ hcondition]
    exact hnext hcondition
  · rw [ensure_false _ hcondition, ensure_false _ hcondition]
    exact error failure

/-- A reader that agrees with another that fails in its own ways only. -/
theorem mapError (h : Agrees data lift x y) :
    x.map Prod.fst = (y.map Prod.fst).mapError lift := by
  rcases h with ⟨failure, rfl, rfl⟩ | ⟨a, offset, rest, rfl, rfl, -⟩
  · rfl
  · rfl

end Agrees

end AgePluginPhone.Library
