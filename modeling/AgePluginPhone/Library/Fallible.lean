import Mathlib

/-!
# Guarded computations

Sequenced checks over `Except`. The inversion lemmas take a successful run apart into the
guards it passed.
-/

namespace AgePluginPhone.Library

universe u

variable {Failure : Type*} {α β : Type u}

/-- Continue when the condition holds, otherwise stop with the failure. -/
def ensure (condition : Prop) [Decidable condition] (failure : Failure) : Except Failure Unit :=
  if condition then .ok () else .error failure

def okOr (value : Option α) (failure : Failure) : Except Failure α :=
  match value with
  | some a => .ok a
  | none => .error failure

@[simp] theorem ensure_eq_ok {condition : Prop} [Decidable condition] {failure : Failure}
    {u : Unit} : ensure condition failure = .ok u ↔ condition := by
  by_cases h : condition <;> simp [ensure, h]

@[simp] theorem ensure_eq_error {condition : Prop} [Decidable condition]
    {failure failure' : Failure} :
    ensure condition failure = .error failure' ↔ ¬ condition ∧ failure = failure' := by
  by_cases h : condition <;> simp [ensure, h]

theorem ensure_true {condition : Prop} [Decidable condition] (failure : Failure)
    (h : condition) : ensure condition failure = .ok () := by
  simp [h]

theorem ensure_false {condition : Prop} [Decidable condition] (failure : Failure)
    (h : ¬ condition) : ensure condition failure = .error failure := by
  simp [h]

@[simp] theorem okOr_eq_ok {value : Option α} {failure : Failure} {a : α} :
    okOr value failure = .ok a ↔ value = some a := by
  cases value <;> simp [okOr]

@[simp] theorem okOr_some (a : α) (failure : Failure) : okOr (some a) failure = .ok a := rfl

@[simp] theorem ok_bind (a : α) (f : α → Except Failure β) : (Except.ok a >>= f) = f a := rfl

@[simp] theorem error_bind (failure : Failure) (f : α → Except Failure β) :
    (Except.error failure >>= f) = .error failure := rfl

@[simp] theorem pure_eq_ok (a : α) : (pure a : Except Failure α) = .ok a := rfl

/-- A sequenced computation succeeds exactly when both halves do. -/
theorem bind_eq_ok {x : Except Failure α} {f : α → Except Failure β} {b : β} :
    (x >>= f) = .ok b ↔ ∃ a, x = .ok a ∧ f a = .ok b := by
  cases x <;> simp

theorem bind_eq_error {x : Except Failure α} {f : α → Except Failure β} {failure : Failure} :
    (x >>= f) = .error failure ↔ x = .error failure ∨ ∃ a, x = .ok a ∧ f a = .error failure := by
  cases x <;> simp

theorem okOr_eq_error {value : Option α} {failure failure' : Failure} :
    okOr value failure = .error failure' ↔ value = none ∧ failure = failure' := by
  cases value <;> simp [okOr]

theorem exists_of_isOk {x : Except Failure α} (h : x.isOk = true) : ∃ a, x = .ok a := by
  cases x with
  | ok a => exact ⟨a, rfl⟩
  | error failure => simp [Except.isOk, Except.toBool] at h

theorem ok_of_mapError_eq_ok {Failure' : Type*} {x : Except Failure α} {f : Failure → Failure'}
    {a : α} (h : x.mapError f = .ok a) : ∃ b, x = .ok b := by
  cases x with
  | ok b => exact ⟨b, rfl⟩
  | error failure => simp [Except.mapError] at h

theorem mapM_eq_ok {f : α → Except Failure β} {g : α → β} {items : List α}
    (h : ∀ a ∈ items, f a = .ok (g a)) : items.mapM f = .ok (items.map g) := by
  induction items with
  | nil => rfl
  | cons a items ih =>
      obtain ⟨hhead, htail⟩ := List.forall_mem_cons.mp h
      simp [List.mapM_cons, hhead, ih htail]

theorem ok_of_mapM_eq_ok {f : α → Except Failure β} {items : List α} {results : List β}
    (h : items.mapM f = .ok results) : ∀ a ∈ items, ∃ b, f a = .ok b := by
  induction items generalizing results with
  | nil => simp
  | cons a items ih =>
      simp only [List.mapM_cons, bind_eq_ok] at h
      obtain ⟨b, hb, rest, hrest, -⟩ := h
      exact List.forall_mem_cons.mpr ⟨⟨b, hb⟩, ih hrest⟩

theorem exists_of_mem_mapM {f : α → Except Failure β} {items : List α} {results : List β}
    (h : items.mapM f = .ok results) : ∀ b ∈ results, ∃ a ∈ items, f a = .ok b := by
  induction items generalizing results with
  | nil =>
      obtain rfl : [] = results := by simpa using h
      simp
  | cons a items ih =>
      simp only [List.mapM_cons, bind_eq_ok, pure_eq_ok, Except.ok.injEq] at h
      obtain ⟨b, hb, rest, hrest, rfl⟩ := h
      refine List.forall_mem_cons.mpr ⟨⟨a, List.mem_cons_self, hb⟩, ?_⟩
      intro c hc
      obtain ⟨found, hfound, hc⟩ := ih hrest c hc
      exact ⟨found, List.mem_cons_of_mem _ hfound, hc⟩

end AgePluginPhone.Library
