import AgePluginPhone.Library.Fallible

/-!
# Readers over the remaining input

Sequenced reads that may fail. A reader reads a value from its encoding when it returns exactly
that value and leaves what follows; this composes along a sequence of reads.
-/

namespace AgePluginPhone.Library

variable {σ ε : Type} {α β : Type}

/-- The reader returns the value from these symbols whatever follows them. -/
def Reads (reader : StateT (List σ) (Except ε) α) (symbols : List σ) (a : α) : Prop :=
  ∀ rest, reader (symbols ++ rest) = .ok (a, rest)

/-- Every value the reader returns satisfies the condition. -/
def Returns (reader : StateT (List σ) (Except ε) α) (condition : α → Prop) : Prop :=
  ∀ input a rest, reader input = .ok (a, rest) → condition a

variable {reader : StateT (List σ) (Except ε) α} {next : α → StateT (List σ) (Except ε) β}

theorem Reads.bind {front back : List σ} {a : α} {b : β} (hfront : Reads reader front a)
    (hback : Reads (next a) back b) : Reads (reader >>= next) (front ++ back) b := by
  intro rest
  have hfirst := hfront (back ++ rest)
  rw [← List.append_assoc] at hfirst
  change (reader (front ++ back ++ rest) >>= fun r => next r.1 r.2) = _
  rw [hfirst]
  exact hback rest

theorem Reads.pure (a : α) : Reads (Pure.pure a : StateT (List σ) (Except ε) α) [] a :=
  fun _ => rfl

/-- A read of nothing before a sequence. -/
theorem Reads.bind_nil {back : List σ} {a : α} {b : β} (hfront : Reads reader [] a)
    (hback : Reads (next a) back b) : Reads (reader >>= next) back b :=
  Reads.bind hfront hback

/-- A sequence whose last part reads nothing. -/
theorem Reads.bind_end {front : List σ} {a : α} {b : β} (hfront : Reads reader front a)
    (hback : Reads (next a) [] b) : Reads (reader >>= next) front b := by
  have hbind := Reads.bind hfront hback
  rwa [List.append_nil] at hbind

theorem Reads.run {symbols : List σ} {a : α} (h : Reads reader symbols a) :
    reader symbols = .ok (a, []) := by
  have hrun := h []
  rwa [List.append_nil] at hrun

theorem Returns.bind {condition : α → Prop} {result : β → Prop} (hfront : Returns reader condition)
    (hback : ∀ a, condition a → Returns (next a) result) : Returns (reader >>= next) result := by
  intro input b rest h
  change (reader input >>= fun r => next r.1 r.2) = _ at h
  cases hrun : reader input with
  | error failure =>
      rw [hrun] at h
      exact absurd h (by intro hbad; cases hbad)
  | ok found =>
      rw [hrun] at h
      exact hback found.1 (hfront input found.1 found.2 hrun) found.2 b rest h

theorem Returns.pure {condition : α → Prop} {a : α} (h : condition a) :
    Returns (Pure.pure a : StateT (List σ) (Except ε) α) condition := by
  intro input b rest hrun
  cases hrun
  exact h

/-- Nothing is known of the value read. -/
theorem Returns.trivial (reader : StateT (List σ) (Except ε) α) : Returns reader fun _ => True :=
  fun _ _ _ _ => True.intro

section Fields

/-- One field, read by a function of the remaining input. -/
def readField (failure : ε) (read : List σ → Option (α × List σ)) :
    StateT (List σ) (Except ε) α :=
  fun input => okOr (read input) failure

/-- A check between two fields. -/
def readCheck (condition : Prop) [Decidable condition] (failure : ε) :
    StateT (List σ) (Except ε) Unit :=
  fun input => (ensure condition failure).map fun _ => ((), input)

theorem readField_reads {read : List σ → Option (α × List σ)} {symbols : List σ} {a : α}
    (failure : ε) (h : ∀ rest, read (symbols ++ rest) = some (a, rest)) :
    Reads (readField failure read) symbols a := by
  intro rest
  rw [readField, h rest]
  rfl

theorem readCheck_reads {condition : Prop} [Decidable condition] (failure : ε) (h : condition) :
    Reads (readCheck condition failure : StateT (List σ) (Except ε) Unit) [] () := by
  intro rest
  rw [readCheck, ensure_true failure h]
  rfl

end Fields

section Failures

variable {condition : ε → Prop}

/-- Every failure of the reader satisfies the condition. -/
def FailsOnly (reader : StateT (List σ) (Except ε) α) (condition : ε → Prop) : Prop :=
  ∀ input failure, reader input = .error failure → condition failure

theorem FailsOnly.bind (hfront : FailsOnly reader condition)
    (hback : ∀ a, FailsOnly (next a) condition) : FailsOnly (reader >>= next) condition := by
  intro input failure h
  change (reader input >>= fun r => next r.1 r.2) = _ at h
  rcases bind_eq_error.mp h with hfirst | ⟨found, -, hrest⟩
  · exact hfront input failure hfirst
  · exact hback found.1 found.2 failure hrest

theorem FailsOnly.pure (a : α) :
    FailsOnly (Pure.pure a : StateT (List σ) (Except ε) α) condition := by
  intro input failure h
  cases h

theorem readField_failsOnly {failure : ε} (read : List σ → Option (α × List σ))
    (h : condition failure) : FailsOnly (readField failure read) condition := by
  intro input failure' hread
  obtain ⟨-, rfl⟩ := okOr_eq_error.mp hread
  exact h

theorem readCheck_failsOnly {failure : ε} (check : Prop) [Decidable check] (h : condition failure) :
    FailsOnly (readCheck check failure : StateT (List σ) (Except ε) Unit) condition := by
  intro input failure' hread
  by_cases hcheck : check
  · rw [readCheck, ensure_true failure hcheck] at hread
    cases hread
  · rw [readCheck, ensure_false failure hcheck] at hread
    cases hread
    exact h

end Failures

end AgePluginPhone.Library
