import Mathlib

/-!
# Runs of a labelled machine

A machine is a partial step function on states and events. This module packages the two
inductions every development over such a machine needs: an invariant preserved by each enabled
step holds after a whole run, and tokens that become spent when they are emitted never
conflict with a token emitted later.
-/

namespace AgePluginPhone.Library.Machine

variable {State Event Token : Type*}

/-- Fold a partial step function over a list of events. -/
def run (step : State → Event → Option State) : State → List Event → Option State
  | s, [] => some s
  | s, e :: es => (step s e).bind fun t => run step t es

/-- Tokens emitted by a run, in order. Emission stops at the first event that is not enabled. -/
def emitted (step : State → Event → Option State) (emit : State → Event → Option Token) :
    State → List Event → List Token
  | _, [] => []
  | s, e :: es =>
      match step s e with
      | none => []
      | some t => (emit s e).toList ++ emitted step emit t es

section

variable {step : State → Event → Option State} {emit : State → Event → Option Token}

@[simp] theorem run_nil (s : State) : run step s [] = some s := rfl

theorem run_cons_eq_some {s t : State} {e : Event} {es : List Event} :
    run step s (e :: es) = some t ↔ ∃ u, step s e = some u ∧ run step u es = some t := by
  simp [run, Option.bind_eq_some_iff]

theorem run_append (s : State) (es fs : List Event) :
    run step s (es ++ fs) = (run step s es).bind fun t => run step t fs := by
  induction es generalizing s with
  | nil => rfl
  | cons e es ih =>
      simp only [List.cons_append, run]
      cases step s e with
      | none => rfl
      | some t => simpa using ih t

/-- One-step preservation gives preservation along every run. -/
theorem run_preserves {Inv : State → Prop}
    (hstep : ∀ s e t, Inv s → step s e = some t → Inv t)
    {s t : State} {es : List Event} (hs : Inv s) (hrun : run step s es = some t) : Inv t := by
  induction es generalizing s with
  | nil =>
      obtain rfl : s = t := by simpa using hrun
      exact hs
  | cons e es ih =>
      obtain ⟨u, hu, hrest⟩ := run_cons_eq_some.mp hrun
      exact ih (hstep s e u hs hu) hrest

/-- Every event of the run is allowed, given the tokens emitted before it. -/
def Admissible (step : State → Event → Option State) (emit : State → Event → Option Token)
    (Allowed : List Token → State → Event → Prop) : List Token → State → List Event → Prop
  | _, _, [] => True
  | history, s, e :: es =>
      Allowed history s e ∧
        ∀ t, step s e = some t → Admissible step emit Allowed (history ++ (emit s e).toList) t es

/-- An invariant preserved by the allowed events of a run holds where the run ends. -/
theorem run_preserves_of_admissible {Allowed : List Token → State → Event → Prop}
    {Inv : State → Prop} {history : List Token} {s t : State} {es : List Event}
    (hstep : ∀ history s e t, e ∈ es → Allowed history s e → Inv s → step s e = some t → Inv t)
    (hs : Inv s) (hallowed : Admissible step emit Allowed history s es)
    (hrun : run step s es = some t) : Inv t := by
  induction es generalizing history s with
  | nil =>
      obtain rfl : s = t := by simpa using hrun
      exact hs
  | cons e es ih =>
      obtain ⟨u, hu, hrest⟩ := run_cons_eq_some.mp hrun
      refine ih (fun history s e t he => hstep history s e t (List.mem_cons_of_mem _ he)) ?_
        (hallowed.2 u hu) hrest
      exact hstep history s e u List.mem_cons_self hallowed.1 hs hu

/-- An invariant of the emitted history holds of what a whole run emits. -/
theorem run_preserves_of_history {Inv : List Token → State → Prop}
    (hinv : ∀ history s e t, Inv history s → step s e = some t →
      Inv (history ++ (emit s e).toList) t)
    {history : List Token} {s t : State} {es : List Event} (hs : Inv history s)
    (hrun : run step s es = some t) : Inv (history ++ emitted step emit s es) t := by
  induction es generalizing history s with
  | nil =>
      obtain rfl : s = t := by simpa using hrun
      simpa [emitted] using hs
  | cons e es ih =>
      obtain ⟨u, hu, hrest⟩ := run_cons_eq_some.mp hrun
      have hnext := ih (hinv history s e u hs hu) hrest
      simpa only [emitted, hu, List.append_assoc] using hnext

/-- When an invariant records the emitted history and justifies each token a step emits, every
token a run emits is justified by those before it. -/
theorem emitted_justified {Inv : List Token → State → Prop} {Justified : List Token → Token → Prop}
    (hinv : ∀ history s e t, Inv history s → step s e = some t →
      Inv (history ++ (emit s e).toList) t)
    (hjust : ∀ history s e t a, Inv history s → step s e = some t → emit s e = some a →
      Justified history a)
    {history : List Token} {s : State} {es : List Event} (hs : Inv history s)
    (hpast : ∀ before a after, history = before ++ a :: after → Justified before a) :
    ∀ before a after, history ++ emitted step emit s es = before ++ a :: after →
      Justified before a := by
  induction es generalizing history s with
  | nil => simpa [emitted] using hpast
  | cons e es ih =>
      simp only [emitted]
      cases hstep : step s e with
      | none => simpa using hpast
      | some t =>
          have hnow : ∀ before a after, history ++ (emit s e).toList = before ++ a :: after →
              Justified before a := by
            cases hemit : emit s e with
            | none => simpa using hpast
            | some b =>
                intro before a after hsplit
                rcases List.eq_nil_or_concat after with rfl | ⟨after, last, rfl⟩
                · obtain ⟨rfl, heq⟩ := List.append_inj' hsplit rfl
                  obtain rfl := List.singleton_inj.mp heq
                  exact hjust _ s e t b hs hstep hemit
                · refine hpast before a after ?_
                  have hsplit : history ++ [b] = (before ++ a :: after) ++ [last] := by
                    simpa using hsplit
                  exact (List.append_inj' hsplit rfl).1
          have hnext := ih (hinv history s e t hs hstep) hnow
          simpa [List.append_assoc] using hnext

/-- When an invariant records the emitted history and no step emits a token conflicting with
it, no two emissions of an admissible run conflict. -/
theorem emitted_pairwise_of_history {Allowed : List Token → State → Event → Prop}
    {Inv : List Token → State → Prop} {Conflict : Token → Token → Prop}
    (hinv : ∀ history s e t, Allowed history s e → Inv history s → step s e = some t →
      Inv (history ++ (emit s e).toList) t)
    (hfresh : ∀ history s e t a b, Inv history s → step s e = some t → a ∈ history →
      emit s e = some b → ¬ Conflict a b)
    {history : List Token} {s : State} {es : List Event} (hs : Inv history s)
    (hpast : history.Pairwise fun a b => ¬ Conflict a b)
    (hrun : Admissible step emit Allowed history s es) :
    (history ++ emitted step emit s es).Pairwise fun a b => ¬ Conflict a b := by
  induction es generalizing history s with
  | nil => simpa [emitted] using hpast
  | cons e es ih =>
      simp only [emitted]
      cases hstep : step s e with
      | none => simpa using hpast
      | some t =>
          have hnow : (history ++ (emit s e).toList).Pairwise fun a b => ¬ Conflict a b := by
            refine List.pairwise_append.mpr ⟨hpast, ?_, ?_⟩
            · cases emit s e <;> simp
            · intro a ha b hb
              exact hfresh history s e t a b hs hstep ha (Option.mem_toList.mp hb)
          have hnext := hinv history s e t hrun.1 hs hstep
          simpa [List.append_assoc] using ih hnext hnow (hrun.2 t hstep)

instance decidableAdmissible {Allowed : List Token → State → Event → Prop}
    [∀ history s e, Decidable (Allowed history s e)] :
    ∀ history s es, Decidable (Admissible step emit Allowed history s es)
  | _, _, [] => isTrue trivial
  | history, s, e :: es =>
      match hstep : step s e with
      | none => decidable_of_iff (Allowed history s e) (by simp [Admissible, hstep])
      | some t =>
          have : Decidable (Admissible step emit Allowed (history ++ (emit s e).toList) t es) :=
            decidableAdmissible _ t es
          decidable_of_iff (Allowed history s e ∧
            Admissible step emit Allowed (history ++ (emit s e).toList) t es)
            (by simp [Admissible, hstep])

theorem admissible_of_forall {Allowed : List Token → State → Event → Prop}
    (h : ∀ history s e, Allowed history s e) (history : List Token) (s : State)
    (es : List Event) : Admissible step emit Allowed history s es := by
  induction es generalizing history s with
  | nil => trivial
  | cons e es ih => exact ⟨h history s e, fun t _ => ih _ t⟩

/-- The one-shot rule: emission spends a token, a spent token stays spent, and no step emits
a token conflicting with a spent one. Then no two emissions of a run conflict. -/
theorem emitted_pairwise {Inv : State → Prop} {Spent : State → Token → Prop}
    {Conflict : Token → Token → Prop}
    (hinv : ∀ s e t, Inv s → step s e = some t → Inv t)
    (hspend : ∀ s e t a, Inv s → step s e = some t → emit s e = some a → Spent t a)
    (hkeep : ∀ s e t a, Inv s → step s e = some t → Spent s a → Spent t a)
    (hfresh : ∀ s e t a b, Inv s → step s e = some t → Spent s a → emit s e = some b →
      ¬ Conflict a b)
    {s : State} (es : List Event) (hs : Inv s) :
    (emitted step emit s es).Pairwise fun a b => ¬ Conflict a b := by
  let Recorded (history : List Token) (s : State) := Inv s ∧ ∀ a ∈ history, Spent s a
  have hrecord : ∀ history s e t, True → Recorded history s → step s e = some t →
      Recorded (history ++ (emit s e).toList) t := by
    rintro history s e t - ⟨hs, hhistory⟩ hstep
    refine ⟨hinv s e t hs hstep, ?_⟩
    intro a ha
    rcases List.mem_append.mp ha with ha | ha
    · exact hkeep s e t a hs hstep (hhistory a ha)
    · exact hspend s e t a hs hstep (Option.mem_toList.mp ha)
  have hclash : ∀ history s e t a b, Recorded history s → step s e = some t → a ∈ history →
      emit s e = some b → ¬ Conflict a b :=
    fun history s e t a b hs hstep ha hb => hfresh s e t a b hs.1 hstep (hs.2 a ha) hb
  have hrun : Admissible step emit (fun _ _ _ => True) [] s es :=
    admissible_of_forall (fun _ _ _ => trivial) [] s es
  exact emitted_pairwise_of_history hrecord hclash ⟨hs, by simp⟩ List.Pairwise.nil hrun

/-- Two machines related by a simulation answer every event alike, and the runs stay related. -/
theorem simulation {State' : Type*} {step' : State' → Event → Option State'}
    {emit' : State' → Event → Option Token} {R : State → State' → Prop}
    (hstep : ∀ s s' e, R s s' → emit s e = emit' s' e ∧
      ∃ t t', step s e = some t ∧ step' s' e = some t' ∧ R t t')
    {s : State} {s' : State'} (h : R s s') (es : List Event) :
    emitted step emit s es = emitted step' emit' s' es ∧
      ∃ t t', run step s es = some t ∧ run step' s' es = some t' ∧ R t t' := by
  induction es generalizing s s' with
  | nil => exact ⟨rfl, s, s', rfl, rfl, h⟩
  | cons e es ih =>
      obtain ⟨hemit, t, t', ht, ht', hrel⟩ := hstep s s' e h
      obtain ⟨hrest, u, u', hu, hu', hlast⟩ := ih hrel
      refine ⟨by simp only [emitted, ht, ht', hemit, hrest], u, u', ?_, ?_, hlast⟩
      · exact run_cons_eq_some.mpr ⟨t, ht, hu⟩
      · exact run_cons_eq_some.mpr ⟨t', ht', hu'⟩

end

end AgePluginPhone.Library.Machine
