import AgePluginPhone.Library.Storage

/-!
# Interrupted erasure

A store of cells, each empty or not. A computation that erases a set of cells may be stopped or fail
at any step; until then it has only emptied cells of the set. The cell a sequence erases last outlives
all the others, however often the sequence is tried.
-/

namespace AgePluginPhone.Library.Erasure

open StorageM

variable {Store Cell Value Failure : Type} (get : Store → Cell → Option Value)

/-- `t` is `s` with some of the cells of `S` emptied. -/
def Emptied (S : Set Cell) (s t : Store) : Prop :=
  ∀ c, get t c = get s c ∨ c ∈ S ∧ get t c = none

/-- All the cells of `S` are empty. -/
def Gone (S : Set Cell) (s : Store) : Prop := ∀ c ∈ S, get s c = none

/-- However the computation ends it has only emptied cells of `S`, all of them when it returns. -/
def Erases (S : Set Cell) (x : StorageM Store Failure Unit) : Prop :=
  ∀ s, Triple (fun t => t = s) x (fun _ t => Emptied get S s t ∧ Gone get S t)
    fun _ t => Emptied get S s t

/-- The cell `j` is as it was, or all of `S` is gone. -/
def Outlives (j : Cell) (S : Set Cell) (s t : Store) : Prop :=
  get t j = get s j ∨ Gone get S t

variable {get} {S T : Set Cell} {s t u : Store} {x y : StorageM Store Failure Unit} {j c : Cell}

namespace Emptied

theorem refl (S : Set Cell) (s : Store) : Emptied get S s s := fun _ => Or.inl rfl

theorem mono (h : Emptied get S s t) (hST : S ⊆ T) : Emptied get T s t := by
  intro c
  rcases h c with hsame | hgone
  · exact Or.inl hsame
  · exact Or.inr ⟨hST hgone.1, hgone.2⟩

theorem trans (hst : Emptied get S s t) (htu : Emptied get S t u) : Emptied get S s u := by
  intro c
  rcases htu c with hsame | hgone
  · rw [hsame]
    exact hst c
  · exact Or.inr hgone

theorem union (hst : Emptied get S s t) (htu : Emptied get T t u) : Emptied get (S ∪ T) s u :=
  (hst.mono Set.subset_union_left).trans (htu.mono Set.subset_union_right)

theorem get_eq (h : Emptied get S s t) (hc : c ∉ S) : get t c = get s c := by
  rcases h c with hsame | hgone
  · exact hsame
  · exact absurd hgone.1 hc

theorem get_none (h : Emptied get S s t) (hc : get s c = none) : get t c = none := by
  rcases h c with hsame | hgone
  · rw [hsame, hc]
  · exact hgone.2

/-- What is gone stays gone. -/
theorem gone (h : Emptied get S s t) (hT : Gone get T s) : Gone get T t :=
  fun c hc => h.get_none (hT c hc)

theorem get_some (h : Emptied get S s t) {v : Value} (hc : get t c = some v) : get s c = some v := by
  rcases h c with hsame | hgone
  · rw [← hsame, hc]
  · rw [hgone.2] at hc
    cases hc

end Emptied

theorem Gone.union (hS : Gone get S s) (hT : Gone get T s) : Gone get (S ∪ T) s := by
  intro c hc
  rcases hc with hc | hc
  · exact hS c hc
  · exact hT c hc

theorem Gone.mono (h : Gone get T s) (hST : S ⊆ T) : Gone get S s := fun c hc => h c (hST hc)

namespace Erases

theorem pure' : Erases get (∅ : Set Cell) (pure () : StorageM Store Failure Unit) := by
  intro s
  apply Triple.pure'
  intro t ht
  subst ht
  exact ⟨Emptied.refl _ _, fun c hc => absurd hc (Set.notMem_empty c)⟩

theorem effect {f : Store → Option Store} {reason : Failure}
    (h : ∀ s t, f s = some t → Emptied get S s t ∧ Gone get S t) :
    Erases get S (StorageM.effect f reason) := by
  intro s
  refine Triple.effect (fun t u ht hf => ?_) fun t ht _ => ?_
  · subst ht
    exact ⟨h t u hf, fun _ => (h t u hf).1⟩
  · subst ht
    exact Emptied.refl S t

/-- A step that changes no cell. -/
theorem settle {f : Store → Option Store} {reason : Failure} (h : ∀ s t, f s = some t → t = s) :
    Erases get (∅ : Set Cell) (StorageM.effect f reason) := by
  apply Erases.effect
  intro s t hf
  rw [h s t hf]
  exact ⟨Emptied.refl _ _, fun c hc => absurd hc (Set.notMem_empty c)⟩

theorem bind (hx : Erases get S x) (hy : Erases get T y) : Erases get (S ∪ T) (x >>= fun _ => y) := by
  intro s
  apply Triple.bind ((hx s).weaken (fun _ h => h) (fun _ _ h => h)
    fun _ t h => h.mono Set.subset_union_left)
  intro _ t faults ht
  refine (hy t t faults rfl).weaken ?_ ?_
  · intro _ u hu
    exact ⟨ht.1.union hu.1, (hu.1.gone ht.2).union hu.2⟩
  · intro _ u hu
    exact ht.1.union hu

theorem check_bind {α : Type} {result : Except Failure α} {k : α → StorageM Store Failure Unit}
    (h : ∀ a, result = .ok a → Erases get S (k a)) : Erases get S (StorageM.check result >>= k) := by
  intro s
  refine Triple.check_bind (fun a ha => h a ha s) ?_
  intro _ t _ ht
  subst ht
  exact Emptied.refl S t

theorem congr (h : Erases get S x) (hST : S = T) : Erases get T x := hST ▸ h

theorem forM {α : Type} {items : List α} {body : α → StorageM Store Failure PUnit}
    {cells : α → Set Cell} (h : ∀ a ∈ items, Erases get (cells a) (body a)) :
    Erases get {c | ∃ a ∈ items, c ∈ cells a} (items.forM body) := by
  induction items with
  | nil => exact pure'.congr (by simp)
  | cons a items ih =>
      obtain ⟨hhead, htail⟩ := List.forall_mem_cons.mp h
      refine (hhead.bind (ih htail)).congr ?_
      ext c
      simp

/-- A computation that is chosen by the store it starts in. Cells of the wider set that it does not
name were empty there. -/
theorem load_bind {k : Store → StorageM Store Failure Unit} {cells : Store → Set Cell}
    (hk : ∀ s, Erases get (cells s) (k s)) (hsub : ∀ s, cells s ⊆ S)
    (hrest : ∀ s, ∀ c ∈ S, c ∉ cells s → get s c = none) :
    Erases get S (StorageM.load >>= k) := by
  intro s
  apply Triple.load_bind
  intro loaded t faults ht
  obtain rfl : t = s := ht.1
  obtain rfl : t = loaded := ht.2
  refine (hk t t t faults rfl).weaken ?_ ?_
  · intro _ u hu
    refine ⟨hu.1.mono (hsub t), fun c hc => ?_⟩
    by_cases hcell : c ∈ cells t
    · exact hu.2 c hcell
    · exact hu.1.get_none (hrest t c hc hcell)
  · intro _ u hu
    exact hu.mono (hsub t)

theorem ends (h : Erases get S x) (s : Store) (faults : List Fault) :
    Emptied get S s (x s faults).store :=
  ((h s s faults rfl).weaken (fun _ _ ht => ht.1) fun _ _ ht => ht).store

theorem gone_of_ok (h : Erases get S x) {faults : List Fault} {u : Unit}
    (hok : (x s faults).value = .ok u) : Gone get S (x s faults).store :=
  ((h s s faults rfl).of_ok hok).2

end Erases

variable (get) in
/-- The computation erases `S` and then `j`. -/
structure ErasesLast (j : Cell) (S : Set Cell) (x : StorageM Store Failure Unit) : Prop where
  erases : Erases get (insert j S) x
  last : ∀ s, Triple (fun t => t = s) x (fun _ t => Outlives get j S s t) fun _ t => Outlives get j S s t

namespace ErasesLast

theorem single (h : Erases get {j} x) : ErasesLast get j ∅ x := by
  refine ⟨h.congr (by simp), fun s => ?_⟩
  have htrivial : ∀ t, Outlives get j ∅ s t := fun t => Or.inr fun c hc => absurd hc (Set.notMem_empty c)
  exact (h s).weaken (fun _ h => h) (fun _ t _ => htrivial t) fun _ t _ => htrivial t

theorem congr (h : ErasesLast get j S x) (hST : S = T) : ErasesLast get j T x := hST ▸ h

/-- The cell that is erased last goes only after all the others have. -/
theorem bind (hx : Erases get S x) (hj : j ∉ S) (hy : ErasesLast get j T y) :
    ErasesLast get j (S ∪ T) (x >>= fun _ => y) := by
  refine ⟨(hx.bind hy.erases).congr (by simp), fun s => ?_⟩
  refine Triple.seq (fun _ t => Emptied get S s t ∧ Gone get S t) ?_ ?_
  · refine (hx s).weaken (fun _ h => h) (fun _ _ h => h) ?_
    intro _ t ht
    exact Or.inl (ht.get_eq hj)
  · intro _ t faults ht
    have hlater {u : Store} (hemptied : Emptied get (insert j T) t u) (hlast : Outlives get j T t u) :
        Outlives get j (S ∪ T) s u := by
      rcases hlast with hsame | hgone
      · exact Or.inl (hsame.trans (ht.1.get_eq hj))
      · exact Or.inr ((hemptied.gone ht.2).union hgone)
    have hemptied := (hy.erases.ends t faults)
    have hlast := (hy.last t t faults rfl).store
    have hend := hlater hemptied hlast
    unfold Outcome.Ends
    split
    · exact hend
    · exact hend

theorem check_bind {α : Type} {result : Except Failure α} {k : α → StorageM Store Failure Unit}
    (h : ∀ a, result = .ok a → ErasesLast get j S (k a)) :
    ErasesLast get j S (StorageM.check result >>= k) := by
  refine ⟨Erases.check_bind fun a ha => (h a ha).erases, fun s => ?_⟩
  refine Triple.check_bind (fun a ha => (h a ha).last s) ?_
  intro _ t _ ht
  subst ht
  exact Or.inl rfl

end ErasesLast

/-- Several tries of one computation, under one schedule of faults each. -/
def tries (x : StorageM Store Failure Unit) (s : Store) (schedules : List (List Fault)) : Store :=
  schedules.foldl (fun t faults => (x t faults).store) s

@[simp] theorem tries_nil (s : Store) : tries x s [] = s := rfl

@[simp] theorem tries_cons (s : Store) (faults : List Fault) (schedules : List (List Fault)) :
    tries x s (faults :: schedules) = tries x (x s faults).store schedules := rfl

theorem Erases.tries (h : Erases get S x) (s : Store) (schedules : List (List Fault)) :
    Emptied get S s (tries x s schedules) := by
  induction schedules generalizing s with
  | nil => exact Emptied.refl S s
  | cons faults schedules ih => exact (h.ends s faults).trans (ih _)

/-- Whatever the faults of any number of tries, the last cell outlives the others. -/
theorem ErasesLast.tries (h : ErasesLast get j S x) (s : Store) (schedules : List (List Fault)) :
    Outlives get j S s (Erasure.tries x s schedules) := by
  induction schedules generalizing s with
  | nil => exact Or.inl rfl
  | cons faults schedules ih =>
      rcases (h.last s s faults rfl).store with hsame | hgone
      · rcases ih (x s faults).store with hlater | hlater
        · exact Or.inl (hlater.trans hsame)
        · exact Or.inr hlater
      · exact Or.inr ((h.erases.tries _ schedules).gone hgone)

end AgePluginPhone.Library.Erasure
