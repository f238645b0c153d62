import Mathlib

/-!
# Storage computations under faults

A sequential program over a durable store. Each storage step consumes one entry of a fault
schedule: it may succeed, report a failure with or without having taken effect, or be the last
step before the process stops. An exhausted schedule injects no further fault. Triples give
what holds after normal return, after a failure and after a stop.
-/

namespace AgePluginPhone.Library

inductive Fault
  | none
  | failed (applied : Bool)
  | stopped (applied : Bool)
  deriving DecidableEq

inductive Stop (Failure : Type)
  | failure (reason : Failure)
  | crash
  deriving DecidableEq

structure Outcome (Store Failure α : Type) where
  value : Except (Stop Failure) α
  store : Store
  faults : List Fault

namespace Outcome

variable {Store Failure α : Type}

/-- What one run of a computation leaves, after a normal return and after a stop. -/
def Ends (outcome : Outcome Store Failure α) (post : α → Store → Prop)
    (stopped : Stop Failure → Store → Prop) : Prop :=
  match outcome.value with
  | .ok a => post a outcome.store
  | .error stop => stopped stop outcome.store

variable {outcome : Outcome Store Failure α} {post : α → Store → Prop}
  {stopped : Stop Failure → Store → Prop}

theorem Ends.of_ok {a : α} (h : outcome.Ends post stopped) (hvalue : outcome.value = .ok a) :
    post a outcome.store := by
  rwa [Ends, hvalue] at h

theorem Ends.of_error {stop : Stop Failure} (h : outcome.Ends post stopped)
    (hvalue : outcome.value = .error stop) : stopped stop outcome.store := by
  rwa [Ends, hvalue] at h

theorem Ends.weaken {post' : α → Store → Prop}
    {stopped' : Stop Failure → Store → Prop} (h : outcome.Ends post stopped)
    (hpost : ∀ a s, post a s → post' a s) (hstop : ∀ stop s, stopped stop s → stopped' stop s) :
    outcome.Ends post' stopped' := by
  obtain ⟨value, t, rest⟩ := outcome
  cases value with
  | ok a => exact hpost a t h
  | error stop => exact hstop stop t h

/-- A condition that holds however a computation ends holds of the store it leaves. -/
theorem Ends.store {Q : Store → Prop}
    (h : outcome.Ends (fun _ => Q) fun _ => Q) : Q outcome.store := by
  unfold Ends at h
  split at h <;> exact h

end Outcome

def StorageM (Store Failure α : Type) : Type := Store → List Fault → Outcome Store Failure α

namespace StorageM

variable {Store Failure α β : Type}

def bind (x : StorageM Store Failure α) (f : α → StorageM Store Failure β) :
    StorageM Store Failure β := fun s faults =>
  match x s faults with
  | ⟨.ok a, t, rest⟩ => f a t rest
  | ⟨.error stop, t, rest⟩ => ⟨.error stop, t, rest⟩

instance : Monad (StorageM Store Failure) where
  pure a := fun s faults => ⟨.ok a, s, faults⟩
  bind := bind

def raise (reason : Failure) : StorageM Store Failure α :=
  fun s faults => ⟨.error (.failure reason), s, faults⟩

def load : StorageM Store Failure Store := fun s faults => ⟨.ok s, s, faults⟩

/-- Change state that is not on durable storage. -/
def modify (f : Store → Store) : StorageM Store Failure Unit :=
  fun s faults => ⟨.ok (), f s, faults⟩

def check (result : Except Failure α) : StorageM Store Failure α :=
  match result with
  | .ok a => pure a
  | .error reason => raise reason

/-- One storage step. The operation itself refuses where `f` is undefined. -/
def effect (f : Store → Option Store) (reason : Failure) : StorageM Store Failure Unit :=
  fun s faults =>
    match faults with
    | [] | .none :: _ =>
        match f s with
        | some t => ⟨.ok (), t, faults.tail⟩
        | none => ⟨.error (.failure reason), s, faults.tail⟩
    | .failed applied :: rest =>
        ⟨.error (.failure reason), if applied then (f s).getD s else s, rest⟩
    | .stopped applied :: rest => ⟨.error .crash, if applied then (f s).getD s else s, rest⟩

/-- Handle a failure. A stop is never handled. -/
def recover (x : StorageM Store Failure α) (handler : Failure → StorageM Store Failure α) :
    StorageM Store Failure α := fun s faults =>
  match x s faults with
  | ⟨.error (.failure reason), t, rest⟩ => handler reason t rest
  | outcome => outcome

section Equations

variable (s : Store) (faults : List Fault)

@[simp] theorem pure_apply (a : α) :
    (pure a : StorageM Store Failure α) s faults = ⟨.ok a, s, faults⟩ := rfl

@[simp] theorem raise_apply (reason : Failure) :
    (raise reason : StorageM Store Failure α) s faults = ⟨.error (.failure reason), s, faults⟩ :=
  rfl

@[simp] theorem load_apply :
    (load : StorageM Store Failure Store) s faults = ⟨.ok s, s, faults⟩ := rfl

@[simp] theorem modify_apply (f : Store → Store) :
    (modify f : StorageM Store Failure Unit) s faults = ⟨.ok (), f s, faults⟩ := rfl

theorem bind_apply (x : StorageM Store Failure α) (f : α → StorageM Store Failure β) :
    (x >>= f) s faults =
      match x s faults with
      | ⟨.ok a, t, rest⟩ => f a t rest
      | ⟨.error stop, t, rest⟩ => ⟨.error stop, t, rest⟩ := rfl

theorem bind_ok {x : StorageM Store Failure α} {f : α → StorageM Store Failure β} {a : α}
    {s t : Store} {faults rest : List Fault} (h : x s faults = ⟨.ok a, t, rest⟩) :
    (x >>= f) s faults = f a t rest := by
  rw [bind_apply, h]

theorem pure_bind_eq (a : α) (f : α → StorageM Store Failure β) : (pure a >>= f) = f a := rfl

theorem bind_bind {γ : Type} (x : StorageM Store Failure α) (f : α → StorageM Store Failure β)
    (g : β → StorageM Store Failure γ) : (x >>= f) >>= g = x >>= fun a => f a >>= g := by
  funext s faults
  simp only [bind_apply]
  cases x s faults with
  | mk value t rest => cases value <;> rfl

@[simp] theorem check_ok (a : α) :
    (check (.ok a) : StorageM Store Failure α) = pure a := rfl

@[simp] theorem check_error (reason : Failure) :
    (check (.error reason) : StorageM Store Failure α) = raise reason := rfl

theorem check_apply_ok {result : Except Failure α} {a : α} {s : Store} {faults : List Fault}
    (h : result = .ok a) : check result s faults = ⟨.ok a, s, faults⟩ := by
  subst h
  rfl

theorem load_bind_apply (f : Store → StorageM Store Failure β) (s : Store) (faults : List Fault) :
    (load >>= f) s faults = f s s faults := rfl

/-- A computation that returns has passed the check it begins with. -/
theorem check_bind_of_ok {result : Except Failure α} {f : α → StorageM Store Failure β} {b : β}
    {s : Store} {faults : List Fault} (h : ((check result >>= f) s faults).value = .ok b) :
    ∃ a, result = .ok a ∧ (check result >>= f) s faults = f a s faults := by
  cases result with
  | ok a => exact ⟨a, rfl, rfl⟩
  | error reason => cases h

/-- Without faults a defined step takes effect. -/
theorem effect_apply {f : Store → Option Store} {s t : Store} (reason : Failure)
    (h : f s = some t) : effect f reason s [] = ⟨.ok (), t, []⟩ := by
  simp [effect, h]

end Equations

/-- The schedule injects no further fault. -/
def Quiet (faults : List Fault) : Prop := ∀ fault ∈ faults, fault = .none

instance (faults : List Fault) : Decidable (Quiet faults) :=
  inferInstanceAs (Decidable (∀ fault ∈ faults, fault = .none))

theorem Quiet.tail {faults : List Fault} (h : Quiet faults) : Quiet faults.tail :=
  fun fault hfault => h fault (List.mem_of_mem_tail hfault)

theorem effect_quiet {f : Store → Option Store} {s t : Store} {faults : List Fault}
    (reason : Failure) (h : f s = some t) (hquiet : Quiet faults) :
    effect f reason s faults = ⟨.ok (), t, faults.tail⟩ := by
  cases faults with
  | nil => exact effect_apply reason h
  | cons fault faults =>
      obtain rfl := hquiet fault List.mem_cons_self
      simp [effect, h]

/-- A condition on where a computation that returns normally has come. -/
def OnReturn (outcome : Outcome Store Failure α) (P : Store → List Fault → Prop) : Prop :=
  match outcome.value with
  | .ok _ => P outcome.store outcome.faults
  | .error _ => True

/-- A condition on where a computation that reports a failure has come. -/
def OnFailure (outcome : Outcome Store Failure α) (P : Store → List Fault → Prop) : Prop :=
  match outcome.value with
  | .error (.failure _) => P outcome.store outcome.faults
  | _ => True

instance (outcome : Outcome Store Failure α) (P : Store → List Fault → Prop)
    [∀ s faults, Decidable (P s faults)] : Decidable (OnReturn outcome P) :=
  match h : outcome.value with
  | .ok _ => decidable_of_iff (P outcome.store outcome.faults) (by simp [OnReturn, h])
  | .error _ => isTrue (by simp [OnReturn, h])

instance (outcome : Outcome Store Failure α) (P : Store → List Fault → Prop)
    [∀ s faults, Decidable (P s faults)] : Decidable (OnFailure outcome P) :=
  match h : outcome.value with
  | .ok _ => isTrue (by simp [OnFailure, h])
  | .error .crash => isTrue (by simp [OnFailure, h])
  | .error (.failure _) =>
      decidable_of_iff (P outcome.store outcome.faults) (by simp [OnFailure, h])

section Runs

variable {post : α → Store → Prop} {stopped : Stop Failure → Store → Prop} {s : Store}
  {faults : List Fault}

theorem OnReturn.of_ok {x : StorageM Store Failure α} {P : Store → List Fault → Prop} {a : α}
    {t : Store} {rest : List Fault} (h : OnReturn (x s faults) P)
    (hrun : x s faults = ⟨.ok a, t, rest⟩) : P t rest := by
  rw [hrun] at h
  exact h

theorem OnFailure.of_failure {x : StorageM Store Failure α} {P : Store → List Fault → Prop}
    {reason : Failure} {t : Store} {rest : List Fault} (h : OnFailure (x s faults) P)
    (hrun : x s faults = ⟨.error (.failure reason), t, rest⟩) : P t rest := by
  rw [hrun] at h
  exact h

theorem ends_bind {x : StorageM Store Failure α} {f : α → StorageM Store Failure β}
    (mid : α → Store → Prop) {post : β → Store → Prop} (hx : (x s faults).Ends mid stopped)
    (hf : ∀ a t rest, x s faults = ⟨.ok a, t, rest⟩ → mid a t → (f a t rest).Ends post stopped) :
    ((x >>= f) s faults).Ends post stopped := by
  rw [bind_apply]
  cases hout : x s faults with
  | mk value t rest =>
      rw [hout] at hx
      cases value with
      | ok a => exact hf a t rest hout hx
      | error stop => exact hx

theorem ends_recover {x : StorageM Store Failure α} {handler : Failure → StorageM Store Failure α}
    (failed : Failure → Store → Prop)
    (hx : (x s faults).Ends post fun stop t =>
      match stop with
      | .failure reason => failed reason t
      | .crash => stopped .crash t)
    (hh : ∀ reason t rest, x s faults = ⟨.error (.failure reason), t, rest⟩ → failed reason t →
      (handler reason t rest).Ends post stopped) :
    (StorageM.recover x handler s faults).Ends post stopped := by
  unfold StorageM.recover
  cases hout : x s faults with
  | mk value t rest =>
      rw [hout] at hx
      match value with
      | .ok a => exact hx
      | .error .crash => exact hx
      | .error (.failure reason) => exact hh reason t rest hout hx

end Runs

/-- From stores satisfying `pre`, a normal return satisfies `post` and a stop satisfies
`stopped`, under every fault schedule. -/
def Triple (pre : Store → Prop) (x : StorageM Store Failure α) (post : α → Store → Prop)
    (stopped : Stop Failure → Store → Prop) : Prop :=
  ∀ s faults, pre s → (x s faults).Ends post stopped

namespace Triple

variable {pre : Store → Prop} {post : α → Store → Prop} {stopped : Stop Failure → Store → Prop}

theorem pure' {a : α} (h : ∀ s, pre s → post a s) :
    Triple pre (pure a : StorageM Store Failure α) post stopped :=
  fun s _ hs => h s hs

theorem raise {reason : Failure} (h : ∀ s, pre s → stopped (.failure reason) s) :
    Triple pre (StorageM.raise reason) post stopped :=
  fun s _ hs => h s hs

theorem load {post : Store → Store → Prop} (h : ∀ s, pre s → post s s) :
    Triple pre (StorageM.load : StorageM Store Failure Store) post stopped :=
  fun s _ hs => h s hs

theorem modify {f : Store → Store} {post : Unit → Store → Prop}
    (h : ∀ s, pre s → post () (f s)) :
    Triple pre (StorageM.modify f : StorageM Store Failure Unit) post stopped :=
  fun s _ hs => h s hs

theorem check {result : Except Failure α} (hok : ∀ a s, result = .ok a → pre s → post a s)
    (herror : ∀ reason s, result = .error reason → pre s → stopped (.failure reason) s) :
    Triple pre (StorageM.check result) post stopped := by
  cases result with
  | ok a => exact pure' fun s hs => hok a s rfl hs
  | error reason => exact raise fun s hs => herror reason s rfl hs

theorem effect {f : Store → Option Store} {reason : Failure} {post : Unit → Store → Prop}
    (hstep : ∀ s t, pre s → f s = some t → post () t ∧ ∀ stop, stopped stop t)
    (hstay : ∀ s, pre s → ∀ stop, stopped stop s) :
    Triple pre (StorageM.effect f reason) post stopped := by
  intro s faults hs
  have hnext : ∀ applied : Bool, ∀ stop,
      stopped stop (if applied then (f s).getD s else s) := by
    intro applied stop
    cases applied with
    | false => exact hstay s hs stop
    | true =>
        cases hf : f s with
        | none => simpa using hstay s hs stop
        | some t => simpa using (hstep s t hs hf).2 stop
  match faults with
  | [] =>
      cases hf : f s with
      | none => simpa [StorageM.effect, hf, Outcome.Ends] using hstay s hs _
      | some t => simpa [StorageM.effect, hf, Outcome.Ends] using (hstep s t hs hf).1
  | .none :: rest =>
      cases hf : f s with
      | none => simpa [StorageM.effect, hf, Outcome.Ends] using hstay s hs _
      | some t => simpa [StorageM.effect, hf, Outcome.Ends] using (hstep s t hs hf).1
  | .failed applied :: rest => exact hnext applied _
  | .stopped applied :: rest => exact hnext applied _

theorem bind {x : StorageM Store Failure α} {f : α → StorageM Store Failure β}
    {mid : α → Store → Prop} {post : β → Store → Prop} (hx : Triple pre x mid stopped)
    (hf : ∀ a, Triple (mid a) (f a) post stopped) : Triple pre (x >>= f) post stopped :=
  fun s faults hs => ends_bind mid (hx s faults hs) fun a t rest _ ht => hf a t rest ht

/-- The same, for a condition between the two that is to be given. -/
theorem seq {x : StorageM Store Failure α} {f : α → StorageM Store Failure β}
    (mid : α → Store → Prop) {post : β → Store → Prop} (hx : Triple pre x mid stopped)
    (hf : ∀ a, Triple (mid a) (f a) post stopped) : Triple pre (x >>= f) post stopped :=
  bind hx hf

/-- Reading the store: the continuation starts in the store it was given. -/
theorem load_bind {k : Store → StorageM Store Failure β} {post : β → Store → Prop}
    (h : ∀ s, Triple (fun t => pre t ∧ t = s) (k s) post stopped) :
    Triple pre (StorageM.load >>= k) post stopped :=
  fun s faults hs => h s s faults ⟨hs, rfl⟩

/-- A check whose result decides how to continue. -/
theorem check_bind {result : Except Failure α} {k : α → StorageM Store Failure β}
    {post : β → Store → Prop} (hok : ∀ a, result = .ok a → Triple pre (k a) post stopped)
    (herror : ∀ reason s, result = .error reason → pre s → stopped (.failure reason) s) :
    Triple pre (StorageM.check result >>= k) post stopped := by
  cases result with
  | ok a => exact hok a rfl
  | error reason => exact fun s _ hs => herror reason s rfl hs

theorem recover {x : StorageM Store Failure α} {handler : Failure → StorageM Store Failure α}
    (failed : Failure → Store → Prop)
    (hx : Triple pre x post fun stop s =>
      match stop with
      | .failure reason => failed reason s
      | .crash => stopped .crash s)
    (hh : ∀ reason, Triple (failed reason) (handler reason) post stopped) :
    Triple pre (StorageM.recover x handler) post stopped :=
  fun s faults hs => ends_recover failed (hx s faults hs) fun reason t rest _ ht => hh reason t rest ht

/-- Where only normal returns matter. -/
theorem recover_return {x : StorageM Store Failure α} {handler : Failure → StorageM Store Failure α}
    (hx : Triple pre x post fun _ _ => True)
    (hh : ∀ reason, Triple (fun _ => True) (handler reason) post fun _ _ => True) :
    Triple pre (StorageM.recover x handler) post fun _ _ => True := by
  refine recover (fun _ _ => True) (fun s faults hs => ?_) hh
  refine (hx s faults hs).weaken (fun _ _ h => h) fun stop _ _ => ?_
  cases stop <;> trivial

theorem weaken {pre' : Store → Prop} {post' : α → Store → Prop}
    {stopped' : Stop Failure → Store → Prop} {x : StorageM Store Failure α}
    (h : Triple pre x post stopped) (hpre : ∀ s, pre' s → pre s)
    (hpost : ∀ a s, post a s → post' a s) (hstop : ∀ stop s, stopped stop s → stopped' stop s) :
    Triple pre' x post' stopped' :=
  fun s faults hs => (h s faults (hpre s hs)).weaken hpost hstop

theorem forM {items : List α} {body : α → StorageM Store Failure PUnit} {inv : Store → Prop}
    (h : ∀ a ∈ items, Triple inv (body a) (fun _ => inv) stopped) :
    Triple inv (items.forM body) (fun _ => inv) stopped := by
  induction items with
  | nil => exact pure' fun _ hs => hs
  | cons a items ih =>
      obtain ⟨hhead, htail⟩ := List.forall_mem_cons.mp h
      exact bind hhead fun _ => ih htail

end Triple

/-- Without faults, from stores satisfying `pre` the computation returns normally in a store
satisfying `post`. -/
def Completes (pre : Store → Prop) (x : StorageM Store Failure α) (post : α → Store → Prop) :
    Prop :=
  ∀ s, pre s → ∃ a t, x s [] = ⟨.ok a, t, []⟩ ∧ post a t

namespace Completes

variable {pre : Store → Prop} {post : α → Store → Prop}

theorem pure' {a : α} (h : ∀ s, pre s → post a s) :
    Completes pre (pure a : StorageM Store Failure α) post :=
  fun s hs => ⟨a, s, rfl, h s hs⟩

theorem modify {f : Store → Store} {post : Unit → Store → Prop} (h : ∀ s, pre s → post () (f s)) :
    Completes pre (StorageM.modify f : StorageM Store Failure Unit) post :=
  fun s hs => ⟨(), f s, rfl, h s hs⟩

theorem effect {f : Store → Option Store} {reason : Failure} {post : Unit → Store → Prop}
    (h : ∀ s, pre s → ∃ t, f s = some t ∧ post () t) :
    Completes pre (StorageM.effect f reason) post := by
  intro s hs
  obtain ⟨t, hf, ht⟩ := h s hs
  exact ⟨(), t, effect_apply reason hf, ht⟩

theorem bind {x : StorageM Store Failure α} {f : α → StorageM Store Failure β}
    {mid : α → Store → Prop} {post : β → Store → Prop} (hx : Completes pre x mid)
    (hf : ∀ a, Completes (mid a) (f a) post) : Completes pre (x >>= f) post := by
  intro s hs
  obtain ⟨a, t, hrun, ht⟩ := hx s hs
  rw [bind_ok hrun]
  exact hf a t ht

theorem load_bind {k : Store → StorageM Store Failure β} {post : β → Store → Prop}
    (h : ∀ s, Completes (fun t => pre t ∧ t = s) (k s) post) :
    Completes pre (StorageM.load >>= k) post :=
  fun s hs => h s s ⟨hs, rfl⟩

theorem check_bind {result : Except Failure α} {k : α → StorageM Store Failure β}
    {post : β → Store → Prop}
    (h : ∀ s, pre s → ∃ a, result = .ok a ∧ Completes (fun t => t = s) (k a) post) :
    Completes pre (StorageM.check result >>= k) post := by
  intro s hs
  obtain ⟨a, rfl, hk⟩ := h s hs
  exact hk s rfl

theorem recover {x : StorageM Store Failure α} {handler : Failure → StorageM Store Failure α}
    (h : Completes pre x post) : Completes pre (StorageM.recover x handler) post := by
  intro s hs
  obtain ⟨a, t, hrun, ht⟩ := h s hs
  exact ⟨a, t, by rw [StorageM.recover, hrun], ht⟩

theorem weaken {pre' : Store → Prop} {post' : α → Store → Prop} {x : StorageM Store Failure α}
    (h : Completes pre x post) (hpre : ∀ s, pre' s → pre s)
    (hpost : ∀ a s, post a s → post' a s) : Completes pre' x post' := by
  intro s hs
  obtain ⟨a, t, hrun, ht⟩ := h s (hpre s hs)
  exact ⟨a, t, hrun, hpost a t ht⟩

/-- Where a computation completes, its triple says in which store. -/
theorem of_triple {stopped : Stop Failure → Store → Prop} {x : StorageM Store Failure α}
    (h : Completes pre x fun _ _ => True) (hx : Triple pre x post stopped) :
    Completes pre x post := by
  intro s hs
  obtain ⟨a, t, hrun, -⟩ := h s hs
  have hpost := hx s [] hs
  rw [hrun] at hpost
  exact ⟨a, t, hrun, hpost⟩

/-- A loop whose invariant speaks of the items still to come. -/
theorem forM {items : List α} {body : α → StorageM Store Failure PUnit}
    {inv : List α → Store → Prop}
    (h : ∀ a rest, Completes (inv (a :: rest)) (body a) fun _ => inv rest) :
    Completes (inv items) (items.forM body) fun _ => inv [] := by
  induction items with
  | nil => exact pure' fun _ hs => hs
  | cons a items ih => exact bind (h a items) fun _ => ih

end Completes

end StorageM

end AgePluginPhone.Library
