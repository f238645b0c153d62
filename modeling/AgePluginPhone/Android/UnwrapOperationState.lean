import AgePluginPhone.Library.Transducer

/-!
# Ownership of Android unwrap operations

`UnwrapOperationState` holds a Wi-Fi token, the pending operation and the one that is responding.
Its calls run under the lock of the plugin, so a run is a list of calls and their answers.
-/

namespace AgePluginPhone.Android

open Library

/-- Operations are object references, compared by identity. -/
structure UnwrapOperationState (UUID T : Type) where
  wifiToken : Option UUID
  pending : Option T
  response : Option T

namespace UnwrapOperationState

variable {UUID T : Type}

def new : UnwrapOperationState UUID T := ⟨none, none, none⟩

section Slots

variable [DecidableEq UUID] (tokenOf : T → UUID)

def publishWifi (s : UnwrapOperationState UUID T) (token : UUID) (value : T) :
    Bool × UnwrapOperationState UUID T :=
  if s.wifiToken ≠ some token ∨ s.pending ≠ none ∨ s.response ≠ none then (false, s)
  else (true, { s with wifiToken := none, pending := some value })

def takePending (s : UnwrapOperationState UUID T) (token : UUID) :
    Option T × UnwrapOperationState UUID T :=
  match s.pending.filter fun value => tokenOf value = token with
  | some value => (some value, { s with pending := none })
  | none => (none, s)

def beginResponse (s : UnwrapOperationState UUID T) (token : UUID) :
    Option T × UnwrapOperationState UUID T :=
  if s.response ≠ none then (none, s)
  else
    match s.takePending tokenOf token with
    | (some value, s) => (some value, { s with response := some value })
    | (none, s) => (none, s)

def takeResponse (s : UnwrapOperationState UUID T) (token : UUID) :
    Option T × UnwrapOperationState UUID T :=
  match s.response.filter fun value => tokenOf value = token with
  | some value => (some value, { s with response := none })
  | none => (none, s)

end Slots

def cancelMatching [DecidableEq T] (s : UnwrapOperationState UUID T) (matching : T → Bool) :
    Option T × UnwrapOperationState UUID T :=
  match (s.pending.filter matching).or (s.response.filter matching) with
  | some owned =>
      (some owned, { s with
        pending := if s.pending = some owned then none else s.pending
        response := if s.response = some owned then none else s.response })
  | none => (none, s)

/-- A call, and the assignment of `wifiToken`. -/
inductive Call (UUID T : Type)
  | assignWifi (token : Option UUID)
  | publishWifi (token : UUID) (value : T)
  | takePending (token : UUID)
  | beginResponse (token : UUID)
  | takeResponse (token : UUID)
  | cancelMatching (matching : T → Bool)

/-- A call with its answer. -/
inductive Entry (UUID T : Type)
  | assigned (token : Option UUID)
  | published (token : UUID) (value : T) (accepted : Bool)
  | tookPending (token : UUID) (value : Option T)
  | beganResponse (token : UUID) (value : Option T)
  | tookResponse (token : UUID) (value : Option T)
  | cancelled (matching : T → Bool) (value : Option T)

section Runs

variable [DecidableEq UUID] [DecidableEq T] (tokenOf : T → UUID)

def respond (s : UnwrapOperationState UUID T) :
    Call UUID T → Entry UUID T × UnwrapOperationState UUID T
  | .assignWifi token => (.assigned token, { s with wifiToken := token })
  | .publishWifi token value =>
      let result := s.publishWifi token value
      (.published token value result.1, result.2)
  | .takePending token =>
      let result := s.takePending tokenOf token
      (.tookPending token result.1, result.2)
  | .beginResponse token =>
      let result := s.beginResponse tokenOf token
      (.beganResponse token result.1, result.2)
  | .takeResponse token =>
      let result := s.takeResponse tokenOf token
      (.tookResponse token result.1, result.2)
  | .cancelMatching matching =>
      let result := s.cancelMatching matching
      (.cancelled matching result.1, result.2)

/-- The calls of a run with their answers. -/
def log (calls : List (Call UUID T)) : List (Entry UUID T) :=
  Transducer.answers (respond tokenOf) new calls

/-- The state after a run. -/
def after (calls : List (Call UUID T)) : UnwrapOperationState UUID T :=
  Transducer.final (respond tokenOf) new calls

end Runs

/-- The operation that a call publishes. -/
def Entry.publishes : Entry UUID T → Option T
  | .published _ value true => some value
  | _ => none

/-- The operation that a call hands over to its caller for good. -/
def Entry.returns : Entry UUID T → Option T
  | .tookPending _ value | .tookResponse _ value | .cancelled _ value => value
  | _ => none

/-- The operation that a caller obtains with a token. -/
def Entry.obtains : Entry UUID T → Option (UUID × T)
  | .tookPending token value | .beganResponse token value | .tookResponse token value =>
      value.map (token, ·)
  | _ => none

def publications (entries : List (Entry UUID T)) : List T := entries.filterMap Entry.publishes

def returned (entries : List (Entry UUID T)) : List T := entries.filterMap Entry.returns

/-- The operations in the two slots. -/
def held (s : UnwrapOperationState UUID T) : Multiset T := s.pending.toList ++ s.response.toList

@[simp] theorem publications_append (entries : List (Entry UUID T)) (entry : Entry UUID T) :
    publications (entries ++ [entry]) = publications entries ++ entry.publishes.toList := by
  cases hentry : entry.publishes <;> simp [publications, hentry]

@[simp] theorem returned_append (entries : List (Entry UUID T)) (entry : Entry UUID T) :
    returned (entries ++ [entry]) = returned entries ++ entry.returns.toList := by
  cases hentry : entry.returns <;> simp [returned, hentry]

section Calls

variable {s t : UnwrapOperationState UUID T} {token : UUID} {value : T}

section

variable [DecidableEq UUID] {tokenOf : T → UUID}

theorem publishWifi_eq_true : s.publishWifi token value = (true, t) ↔
    s = ⟨some token, none, none⟩ ∧ t = ⟨none, some value, none⟩ := by
  unfold publishWifi
  split_ifs with hrefused
  · simp only [Prod.mk.injEq, Bool.false_eq_true, false_and, false_iff]
    rintro ⟨rfl, -⟩
    simp at hrefused
  · obtain ⟨wifiToken, pending, response⟩ := s
    simp only [ne_eq, not_or, not_not] at hrefused
    obtain ⟨rfl, rfl, rfl⟩ := hrefused
    simp [eq_comm]

theorem publishWifi_cases (s : UnwrapOperationState UUID T) (token : UUID) (value : T) :
    s.publishWifi token value = (false, s) ∨ s = ⟨some token, none, none⟩ ∧
      s.publishWifi token value = (true, ⟨none, some value, none⟩) := by
  cases hresult : s.publishWifi token value with
  | mk accepted after =>
      cases accepted with
      | true =>
          obtain ⟨hs, rfl⟩ := publishWifi_eq_true.mp hresult
          exact Or.inr ⟨hs, rfl⟩
      | false =>
          unfold publishWifi at hresult
          split_ifs at hresult
          · exact Or.inl hresult.symm
          · cases hresult

variable (tokenOf) in
theorem takePending_cases (s : UnwrapOperationState UUID T) (token : UUID) :
    s.takePending tokenOf token = (none, s) ∨ ∃ value, s.pending = some value ∧
      tokenOf value = token ∧ s.takePending tokenOf token = (some value, { s with pending := none }) := by
  unfold takePending
  split
  · rename_i value hfilter
    obtain ⟨hpending, htoken⟩ := Option.filter_eq_some_iff.mp hfilter
    exact Or.inr ⟨value, hpending, by simpa using htoken, rfl⟩
  · exact Or.inl rfl

variable (tokenOf) in
theorem beginResponse_cases (s : UnwrapOperationState UUID T) (token : UUID) :
    s.beginResponse tokenOf token = (none, s) ∨ ∃ value, s.pending = some value ∧
      s.response = none ∧ tokenOf value = token ∧
      s.beginResponse tokenOf token =
        (some value, { s with pending := none, response := some value }) := by
  unfold beginResponse
  split_ifs with hresponse
  · exact Or.inl rfl
  · rcases s.takePending_cases tokenOf token with hnone | htaken
    · rw [hnone]
      exact Or.inl rfl
    · obtain ⟨value, hpending, htoken, htake⟩ := htaken
      rw [htake]
      exact Or.inr ⟨value, hpending, not_not.mp hresponse, htoken, rfl⟩

variable (tokenOf) in
theorem takeResponse_cases (s : UnwrapOperationState UUID T) (token : UUID) :
    s.takeResponse tokenOf token = (none, s) ∨ ∃ value, s.response = some value ∧
      tokenOf value = token ∧
      s.takeResponse tokenOf token = (some value, { s with response := none }) := by
  unfold takeResponse
  split
  · rename_i value hfilter
    obtain ⟨hresponse, htoken⟩ := Option.filter_eq_some_iff.mp hfilter
    exact Or.inr ⟨value, hresponse, by simpa using htoken, rfl⟩
  · exact Or.inl rfl

end

/-- With a slot empty a cancellation takes the operation in the other, or leaves both. -/
theorem cancelMatching_cases [DecidableEq T] (h : s.pending = none ∨ s.response = none)
    (matching : T → Bool) :
    s.cancelMatching matching = (none, s) ∨ ∃ value, matching value = true ∧
      (s.pending = some value ∧ s.cancelMatching matching = (some value, { s with pending := none }) ∨
        s.response = some value ∧
          s.cancelMatching matching = (some value, { s with response := none })) := by
  obtain ⟨wifiToken, pending, response⟩ := s
  unfold cancelMatching
  rcases h with hnone | hnone <;> dsimp only at hnone <;> subst hnone
  · cases response with
    | none => exact Or.inl rfl
    | some value =>
        cases hmatching : matching value with
        | false => simp [Option.filter, hmatching]
        | true => exact Or.inr ⟨value, hmatching, Or.inr ⟨rfl, by simp [Option.filter, hmatching]⟩⟩
  · cases pending with
    | none => exact Or.inl rfl
    | some value =>
        cases hmatching : matching value with
        | false => simp [Option.filter, hmatching]
        | true => exact Or.inr ⟨value, hmatching, Or.inl ⟨rfl, by simp [Option.filter, hmatching]⟩⟩

end Calls

section Ownership

variable {tokenOf : T → UUID} {s : UnwrapOperationState UUID T} {entries : List (Entry UUID T)}
  {calls : List (Call UUID T)}

/-- One slot is empty, and what was published is what was returned and what the slots hold. -/
structure Owned (entries : List (Entry UUID T)) (s : UnwrapOperationState UUID T) : Prop where
  slots : s.pending = none ∨ s.response = none
  balance : (publications entries : Multiset T) = returned entries + held s

/-- Of distinct operations one that is held has been published and not returned. -/
theorem Owned.fresh (h : Owned entries s) (hdistinct : (publications entries).Nodup) {value : T}
    (hvalue : value ∈ held s) : value ∈ publications entries ∧ value ∉ returned entries := by
  have hnodup : (returned entries + held s : Multiset T).Nodup := h.balance ▸ hdistinct
  constructor
  · have hmem : value ∈ (publications entries : Multiset T) := by
      rw [h.balance]
      exact Multiset.mem_add.mpr (Or.inr hvalue)
    exact hmem
  · intro hreturned
    exact Multiset.disjoint_left.mp (Multiset.nodup_add.mp hnodup).2.2 hreturned hvalue

variable [DecidableEq UUID] [DecidableEq T]

theorem Owned.step (h : Owned entries s) (call : Call UUID T) :
    Owned (entries ++ [(respond tokenOf s call).1]) (respond tokenOf s call).2 := by
  have hquiet (entry : Entry UUID T) (t : UnwrapOperationState UUID T)
      (hpublishes : entry.publishes = none) (hreturns : entry.returns = none)
      (hpending : t.pending = s.pending) (hresponse : t.response = s.response) :
      Owned (entries ++ [entry]) t := by
    refine ⟨by rw [hpending, hresponse]; exact h.slots, ?_⟩
    simpa [hpublishes, hreturns, held, hpending, hresponse] using h.balance
  have hreturn (entry : Entry UUID T) (t : UnwrapOperationState UUID T) (value : T)
      (hpublishes : entry.publishes = none) (hreturns : entry.returns = some value)
      (hslots : t.pending = none ∨ t.response = none) (hheld : held s = value ::ₘ held t) :
      Owned (entries ++ [entry]) t := by
    refine ⟨hslots, ?_⟩
    have hbalance := h.balance
    rw [hheld] at hbalance
    rw [publications_append, returned_append, hpublishes, hreturns, Option.toList_none,
      List.append_nil, Option.toList_some, hbalance, ← Multiset.coe_add, Multiset.coe_singleton,
      ← Multiset.singleton_add, add_assoc]
  cases call with
  | assignWifi token => exact hquiet _ _ rfl rfl rfl rfl
  | publishWifi token value =>
      simp only [respond]
      rcases s.publishWifi_cases token value with hrefused | haccepted
      · rw [hrefused]
        exact hquiet _ _ rfl rfl rfl rfl
      · obtain ⟨rfl, haccepted⟩ := haccepted
        rw [haccepted]
        refine ⟨Or.inr rfl, ?_⟩
        have hbalance := h.balance
        simp only [held, Option.toList_none, List.append_nil, Multiset.coe_nil, add_zero] at hbalance
        simp [Entry.publishes, Entry.returns, held, ← Multiset.coe_add, hbalance]
  | takePending token =>
      simp only [respond]
      rcases s.takePending_cases tokenOf token with hnone | htaken
      · rw [hnone]
        exact hquiet _ _ rfl rfl rfl rfl
      · obtain ⟨value, hpending, -, htake⟩ := htaken
        rw [htake]
        exact hreturn _ _ value rfl rfl (Or.inl rfl) (by simp [held, hpending])
  | beginResponse token =>
      simp only [respond]
      rcases s.beginResponse_cases tokenOf token with hnone | hbegun
      · rw [hnone]
        exact hquiet _ _ rfl rfl rfl rfl
      · obtain ⟨value, hpending, hresponse, -, hbegin⟩ := hbegun
        rw [hbegin]
        refine ⟨Or.inl rfl, ?_⟩
        have hbalance := h.balance
        simpa [Entry.publishes, Entry.returns, held, hpending, hresponse] using hbalance
  | takeResponse token =>
      simp only [respond]
      rcases s.takeResponse_cases tokenOf token with hnone | htaken
      · rw [hnone]
        exact hquiet _ _ rfl rfl rfl rfl
      · obtain ⟨value, hresponse, -, htake⟩ := htaken
        rw [htake]
        refine hreturn _ _ value rfl rfl (Or.inr rfl) ?_
        have hpending := h.slots.resolve_right (by simp [hresponse])
        simp [held, hresponse, hpending]
  | cancelMatching matching =>
      simp only [respond]
      rcases cancelMatching_cases h.slots matching with hnone | hcancelled
      · rw [hnone]
        exact hquiet _ _ rfl rfl rfl rfl
      · obtain ⟨value, -, hslot⟩ := hcancelled
        rcases hslot with hslot | hslot
        · rw [hslot.2]
          exact hreturn _ _ value rfl rfl (Or.inl rfl) (by simp [held, hslot.1])
        · rw [hslot.2]
          have hpending := h.slots.resolve_right (by simp [hslot.1])
          exact hreturn _ _ value rfl rfl (Or.inr rfl) (by simp [held, hslot.1, hpending])

theorem owned_of_run (tokenOf : T → UUID) (calls : List (Call UUID T)) :
    Owned (log tokenOf calls) (after tokenOf calls) := by
  induction calls using List.reverseRecOn with
  | nil => exact ⟨Or.inl rfl, rfl⟩
  | append_singleton calls call ih =>
      rw [log, after, Transducer.answers_append, Transducer.final_append]
      exact ih.step call

/-- An operation that a call obtains, whether it keeps it or moves it, is held. -/
theorem held_of_obtains {call : Call UUID T} {token : UUID} {value : T}
    (h : (respond tokenOf s call).1.obtains = some (token, value)) :
    tokenOf value = token ∧ value ∈ held s := by
  cases call with
  | takePending other =>
      simp only [respond] at h
      rcases s.takePending_cases tokenOf other with hnone | htaken
      · rw [hnone] at h
        cases h
      · obtain ⟨found, hpending, htoken, htake⟩ := htaken
        rw [htake] at h
        obtain ⟨rfl, rfl⟩ := Prod.mk.inj (Option.some.inj h)
        exact ⟨htoken, by simp [held, hpending]⟩
  | beginResponse other =>
      simp only [respond] at h
      rcases s.beginResponse_cases tokenOf other with hnone | hbegun
      · rw [hnone] at h
        cases h
      · obtain ⟨found, hpending, -, htoken, hbegin⟩ := hbegun
        rw [hbegin] at h
        obtain ⟨rfl, rfl⟩ := Prod.mk.inj (Option.some.inj h)
        exact ⟨htoken, by simp [held, hpending]⟩
  | takeResponse other =>
      simp only [respond] at h
      rcases s.takeResponse_cases tokenOf other with hnone | htaken
      · rw [hnone] at h
        cases h
      · obtain ⟨found, hresponse, htoken, htake⟩ := htaken
        rw [htake] at h
        obtain ⟨rfl, rfl⟩ := Prod.mk.inj (Option.some.inj h)
        exact ⟨htoken, by simp [held, hresponse]⟩
  | _ => cases h

/-- An operation that a call cancels matches and is held. -/
theorem held_of_cancelled (hs : s.pending = none ∨ s.response = none) {call : Call UUID T}
    {matching : T → Bool} {value : T}
    (h : (respond tokenOf s call).1 = .cancelled matching (some value)) :
    matching value = true ∧ value ∈ held s := by
  cases call with
  | cancelMatching other =>
      simp only [respond] at h
      rcases cancelMatching_cases hs other with hnone | hcancelled
      · rw [hnone] at h
        cases h
      · obtain ⟨found, hmatching, hslot⟩ := hcancelled
        rcases hslot with hslot | hslot <;> rw [hslot.2] at h <;>
          obtain ⟨rfl, hfound⟩ := Entry.cancelled.inj h <;>
          obtain rfl := Option.some.inj hfound <;> exact ⟨hmatching, by simp [held, hslot.1]⟩
  | _ => cases h

/-- Over any sequence of calls that publishes operations with distinct tokens, each operation is
handed over at most once, and until then a slot holds it. A token obtains its own operation only,
while it is published and not handed over, and a cancellation one that matches; so the token of an
operation that is over neither obtains nor cancels any. A publication is accepted exactly under the
current Wi-Fi token with both slots empty; a response begins only in an empty slot; a cancellation
clears the slot of the operation it returns. -/
theorem operations_never_cross (tokenOf : T → UUID) (calls : List (Call UUID T))
    (hdistinct : ((publications (log tokenOf calls)).map tokenOf).Nodup) :
    (returned (log tokenOf calls)).Nodup ∧
      (∀ value, value ∈ publications (log tokenOf calls) ↔
        value ∈ returned (log tokenOf calls) ∨ value ∈ held (after tokenOf calls)) ∧
      (∀ before entry later, log tokenOf calls = before ++ entry :: later →
        (∀ token value, entry.obtains = some (token, value) → tokenOf value = token ∧
          value ∈ publications before ∧ value ∉ returned before) ∧
        (∀ matching value, entry = .cancelled matching (some value) → matching value = true ∧
          value ∈ publications before ∧ value ∉ returned before) ∧
        ∀ finished ∈ returned before, (∀ value, entry.obtains ≠ some (tokenOf finished, value)) ∧
          ∀ matching, (∀ value, matching value = true → tokenOf value = tokenOf finished) →
            ∀ value, entry ≠ .cancelled matching (some value)) ∧
      (∀ token value t, (after tokenOf calls).publishWifi token value = (true, t) ↔
        after tokenOf calls = ⟨some token, none, none⟩ ∧ t = ⟨none, some value, none⟩) ∧
      (∀ token, (after tokenOf calls).beginResponse tokenOf token = (none, after tokenOf calls) ∨
        ∃ value, (after tokenOf calls).pending = some value ∧
          (after tokenOf calls).response = none ∧ tokenOf value = token ∧
          (after tokenOf calls).beginResponse tokenOf token =
            (some value, { after tokenOf calls with pending := none, response := some value })) ∧
      ∀ matching, (after tokenOf calls).cancelMatching matching = (none, after tokenOf calls) ∨
        ∃ value, matching value = true ∧
          ((after tokenOf calls).pending = some value ∧
              (after tokenOf calls).cancelMatching matching =
                (some value, { after tokenOf calls with pending := none }) ∨
            (after tokenOf calls).response = some value ∧
              (after tokenOf calls).cancelMatching matching =
                (some value, { after tokenOf calls with response := none })) := by
  have howned := owned_of_run tokenOf calls
  have hbalance := howned.balance
  have hnodup : (returned (log tokenOf calls) + held (after tokenOf calls) : Multiset T).Nodup :=
    hbalance ▸ hdistinct.of_map tokenOf
  refine ⟨(Multiset.nodup_add.mp hnodup).1, ?_, ?_, fun _ _ _ => publishWifi_eq_true,
    beginResponse_cases tokenOf _, cancelMatching_cases howned.slots⟩
  · intro value
    rw [← Multiset.mem_coe, hbalance, Multiset.mem_add, Multiset.mem_coe]
  · intro before entry later hlog
    obtain ⟨earlier, call, rest, -, rfl, rfl⟩ := Transducer.answers_split hlog
    have hearlier := owned_of_run tokenOf earlier
    have hsublist : (publications (log tokenOf earlier)).Sublist (publications (log tokenOf calls)) := by
      rw [hlog]
      exact (List.sublist_append_left _ _).filterMap _
    have hfresh {value : T} (hvalue : value ∈ held (after tokenOf earlier)) :=
      hearlier.fresh ((hdistinct.of_map tokenOf).sublist hsublist) hvalue
    have hone {finished value : T} (hover : finished ∈ returned (log tokenOf earlier))
        (hvalue : value ∈ publications (log tokenOf earlier)) (htoken : tokenOf value = tokenOf finished) :
        value = finished := by
      have hpublished : finished ∈ publications (log tokenOf earlier) := by
        rw [← Multiset.mem_coe, hearlier.balance, Multiset.mem_add]
        exact Or.inl hover
      exact List.inj_on_of_nodup_map hdistinct (hsublist.subset hvalue) (hsublist.subset hpublished)
        htoken
    have hobtains (token : UUID) (value : T)
        (hvalue : (respond tokenOf (after tokenOf earlier) call).1.obtains = some (token, value)) :=
      And.intro (held_of_obtains hvalue).1 (hfresh (held_of_obtains hvalue).2)
    have hcancels (matching : T → Bool) (value : T)
        (hvalue : (respond tokenOf (after tokenOf earlier) call).1 = .cancelled matching (some value)) :=
      And.intro (held_of_cancelled hearlier.slots hvalue).1
        (hfresh (held_of_cancelled hearlier.slots hvalue).2)
    refine ⟨hobtains, hcancels, fun finished hover => ⟨?_, ?_⟩⟩
    · intro value hvalue
      obtain ⟨htoken, hpublished, hreturned⟩ := hobtains _ value hvalue
      exact hreturned (hone hover hpublished htoken ▸ hover)
    · intro matching hmatching value hvalue
      obtain ⟨hmatches, hpublished, hreturned⟩ := hcancels matching value hvalue
      exact hreturned (hone hover hpublished (hmatching value hmatches) ▸ hover)

/-- Two operations, the second published after the first was cancelled. -/
theorem operations_never_cross_sample :
    (returned (log (fun value : ℕ => value) [.assignWifi (some 1), .publishWifi 1 10,
      .cancelMatching (fun value => value = 10), .assignWifi (some 2), .publishWifi 2 20,
      .takePending 10, .beginResponse 20, .takeResponse 20])).Nodup :=
  (operations_never_cross (fun value : ℕ => value) _ (by decide)).1

end Ownership

end UnwrapOperationState

end AgePluginPhone.Android
