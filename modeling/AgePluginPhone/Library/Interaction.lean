import Mathlib

/-!
# Programs that consult a host

A program asks its host queries one after another, and what it does next may depend on every answer.
The runs of a program under any host are described by rules, one for each way to build a program.
-/

namespace AgePluginPhone.Library

universe u v

variable {Query : Type u} {Answer : Query → Type u} {α β : Type v}

inductive Interaction (Query : Type u) (Answer : Query → Type u) (α : Type v) : Type (max u v)
  | done (result : α)
  | ask (query : Query) (next : Answer query → Interaction Query Answer α)

namespace Interaction

def bind : Interaction Query Answer α → (α → Interaction Query Answer β) → Interaction Query Answer β
  | done result, rest => rest result
  | ask query next, rest => ask query fun answer => (next answer).bind rest

instance : Monad (Interaction Query Answer) where
  pure := done
  bind := bind

def query {Answer : Query → Type u} (query : Query) : Interaction Query Answer (Answer query) :=
  ask query done

/-- A query with its answer. -/
abbrev Event (Answer : Query → Type u) : Type u := (query : Query) × Answer query

/-- What a host answers to a query after the events so far. -/
abbrev Host (Answer : Query → Type u) : Type u := List (Event Answer) → (query : Query) → Answer query

/-- The result of a program under a host, and its events in order. -/
def run (host : Host Answer) (past : List (Event Answer)) :
    Interaction Query Answer α → α × List (Event Answer)
  | done result => (result, [])
  | ask query next =>
      let event : Event Answer := ⟨query, host past query⟩
      let rest := run host (past ++ [event]) (next event.2)
      (rest.1, event :: rest.2)

/-- Some host answers so that the program has these events and this result. -/
inductive Runs : Interaction Query Answer α → List (Event Answer) → α → Prop
  | done (result) : Runs (done result) [] result
  | ask {query next events result} (answer : Answer query) :
      Runs (next answer) events result → Runs (ask query next) (⟨query, answer⟩ :: events) result

theorem runs_run (host : Host Answer) (past : List (Event Answer)) (program : Interaction Query Answer α) :
    Runs program (program.run host past).2 (program.run host past).1 := by
  induction program generalizing past with
  | done result => exact .done result
  | ask query next ih => exact .ask _ (ih _ _)

variable {events : List (Event Answer)} {result : α}

theorem runs_done_iff {value : α} :
    Runs (done value : Interaction Query Answer α) events result ↔ events = [] ∧ result = value := by
  constructor
  · intro h
    cases h
    exact ⟨rfl, rfl⟩
  · intro h
    obtain ⟨rfl, rfl⟩ := h
    exact .done _

theorem runs_pure_iff {value : α} :
    Runs (pure value : Interaction Query Answer α) events result ↔ events = [] ∧ result = value :=
  runs_done_iff

theorem runs_ask_iff {query : Query} {next : Answer query → Interaction Query Answer α} :
    Runs (ask query next) events result ↔ ∃ answer rest, events = ⟨query, answer⟩ :: rest ∧
      Runs (next answer) rest result := by
  constructor
  · intro h
    cases h with
    | ask answer h => exact ⟨answer, _, rfl, h⟩
  · intro h
    obtain ⟨answer, rest, rfl, h⟩ := h
    exact .ask answer h

/-- A run of a sequence is a run of the first program followed by one of the second. -/
theorem runs_bind_iff {program : Interaction Query Answer α} {rest : α → Interaction Query Answer β}
    {final : β} : Runs (program >>= rest) events final ↔ ∃ own value others,
      Runs program own value ∧ Runs (rest value) others final ∧ events = own ++ others := by
  constructor
  · intro h
    induction program generalizing events with
    | done value => exact ⟨[], value, events, .done value, h, rfl⟩
    | ask query next ih =>
        obtain ⟨answer, remaining, rfl, hnext⟩ := runs_ask_iff.mp h
        obtain ⟨own, value, others, hown, hothers, rfl⟩ := ih answer hnext
        exact ⟨⟨query, answer⟩ :: own, value, others, .ask answer hown, hothers, rfl⟩
  · intro h
    obtain ⟨own, value, others, hown, hothers, rfl⟩ := h
    induction hown with
    | done value => exact hothers
    | ask answer _ ih => exact .ask answer (ih hothers)

theorem runs_query_bind_iff {Answer : Query → Type u} {α : Type u} {question : Query}
    {rest : Answer question → Interaction Query Answer α} {events : List (Event Answer)} {result : α} :
    Runs (query question >>= rest) events result ↔ ∃ answer after, events = ⟨question, answer⟩ :: after ∧
      Runs (rest answer) after result :=
  runs_ask_iff

theorem bind_assoc {γ : Type v} (program : Interaction Query Answer α)
    (rest : α → Interaction Query Answer β) (last : β → Interaction Query Answer γ) :
    program >>= rest >>= last = program >>= fun result => rest result >>= last := by
  induction program with
  | done result => rfl
  | ask query next ih => exact congrArg (Interaction.ask query) (funext ih)

section Permits

variable (guarded : Query → Prop) (permit : Event Answer → Prop)

/-- No guarded query is asked before an answer that permits it. -/
inductive Permitted : Interaction Query Answer α → Prop
  | done (result : α) : Permitted (done result)
  | ask {query : Query} {next : Answer query → Interaction Query Answer α} : ¬ guarded query →
      (∀ answer, ¬ permit ⟨query, answer⟩ → Permitted (next answer)) → Permitted (ask query next)

variable {guarded permit}

theorem permitted_pure (result : α) :
    Permitted guarded permit (pure result : Interaction Query Answer α) := .done result

theorem Permitted.bind {program : Interaction Query Answer α}
    {rest : α → Interaction Query Answer β} (h : Permitted guarded permit program)
    (hrest : ∀ result, Permitted guarded permit (rest result)) :
    Permitted guarded permit (program >>= rest) := by
  induction h with
  | done result => exact hrest result
  | ask hfree _ ih => exact .ask hfree ih

theorem permitted_query_bind {Answer : Query → Type u} {α : Type u} {permit : Event Answer → Prop}
    {question : Query} {rest : Answer question → Interaction Query Answer α}
    (hfree : ¬ guarded question) (h : ∀ answer, ¬ permit ⟨question, answer⟩ → Permitted guarded permit (rest answer)) :
    Permitted guarded permit (query question >>= rest) := .ask hfree h

theorem Permitted.not_guarded {question : Query}
    {next : Answer question → Interaction Query Answer α}
    (h : Permitted guarded permit (Interaction.ask question next)) : ¬ guarded question := by
  cases h with
  | ask hfree _ => exact hfree

theorem Permitted.next {question : Query} {next : Answer question → Interaction Query Answer α}
    (h : Permitted guarded permit (Interaction.ask question next)) {answer : Answer question}
    (hanswer : ¬ permit ⟨question, answer⟩) : Permitted guarded permit (next answer) := by
  cases h with
  | ask _ hnext => exact hnext answer hanswer

/-- In a run a guarded query comes after an answer that permits it. -/
theorem Permitted.exists_permit {program : Interaction Query Answer α}
    {before after : List (Event Answer)} {event : Event Answer}
    (h : Permitted guarded permit program) (hruns : Runs program (before ++ event :: after) result)
    (hguarded : guarded event.1) : ∃ earlier ∈ before, permit earlier := by
  induction before generalizing program with
  | nil =>
      cases hruns with
      | ask answer _ => exact absurd hguarded h.not_guarded
  | cons first before ih =>
      cases hruns with
      | @ask query next _ _ answer hrest =>
          by_cases hpermit : permit ⟨query, answer⟩
          · exact ⟨_, List.mem_cons_self, hpermit⟩
          · obtain ⟨earlier, hmem, hearlier⟩ := ih (h.next hpermit) hrest
            exact ⟨earlier, List.mem_cons_of_mem _ hmem, hearlier⟩

end Permits

end Interaction

end AgePluginPhone.Library
