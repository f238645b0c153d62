import AgePluginPhone.Core.ReplayCodec

/-!
# Replay-state invariant

Consumption keeps replay states well formed and within capacity, and never forgets a token
that could still be presented: a consumed entry stays stored until the clock high-water mark
has passed its expiry.
-/

namespace AgePluginPhone.Core

open Library

namespace ReplayEntry

@[simp] theorem duplicates_self (a : ReplayEntry) : a.duplicates a = true := by
  cases a <;> simp [duplicates]

theorem not_duplicates_symm {a b : ReplayEntry} (h : a.duplicates b = false) :
    b.duplicates a = false := by
  rwa [duplicates_comm]

/-- Two consumptions of one token: the same expiry and the same identifier, nonce or digest. -/
def SameToken (a b : ReplayEntry) : Prop :=
  a.duplicates b = true ∧ a.expiresAtUnix = b.expiresAtUnix

end ReplayEntry

namespace ReplayState

/-- The entry is stored, or the clock high-water mark has passed its expiry. -/
def Remembers (s : ReplayState) (entry : ReplayEntry) : Prop :=
  ExpiringSet.Remembers ReplayEntry.expiresAtUnix s.entries s.lastSeenUnix entry

theorem new_wellFormed (scope : ReplayScope) (nowUnix : U64) :
    (ReplayState.new scope nowUnix).WellFormed := by
  constructor <;> simp [ReplayState.new]

theorem mem_liveEntries {s : ReplayState} {nowUnix : U64} {entry : ReplayEntry} :
    entry ∈ s.liveEntries nowUnix ↔ entry ∈ s.entries ∧ nowUnix ≤ entry.expiresAtUnix :=
  ExpiringSet.mem_live

private theorem sorted_of_unique {entries : List ReplayEntry}
    (hunique : entries.Pairwise fun a b => a.duplicates b = false) :
    (entries.insertionSort (· ≤ ·)).Pairwise (· < ·) := by
  have hperm := List.perm_insertionSort (· ≤ ·) entries
  have hle := List.pairwise_insertionSort (· ≤ ·) entries
  have hne := (hperm.pairwise_iff ReplayEntry.not_duplicates_symm).mpr hunique
  refine (hle.and hne).imp ?_
  rintro a b ⟨hab, hdup⟩
  refine lt_of_le_of_ne hab ?_
  rintro rfl
  simp at hdup

variable {s t : ReplayState} {scope : ReplayScope} {entry : ReplayEntry} {nowUnix : U64}
  {capacity : ℕ}

theorem consume_mem_iff (h : s.consume scope entry nowUnix capacity = .ok t)
    (a : ReplayEntry) : a ∈ t.entries ↔ a ∈ s.liveEntries nowUnix ∨ a = entry := by
  obtain ⟨-, -, -, -, -, rfl⟩ := consume_eq_ok.mp h
  simp

theorem consume_scope (h : s.consume scope entry nowUnix capacity = .ok t) :
    t.scope = s.scope := by
  obtain ⟨-, -, -, -, -, rfl⟩ := consume_eq_ok.mp h
  rfl

theorem consume_lastSeenUnix (h : s.consume scope entry nowUnix capacity = .ok t) :
    t.lastSeenUnix = nowUnix := by
  obtain ⟨-, -, -, -, -, rfl⟩ := consume_eq_ok.mp h
  rfl

theorem consume_length_le (h : s.consume scope entry nowUnix capacity = .ok t) :
    t.entries.length ≤ capacity := by
  obtain ⟨-, -, -, -, hroom, rfl⟩ := consume_eq_ok.mp h
  simpa [Nat.succ_le_iff] using hroom

/-- Successful consumption preserves well-formedness. -/
theorem consume_wellFormed (hs : s.WellFormed)
    (h : s.consume scope entry nowUnix capacity = .ok t) : t.WellFormed := by
  have hmem := consume_mem_iff h
  obtain ⟨⟨-, hlive, -⟩, ⟨-, hrole⟩, -, hdup, -, rfl⟩ := consume_eq_ok.mp h
  have hkept : (s.liveEntries nowUnix).Pairwise fun a b => a.duplicates b = false :=
    hs.unique.filter _
  have hunique : (s.liveEntries nowUnix ++ [entry]).Pairwise fun a b => a.duplicates b = false := by
    refine List.pairwise_append.mpr ⟨hkept, List.pairwise_singleton _ _, ?_⟩
    intro a ha b hb
    obtain rfl := List.mem_singleton.mp hb
    rw [ReplayEntry.duplicates_comm]
    exact hdup a ha
  refine ⟨?_, sorted_of_unique hunique, ?_, ?_⟩
  · intro a ha
    rcases (hmem a).mp ha with ha | rfl
    · exact (mem_liveEntries.mp ha).2
    · exact hlive
  · intro a ha
    rcases (hmem a).mp ha with ha | rfl
    · exact hs.role a (mem_liveEntries.mp ha).1
    · exact hrole.symm
  · exact ((List.perm_insertionSort _ _).pairwise_iff ReplayEntry.not_duplicates_symm).mpr hunique

theorem consume_remembers_self (h : s.consume scope entry nowUnix capacity = .ok t) :
    t.Remembers entry :=
  Or.inl ((consume_mem_iff h entry).mpr (Or.inr rfl))

/-- Purging drops an entry only once the high-water mark has passed its expiry. -/
theorem consume_remembers (h : s.consume scope entry nowUnix capacity = .ok t)
    {a : ReplayEntry} (ha : s.Remembers a) : t.Remembers a := by
  have hclock : s.lastSeenUnix ≤ nowUnix := (consume_eq_ok.mp h).2.2.1
  rw [Remembers, consume_lastSeenUnix h]
  exact ha.advance hclock fun x hx => (consume_mem_iff h x).mpr (Or.inl hx)

/-- A remembered token cannot be consumed again with its expiry. -/
theorem consume_fresh (h : s.consume scope entry nowUnix capacity = .ok t)
    {a : ReplayEntry} (ha : s.Remembers a) : ¬ a.SameToken entry := by
  obtain ⟨⟨-, hlive, -⟩, -, hclock, hdup, -, -⟩ := consume_eq_ok.mp h
  rintro ⟨hsame, hexp⟩
  refine ha.not_clash (fun a b => a.duplicates b = true) hclock hlive hexp ?_ hsame
  intro x hx
  rw [ReplayEntry.duplicates_comm, hdup x hx]
  decide

end ReplayState

end AgePluginPhone.Core
