import Mathlib

/-!
# Expiring sets under a high-water mark

A set of entries that each carry an expiry is purged whenever the clock advances, and the
clock may not fall below a recorded mark. An entry is remembered while it is stored or while
the mark alone rules it out; both survive a purge.
-/

namespace AgePluginPhone.Library.ExpiringSet

variable {Entry Time : Type*} [LinearOrder Time] (expiry : Entry → Time)

def live (entries : List Entry) (now : Time) : List Entry :=
  entries.filter fun entry => now ≤ expiry entry

/-- The entry is stored, or the mark has passed its expiry. -/
def Remembers (entries : List Entry) (mark : Time) (entry : Entry) : Prop :=
  entry ∈ entries ∨ expiry entry < mark

variable {expiry} {entries next : List Entry} {mark now : Time} {a b : Entry}

theorem mem_live : a ∈ live expiry entries now ↔ a ∈ entries ∧ now ≤ expiry a := by
  simp [live]

/-- Purging drops an entry only once the advanced mark has passed its expiry. -/
theorem Remembers.advance (h : Remembers expiry entries mark a) (hclock : mark ≤ now)
    (hkeep : ∀ x ∈ live expiry entries now, x ∈ next) : Remembers expiry next now a := by
  rcases h with h | h
  · by_cases hexp : now ≤ expiry a
    · exact Or.inl (hkeep a (mem_live.mpr ⟨h, hexp⟩))
    · exact Or.inr (not_le.mp hexp)
  · exact Or.inr (lt_of_lt_of_le h hclock)

/-- An entry admitted against the live entries clashes with no remembered entry of its expiry. -/
theorem Remembers.not_clash (h : Remembers expiry entries mark a) (Clash : Entry → Entry → Prop)
    (hclock : mark ≤ now) (hlive : now ≤ expiry b) (hexp : expiry a = expiry b)
    (hfresh : ∀ x ∈ live expiry entries now, ¬ Clash x b) : ¬ Clash a b := by
  rcases h with h | h
  · exact hfresh a (mem_live.mpr ⟨h, hexp ▸ hlive⟩)
  · rw [hexp] at h
    exact absurd (lt_of_lt_of_le h hclock) (not_lt.mpr hlive)

/-- Purging commutes with a translation of entries that translates expiries. -/
theorem live_map {Entry' Time' : Type*} [LinearOrder Time'] {expiry' : Entry' → Time'} {now' : Time'}
    {f : Entry → Entry'} (h : ∀ e ∈ entries, now' ≤ expiry' (f e) ↔ now ≤ expiry e) :
    live expiry' (entries.map f) now' = (live expiry entries now).map f := by
  rw [live, live, List.filter_map]
  congr 1
  apply List.filter_congr
  intro e he
  simp [h e he]

end AgePluginPhone.Library.ExpiringSet
