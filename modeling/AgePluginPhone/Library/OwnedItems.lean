import Mathlib

/-!
# Items of one owner

A durable record names at most one owner, and items are stored under a role and an owner. The
items are owned when each of them belongs to the owner that the record names.
-/

namespace AgePluginPhone.Library

variable {Role Owner Item : Type} [DecidableEq Role] [DecidableEq Owner]

abbrev Items (Role Owner Item : Type) : Type := AList fun _ : Role × Owner => Item

/-- Every item belongs to the named owner. -/
def OwnedBy (owner : Option Owner) (items : Items Role Owner Item) : Prop :=
  ∀ role n, items.lookup (role, n) ≠ none → owner = some n

namespace OwnedBy

variable {owner : Option Owner} {items : Items Role Owner Item} {n : Owner}

theorem lookup_eq_none (h : OwnedBy none items) (key : Role × Owner) : items.lookup key = none := by
  by_contra hkey
  exact absurd (h key.1 key.2 hkey) (by simp)

theorem of_none (h : OwnedBy none items) : OwnedBy owner items :=
  fun role m hm => absurd (h.lookup_eq_none (role, m)) hm

theorem lookup_of_ne (h : OwnedBy (some n) items) {role : Role} {m : Owner} (hm : m ≠ n) :
    items.lookup (role, m) = none := by
  by_contra hkey
  exact hm (Option.some.inj (h role m hkey)).symm

theorem empty : OwnedBy owner (∅ : Items Role Owner Item) := fun role n h => by simp at h

theorem insert (h : OwnedBy (some n) items) (role : Role) (item : Item) :
    OwnedBy (some n) (items.insert (role, n) item) := by
  intro role' m hm
  by_cases hkey : (role', m) = (role, n)
  · rw [(Prod.mk.inj hkey).2]
  · exact h role' m (by rwa [AList.lookup_insert_ne hkey] at hm)

theorem erase (h : OwnedBy owner items) (key : Role × Owner) : OwnedBy owner (items.erase key) := by
  intro role m hm
  by_cases hkey : (role, m) = key
  · subst hkey
    simp at hm
  · exact h role m (by rwa [AList.lookup_erase_ne hkey] at hm)

/-- Once the owner's items are gone, the items are owned whatever the record names. -/
theorem of_erased (h : OwnedBy (some n) items) (hgone : ∀ role, items.lookup (role, n) = none) :
    OwnedBy owner items := by
  intro role m hm
  obtain rfl := Option.some.inj (h role m hm)
  exact absurd (hgone role) hm

end OwnedBy

end AgePluginPhone.Library
