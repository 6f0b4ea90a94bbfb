/-!
# Lists with ascending keys

Tallies and objects are lists of entries whose keys ascend.  Such a list is a
finite map: looking a key up finds the one entry that has it.

Main results:

- `KeysAscending.lookup_eq_some_iff`: looking up is membership.
- `KeysAscending.lookup_eq_none`: keys below all others are not found.
-/

namespace FeedbackBoard

variable {α : Type}

/-- Looking a key up compares it with the first key, and goes on. -/
theorem lookup_entry (key other : String) (value : α) (rest : List (String × α)) :
    ((other, value) :: rest).lookup key =
      if key = other then some value else rest.lookup key := by
  rw [List.lookup_cons]
  by_cases h : key = other
  · rw [if_pos h, beq_iff_eq.mpr h]
  · rw [if_neg h, beq_eq_false_iff_ne.mpr h]

/-- The keys of the entries ascend, so no key comes twice. -/
def KeysAscending (entries : List (String × α)) : Prop :=
  entries.Pairwise fun a b => a.1 < b.1

namespace KeysAscending

variable {entries : List (String × α)} {key : String} {value : α}

/-- A key that lies below all keys is not found. -/
theorem lookup_eq_none (h : ∀ entry ∈ entries, key < entry.1) : entries.lookup key = none := by
  rw [List.lookup_eq_none_iff]
  intro entry hentry
  have hne : key ≠ entry.1 := String.ne_of_lt (h entry hentry)
  simpa using hne

/-- Looking a key up finds the one entry that has it. -/
theorem lookup_eq_some_iff (h : KeysAscending entries) :
    entries.lookup key = some value ↔ (key, value) ∈ entries := by
  induction entries with
  | nil => simp
  | cons entry rest ih =>
      obtain ⟨other, kept⟩ := entry
      obtain ⟨hhead, htail⟩ := List.pairwise_cons.mp h
      rw [lookup_entry]
      by_cases hkey : key = other
      · subst hkey
        have hrest : (key, value) ∉ rest := by
          intro hmem
          exact String.lt_irrefl key (hhead _ hmem)
        simp [hrest, eq_comm]
      · simp [hkey, ih htail]

end KeysAscending

end FeedbackBoard
