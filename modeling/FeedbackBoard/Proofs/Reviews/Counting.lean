import FeedbackBoard.Proofs.Order.Keyed
import FeedbackBoard.Reviews.Leaderboard
import Mathlib.Algebra.Ring.Nat
import Mathlib.Data.List.Induction

/-!
# Counting votes

The tally is a map from models to their votes.  Adding a vote changes the entry
of its model and no other, so after all votes every model that was voted for has
one entry, which counts its votes of either kind.

Main results:

- `Tally.lookup_add`: what one more vote does to the entries.
- `Tally.lookup_ofVotes`: the entries after all votes.
- `Tally.sum_ofVotes`: every vote is counted once.
-/

namespace FeedbackBoard

/-! ## Votes of one model -/

/-- The votes that a list holds for a model. -/
def Votes.cast (votes : List Vote) (model : String) : Votes where
  positive := votes.count ⟨model, .positive⟩
  negative := votes.count ⟨model, .negative⟩

namespace Votes

@[simp]
theorem total_zero : zero.total = 0 :=
  rfl

theorem total_add (votes : Votes) (rating : Rating) :
    (votes.add rating).total = votes.total + 1 := by
  cases rating with
  | positive => simp only [add, total]; omega
  | negative => simp only [add, total]; omega

/-- One more vote counts for its own model. -/
theorem cast_append_self (votes : List Vote) (model : String) (rating : Rating) :
    cast (votes ++ [⟨model, rating⟩]) model = (cast votes model).add rating := by
  cases rating <;> simp [cast, add, List.count_append]

/-- One more vote counts for no other model. -/
theorem cast_append_of_ne (votes : List Vote) {model other : String} (hne : model ≠ other)
    (rating : Rating) : cast (votes ++ [⟨model, rating⟩]) other = cast votes other := by
  simp [cast, List.count_append, hne]

/-- A model has votes if one of them names it. -/
theorem cast_eq_zero_iff (votes : List Vote) (model : String) :
    cast votes model = zero ↔ ∀ rating, (⟨model, rating⟩ : Vote) ∉ votes := by
  constructor
  · intro h rating
    simp only [cast, zero, Votes.mk.injEq, List.count_eq_zero] at h
    cases rating with
    | positive => exact h.1
    | negative => exact h.2
  · intro h
    simp [cast, zero, List.count_eq_zero, h]

end Votes

/-! ## One more vote -/

namespace Tally

variable {tally : Tally}

/-- A vote brings no key but that of its model. -/
theorem key_of_mem_add {model : String} {rating : Rating} {entry : String × Votes}
    (h : entry ∈ tally.add model rating) :
    entry.1 = model ∨ ∃ kept ∈ tally, entry.1 = kept.1 := by
  induction tally with
  | nil =>
      left
      simp only [add, List.mem_singleton] at h
      rw [h]
  | cons first rest ih =>
      obtain ⟨other, votes⟩ := first
      rw [add] at h
      split_ifs at h with hlt heq
      · rcases List.mem_cons.mp h with rfl | hold
        · exact Or.inl rfl
        · exact Or.inr ⟨entry, hold, rfl⟩
      · rcases List.mem_cons.mp h with rfl | hold
        · exact Or.inl heq.symm
        · exact Or.inr ⟨entry, List.mem_cons_of_mem _ hold, rfl⟩
      · rcases List.mem_cons.mp h with rfl | hnew
        · exact Or.inr ⟨_, List.mem_cons_self, rfl⟩
        · rcases ih hnew with hmodel | ⟨kept, hkept, hkey⟩
          · exact Or.inl hmodel
          · exact Or.inr ⟨kept, List.mem_cons_of_mem _ hkept, hkey⟩

/-- Adding a vote keeps the keys ascending. -/
theorem keysAscending_add (h : KeysAscending tally) (model : String) (rating : Rating) :
    KeysAscending (tally.add model rating) := by
  induction tally with
  | nil => exact List.pairwise_singleton _ _
  | cons first rest ih =>
      obtain ⟨other, votes⟩ := first
      obtain ⟨hhead, htail⟩ := List.pairwise_cons.mp h
      rw [add]
      split_ifs with hlt heq
      · refine List.pairwise_cons.mpr ⟨?_, h⟩
        intro entry hentry
        rcases List.mem_cons.mp hentry with rfl | hrest
        · exact hlt
        · exact String.lt_trans hlt (hhead entry hrest)
      · exact List.pairwise_cons.mpr ⟨hhead, htail⟩
      · refine List.pairwise_cons.mpr ⟨?_, ih htail⟩
        intro entry hentry
        rcases key_of_mem_add hentry with hmodel | ⟨kept, hkept, hkey⟩
        · have hle : other ≤ model := String.not_lt.mp hlt
          have hne : ¬ model ≤ other := fun hge => heq (String.le_antisymm hge hle)
          rw [hmodel]
          exact String.not_le.mp hne
        · rw [hkey]
          exact hhead kept hkept

/-- Adding a vote sets the entry of its model and keeps all others. -/
theorem lookup_add (h : KeysAscending tally) (model other : String) (rating : Rating) :
    (tally.add model rating).lookup other =
      if other = model then some (((tally.lookup model).getD .zero).add rating)
      else tally.lookup other := by
  induction tally with
  | nil => simp [add, lookup_entry]
  | cons first rest ih =>
      obtain ⟨key, votes⟩ := first
      obtain ⟨hhead, htail⟩ := List.pairwise_cons.mp h
      by_cases hlt : model < key
      · have hnone : ((key, votes) :: rest).lookup model = none := by
          apply KeysAscending.lookup_eq_none
          intro entry hentry
          rcases List.mem_cons.mp hentry with rfl | hrest
          · exact hlt
          · exact String.lt_trans hlt (hhead entry hrest)
        rw [add, if_pos hlt, lookup_entry, hnone]
        rfl
      · rw [add, if_neg hlt]
        by_cases heq : model = key
        · subst heq
          by_cases hother : other = model
          · simp [hother]
          · simp [lookup_entry, hother]
        · have hne : key ≠ model := Ne.symm heq
          rw [if_neg heq, lookup_entry, ih htail, lookup_entry, lookup_entry, if_neg heq]
          by_cases hother : other = key
          · simp [hother, hne]
          · simp [hother]

/-- Adding a vote adds one to the sum of all totals. -/
theorem sum_add (tally : Tally) (model : String) (rating : Rating) :
    ((tally.add model rating).map fun entry => entry.2.total).sum =
      (tally.map fun entry => entry.2.total).sum + 1 := by
  induction tally with
  | nil => simp [add, Votes.total_add]
  | cons first rest ih =>
      obtain ⟨other, votes⟩ := first
      rw [add]
      split_ifs
      · simp only [List.map_cons, List.sum_cons, Votes.total_add, Votes.total_zero]
        omega
      · simp only [List.map_cons, List.sum_cons, Votes.total_add]
        omega
      · simp only [List.map_cons, List.sum_cons, ih]
        omega

/-! ## All votes -/

/-- The tally of a list of votes. -/
def ofVotes (votes : List Vote) : Tally :=
  votes.foldl (fun tally vote => tally.add vote.model vote.rating) []

theorem ofVotes_append (votes : List Vote) (vote : Vote) :
    ofVotes (votes ++ [vote]) = (ofVotes votes).add vote.model vote.rating := by
  simp [ofVotes, List.foldl_append]

theorem keysAscending_ofVotes (votes : List Vote) : KeysAscending (ofVotes votes) := by
  induction votes using List.reverseRecOn with
  | nil => exact List.Pairwise.nil
  | append_singleton votes vote ih =>
      rw [ofVotes_append]
      exact keysAscending_add ih vote.model vote.rating

/-- After all votes a model has an entry if one of them names it, and the entry counts them. -/
theorem lookup_ofVotes (votes : List Vote) (model : String) :
    (ofVotes votes).lookup model =
      if Votes.cast votes model = .zero then none else some (Votes.cast votes model) := by
  induction votes using List.reverseRecOn with
  | nil => rfl
  | append_singleton votes vote ih =>
      obtain ⟨named, rating⟩ := vote
      rw [ofVotes_append, lookup_add (keysAscending_ofVotes votes)]
      by_cases hmodel : model = named
      · subst hmodel
        have hne : (Votes.cast votes model).add rating ≠ .zero := by
          intro hzero
          have htotal := Votes.total_add (Votes.cast votes model) rating
          rw [hzero] at htotal
          simp at htotal
        rw [if_pos rfl, Votes.cast_append_self, if_neg hne, ih]
        split_ifs with hzero
        · rw [hzero]
          rfl
        · rfl
      · rw [if_neg hmodel, ih, Votes.cast_append_of_ne votes (Ne.symm hmodel)]

/-- An entry of the tally counts the votes of its model, of which there are some. -/
theorem mem_ofVotes_iff (votes : List Vote) (model : String) (counted : Votes) :
    (model, counted) ∈ ofVotes votes ↔
      counted = Votes.cast votes model ∧ ∃ rating, (⟨model, rating⟩ : Vote) ∈ votes := by
  have hsome : (∃ rating, (⟨model, rating⟩ : Vote) ∈ votes) ↔ Votes.cast votes model ≠ .zero := by
    rw [Ne, Votes.cast_eq_zero_iff]
    push Not
    rfl
  rw [← (keysAscending_ofVotes votes).lookup_eq_some_iff, lookup_ofVotes, hsome]
  split_ifs with hzero
  · simp [hzero]
  · simp [hzero, eq_comm]

/-- Every vote is counted once. -/
theorem sum_ofVotes (votes : List Vote) :
    ((ofVotes votes).map fun entry => entry.2.total).sum = votes.length := by
  induction votes using List.reverseRecOn with
  | nil => rfl
  | append_singleton votes vote ih =>
      rw [ofVotes_append, sum_add, ih, List.length_append, List.length_singleton]

end Tally

end FeedbackBoard
