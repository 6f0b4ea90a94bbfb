/-!
# Sorted lists

Listings are sorted by comparisons.  This module states once what a listing owes
to its comparison: it holds the same elements, it is in order, and where equal
elements are one element it does not depend on how the elements came.

Main definitions:

- `TotallyOrders`: the laws of a comparison, and what its outcomes mean.

Main results:

- `compare_eq_of_lt_iff_lt`: two comparisons agree if they put the same elements first.
- `TotallyOrders.of_trichotomy`: a lawful comparison with the right outcomes orders elements.
- `TotallyOrders.on`, `TotallyOrders.thenBy`: orders by a key, and by two orders in turn.
- `TotallyOrders.eq_of_perm`: elements are strictly sorted in one way only.
- `pairwise_sorted`: a sorted list is in order.
- `eq_sorted_iff`: the sorted list is the only one of the elements that is in order.
- `sorted_eq_of_perm`: sorting forgets the order in which distinct elements came.
- `eq_of_strictly_sorted`: a strictly sorted list is determined by its members.
-/

namespace FeedbackBoard

variable {α : Type}

/-! ## Comparisons in turn -/

/-- A comparison that falls back on a second one is transitive if both are. -/
theorem transCmp_then (first second : α → α → Ordering) [Std.TransCmp first]
    [Std.TransCmp second] : Std.TransCmp fun a b => (first a b).then (second a b) :=
  inferInstanceAs (Std.TransCmp (compareLex first second))

/-- Comparing by a key is transitive. -/
theorem transCmp_on {β : Type} (key : α → β) (cmp : β → β → Ordering) [Std.TransCmp cmp] :
    Std.TransCmp fun a b => cmp (key a) (key b) where
  eq_swap {a b} := by
    have hswap : cmp (key a) (key b) = (cmp (key b) (key a)).swap := Std.OrientedCmp.eq_swap
    exact hswap
  isLE_trans {a b c} hab hbc := by
    have hac : (cmp (key a) (key c)).isLE := Std.TransCmp.isLE_trans hab hbc
    exact hac

/-- Two oriented comparisons agree where one puts elements before each other as the other does. -/
theorem compare_eq_of_lt_iff_lt {β : Type} {cmp : α → α → Ordering} {cmp' : β → β → Ordering}
    [Std.OrientedCmp cmp] [Std.OrientedCmp cmp'] {a b : α} {c d : β}
    (hlt : cmp a b = .lt ↔ cmp' c d = .lt) (hgt : cmp b a = .lt ↔ cmp' d c = .lt) :
    cmp a b = cmp' c d := by
  cases h : cmp a b with
  | lt => exact (hlt.mp h).symm
  | gt => exact (Std.OrientedCmp.gt_of_lt (hgt.mp (Std.OrientedCmp.lt_of_gt h))).symm
  | eq =>
      cases h' : cmp' c d with
      | eq => rfl
      | lt =>
          rw [hlt.mpr h'] at h
          cases h
      | gt =>
          rw [Std.OrientedCmp.gt_of_lt (hgt.mpr (Std.OrientedCmp.lt_of_gt h'))] at h
          cases h

/-! ## Total orders -/

/-- Of two elements one is not behind the other. -/
theorem isLE_total (cmp : α → α → Ordering) [Std.OrientedCmp cmp] (a b : α) :
    (cmp a b).isLE ∨ (cmp b a).isLE := by
  have hswap : cmp b a = (cmp a b).swap := Std.OrientedCmp.eq_swap
  rw [hswap]
  cases cmp a b <;> decide

/--
A comparison puts elements in one order: it tells which come before which, and it
finds only those equal that are the same in this order.
-/
structure TotallyOrders (cmp : α → α → Ordering) (before same : α → α → Prop) : Prop where
  lt_iff : ∀ a b, cmp a b = .lt ↔ before a b
  eq_iff : ∀ a b, cmp a b = .eq ↔ same a b
  /-- The other way around elements are compared with the opposite outcome. -/
  opposite : ∀ a b, cmp b a = (cmp a b).swap
  reflexive : ∀ a, (cmp a a).isLE
  transitive : ∀ a b c, (cmp a b).isLE → (cmp b c).isLE → (cmp a c).isLE
  total : ∀ a b, (cmp a b).isLE ∨ (cmp b a).isLE
  antisymmetric : ∀ a b, (cmp a b).isLE → (cmp b a).isLE → same a b

namespace TotallyOrders

variable {cmp cmp' : α → α → Ordering} {before before' same same' : α → α → Prop}

/-- A lawful comparison orders elements by what its outcomes mean. -/
theorem of_transCmp [Std.TransCmp cmp] (hlt : ∀ a b, cmp a b = .lt ↔ before a b)
    (heq : ∀ a b, cmp a b = .eq ↔ same a b) : TotallyOrders cmp before same where
  lt_iff := hlt
  eq_iff := heq
  opposite _ _ := Std.OrientedCmp.eq_swap
  reflexive _ := Std.ReflCmp.isLE_rfl
  transitive _ _ _ hab hbc := Std.TransCmp.isLE_trans hab hbc
  total := isLE_total cmp
  antisymmetric a b hab hba := (heq a b).mp (Std.OrientedCmp.isLE_antisymm hab hba)

/-- It suffices to know the outcomes where an element comes first, and where two are the same. -/
theorem of_trichotomy [Std.TransCmp cmp] (hlt : ∀ {a b}, before a b → cmp a b = .lt)
    (heq : ∀ {a b}, same a b → cmp a b = .eq)
    (htrichotomy : ∀ a b, before a b ∨ same a b ∨ before b a) : TotallyOrders cmp before same := by
  refine .of_transCmp (fun a b => ⟨fun h => ?_, hlt⟩) fun a b => ⟨fun h => ?_, heq⟩
  · rcases htrichotomy a b with hab | hsame | hba
    · exact hab
    · rw [heq hsame] at h
      cases h
    · exact absurd (hlt hba) (Std.OrientedCmp.not_lt_of_lt h)
  · rcases htrichotomy a b with hab | hsame | hba
    · rw [hlt hab] at h
      cases h
    · exact hsame
    · have hless := hlt hba
      rw [Std.OrientedCmp.eq_symm h] at hless
      cases hless

/-- The laws of an order are those of a lawful comparison. -/
theorem transCmp (h : TotallyOrders cmp before same) : Std.TransCmp cmp where
  eq_swap := h.opposite _ _
  isLE_trans := h.transitive _ _ _

/-- A list is strictly sorted if every element comes before all that follow it. -/
theorem pairwise_iff (h : TotallyOrders cmp before same) {l : List α} :
    (l.Pairwise fun a b => cmp a b = .lt) ↔ l.Pairwise before := by
  simp only [h.lt_iff]

/-- Of two elements only one comes before the other. -/
theorem asymm (h : TotallyOrders cmp before same) {a b : α} (hab : before a b) :
    ¬ before b a := by
  have := h.transCmp
  rw [← h.lt_iff] at hab ⊢
  exact Std.OrientedCmp.not_lt_of_lt hab

/-- Lists of the same elements, each before all that follow it, are the same. -/
theorem eq_of_perm (h : TotallyOrders cmp before same) {l₁ l₂ : List α} (hperm : l₁.Perm l₂)
    (h₁ : l₁.Pairwise before) (h₂ : l₂.Pairwise before) : l₁ = l₂ :=
  hperm.eq_of_pairwise (fun _ _ _ _ hab hba => absurd hba (h.asymm hab)) h₁ h₂

/-- Elements are ordered by a key as their keys are. -/
theorem on {β : Type} (h : TotallyOrders cmp before same) (key : β → α) :
    TotallyOrders (fun a b => cmp (key a) (key b)) (fun a b => before (key a) (key b))
      fun a b => same (key a) (key b) :=
  have := h.transCmp
  have := transCmp_on key cmp
  .of_transCmp (fun a b => h.lt_iff (key a) (key b)) fun a b => h.eq_iff (key a) (key b)

/-- A second order decides between elements that are the same in the first one. -/
theorem thenBy (h : TotallyOrders cmp before same) (h' : TotallyOrders cmp' before' same') :
    TotallyOrders (fun a b => (cmp a b).then (cmp' a b))
      (fun a b => before a b ∨ same a b ∧ before' a b) fun a b => same a b ∧ same' a b := by
  have := h.transCmp
  have := h'.transCmp
  have := transCmp_then cmp cmp'
  refine .of_transCmp (fun a b => ?_) fun a b => ?_
  · rw [Ordering.then_eq_lt, h.lt_iff, h.eq_iff, h'.lt_iff]
  · rw [Ordering.then_eq_eq, h.eq_iff, h'.eq_iff]

end TotallyOrders

/-! ## Sorting by a comparison -/

/-- Two orders that agree on the elements sort them alike. -/
theorem mergeSort_congr {le le' : α → α → Bool} {l : List α}
    (h : ∀ a ∈ l, ∀ b ∈ l, le a b = le' a b) : l.mergeSort le = l.mergeSort le' := by
  have hmap := List.map_mergeSort (f := fun a : α => a) (r := le) (s := le') h
  rwa [List.map_id', List.map_id'] at hmap

section Comparison

variable (cmp : α → α → Ordering) [Std.TransCmp cmp]

/-- A sorted list is in order. -/
theorem pairwise_sorted (l : List α) :
    (l.mergeSort fun a b => (cmp a b).isLE).Pairwise fun a b => (cmp a b).isLE := by
  apply List.pairwise_mergeSort
  · intro a b c hab hbc
    exact Std.TransCmp.isLE_trans hab hbc
  · intro a b
    exact (Bool.or_eq_true _ _).mpr (isLE_total cmp a b)

/-- If equal elements are one element, only one list of the elements is in order. -/
theorem eq_sorted_iff {l rows : List α}
    (hdistinct : ∀ a ∈ rows, ∀ b ∈ rows, cmp a b = .eq → a = b) :
    (l.Perm rows ∧ l.Pairwise fun a b => (cmp a b).isLE) ↔
      l = rows.mergeSort fun a b => (cmp a b).isLE := by
  constructor
  · rintro ⟨hperm, hordered⟩
    apply List.Perm.eq_of_pairwise _ hordered (pairwise_sorted cmp rows)
    · exact hperm.trans (List.mergeSort_perm _ _).symm
    · intro a b ha hb hab hba
      have ha : a ∈ rows := hperm.mem_iff.mp ha
      have hb : b ∈ rows := List.mem_mergeSort.mp hb
      exact hdistinct a ha b hb (Std.OrientedCmp.isLE_antisymm hab hba)
  · rintro rfl
    exact ⟨List.mergeSort_perm _ _, pairwise_sorted cmp rows⟩

/-- Sorting forgets the order in which the elements came, if equal elements are one element. -/
theorem sorted_eq_of_perm {l₁ l₂ : List α} (hperm : l₁.Perm l₂)
    (hdistinct : ∀ a ∈ l₁, ∀ b ∈ l₁, cmp a b = .eq → a = b) :
    (l₁.mergeSort fun a b => (cmp a b).isLE) = l₂.mergeSort fun a b => (cmp a b).isLE := by
  have hother : (l₂.mergeSort fun a b => (cmp a b).isLE).Perm l₁ :=
    (List.mergeSort_perm _ _).trans hperm.symm
  exact ((eq_sorted_iff cmp hdistinct).mp ⟨hother, pairwise_sorted cmp l₂⟩).symm

end Comparison

/-! ## Strict order -/

/-- A strictly sorted list is determined by its members. -/
theorem eq_of_strictly_sorted {lt : α → α → Prop} (hasymm : ∀ a b, lt a b → ¬ lt b a)
    {l₁ l₂ : List α} (h₁ : l₁.Pairwise lt) (h₂ : l₂.Pairwise lt)
    (hmem : ∀ a, a ∈ l₁ ↔ a ∈ l₂) : l₁ = l₂ := by
  have hne : ∀ {a b}, lt a b → a ≠ b := by
    intro a b hab heq
    subst heq
    exact hasymm a a hab hab
  have hperm : l₁.Perm l₂ :=
    (List.perm_ext_iff_of_nodup (h₁.imp hne) (h₂.imp hne)).mpr hmem
  apply List.Perm.eq_of_pairwise _ h₁ h₂ hperm
  intro a b _ _ hab hba
  exact absurd hba (hasymm a b hab)

end FeedbackBoard
