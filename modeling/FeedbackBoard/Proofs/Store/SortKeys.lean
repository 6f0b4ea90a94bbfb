import FeedbackBoard.Database.Cell
import FeedbackBoard.Proofs.Binary64.Order
import FeedbackBoard.Proofs.Binary64.Rounding
import FeedbackBoard.Proofs.Store.KeyedRows
import FeedbackBoard.Store.SortKey
import Mathlib.Data.List.Pairwise

/-!
# Orders of pages

Rows in memory are ordered by a key and rows of a database by a cell; both come
in either direction, and the id breaks ties.  Both orders are lawful, so a page
does not depend on how the rows came.  They put rows in the same places in both
directions exactly if they compare any two of them alike, and that is so wherever
the cell shows what the key says.

Main definitions:

- `Direction.order`: a comparison in a direction, with ties broken by the id.
- `SortKey.ShownBy`: a cell shows what a key says.

Main results:

- the instances that make keys and cells lawful comparisons.
- `Direction.sorted_eq_iff`: when two comparisons sort rows alike.
- `SortKey.ShownBy.compare_eq`: keys are compared as the cells that show them.
-/

namespace FeedbackBoard

/-! ## Directions -/

namespace Direction

variable {ρ : Type} (cmp : ρ → ρ → Ordering) (id : ρ → String)

/-- A comparison in a direction, with ties broken by the ascending id. -/
def order (direction : Direction) (a b : ρ) : Ordering :=
  (direction.apply (cmp a b)).then (compare (id a) (id b))

/-- A comparison stays transitive in a direction. -/
theorem transCmp_apply (direction : Direction) [Std.TransCmp cmp] :
    Std.TransCmp fun a b => direction.apply (cmp a b) := by
  cases direction with
  | ascending => exact inferInstanceAs (Std.TransCmp cmp)
  | descending =>
      have hswap : (fun a b => (cmp a b).swap) = fun a b => cmp b a := by
        funext a b
        have horiented : cmp b a = (cmp a b).swap := Std.OrientedCmp.eq_swap
        exact horiented.symm
      have hdown : Std.TransCmp fun a b => (cmp a b).swap := by
        rw [hswap]
        infer_instance
      exact hdown

instance transCmp_order (direction : Direction) [Std.TransCmp cmp] :
    Std.TransCmp (direction.order cmp id) :=
  have := transCmp_apply cmp direction
  have : Std.TransCmp fun a b : ρ => compare (id a) (id b) := transCmp_on id compare
  transCmp_then (fun a b => direction.apply (cmp a b)) fun a b => compare (id a) (id b)

variable {cmp id} {rows : List ρ} {direction : Direction} {a b : ρ}

theorem order_self [Std.TransCmp cmp] (a : ρ) : direction.order cmp id a a = .eq :=
  Std.ReflCmp.compare_self

theorem order_swap [Std.TransCmp cmp] (a b : ρ) :
    direction.order cmp id b a = (direction.order cmp id a b).swap :=
  Std.OrientedCmp.eq_swap

/-- Rows that are equal in the order of a page have one id. -/
theorem id_eq_of_order_eq (h : direction.order cmp id a b = .eq) : id a = id b :=
  Std.LawfulEqCmp.eq_of_compare (Ordering.then_eq_eq.mp h).2

/-- A page does not depend on how the rows came. -/
theorem sorted_eq_of_perm [Std.TransCmp cmp] {other : List ρ} (h : DistinctIds id rows)
    (hperm : rows.Perm other) :
    (rows.mergeSort fun a b => (direction.order cmp id a b).isLE) =
      other.mergeSort fun a b => (direction.order cmp id a b).isLE :=
  FeedbackBoard.sorted_eq_of_perm (direction.order cmp id) hperm fun _ ha _ hb heq =>
    h.eq_of_id_eq ha hb (id_eq_of_order_eq heq)

/-- Of two rows in a page the earlier one comes first in the order. -/
theorem pairwise_sorted_lt (cmp : ρ → ρ → Ordering) [Std.TransCmp cmp] (direction : Direction)
    (h : DistinctIds id rows) :
    (rows.mergeSort fun a b => (direction.order cmp id a b).isLE).Pairwise fun a b =>
      direction.order cmp id a b = .lt := by
  have hnodup : (rows.mergeSort fun a b => (direction.order cmp id a b).isLE).Nodup :=
    (List.mergeSort_perm rows _).nodup_iff.mpr h.nodup
  have hsorted := (pairwise_sorted (direction.order cmp id) rows).and hnodup
  refine hsorted.imp_of_mem ?_
  rintro a b ha hb ⟨hle, hne⟩
  have hdistinct : direction.order cmp id a b ≠ .eq := fun heq =>
    hne (h.eq_of_id_eq (List.mem_mergeSort.mp ha) (List.mem_mergeSort.mp hb)
      (id_eq_of_order_eq heq))
  exact (Ordering.isLE_iff_eq_lt_or_eq_eq.mp hle).resolve_right hdistinct

/-- Two orders that put rows in the same places are the same order of these rows. -/
theorem order_eq_of_sorted_eq {cmp₁ cmp₂ : ρ → ρ → Ordering} [Std.TransCmp cmp₁]
    [Std.TransCmp cmp₂] (h : DistinctIds id rows)
    (hsorted : (rows.mergeSort fun a b => (direction.order cmp₁ id a b).isLE) =
      rows.mergeSort fun a b => (direction.order cmp₂ id a b).isLE)
    (ha : a ∈ rows) (hb : b ∈ rows) :
    direction.order cmp₁ id a b = direction.order cmp₂ id a b := by
  -- In the sorted list all pairs are alike, and so are the pairs the other way around.
  let Alike (c d : ρ) : Prop := direction.order cmp₁ id c d = direction.order cmp₂ id c d
  have hsymm : Std.Symm Alike := by
    constructor
    intro c d hcd
    exact (order_swap c d).trans ((congrArg Ordering.swap hcd).trans (order_swap c d).symm)
  have hrefl : ∀ c ∈ rows.mergeSort fun a b => (direction.order cmp₁ id a b).isLE, Alike c c :=
    fun c _ => (order_self c).trans (order_self c).symm
  have hpairs : (rows.mergeSort fun a b => (direction.order cmp₁ id a b).isLE).Pairwise Alike := by
    have hfirst := pairwise_sorted_lt cmp₁ direction h
    have hsecond := pairwise_sorted_lt cmp₂ direction h
    rw [← hsorted] at hsecond
    refine (hfirst.and hsecond).imp ?_
    rintro c d ⟨hc, hd⟩
    exact hc.trans hd.symm
  exact List.Pairwise.forall_of_forall hrefl hpairs (List.mem_mergeSort.mpr ha)
    (List.mem_mergeSort.mpr hb)

/-- Two orders that agree on rows put them in the same places. -/
theorem sorted_eq_of_order_eq {cmp₁ cmp₂ : ρ → ρ → Ordering}
    (hsame : ∀ a ∈ rows, ∀ b ∈ rows, direction.order cmp₁ id a b = direction.order cmp₂ id a b) :
    (rows.mergeSort fun a b => (direction.order cmp₁ id a b).isLE) =
      rows.mergeSort fun a b => (direction.order cmp₂ id a b).isLE := by
  exact mergeSort_congr fun a ha b hb => congrArg Ordering.isLE (hsame a ha b hb)

/-- Two comparisons sort rows alike in both directions exactly if they compare them alike. -/
theorem sorted_eq_iff {cmp₁ cmp₂ : ρ → ρ → Ordering} [Std.TransCmp cmp₁]
    [Std.TransCmp cmp₂] (h : DistinctIds id rows) :
    (∀ direction : Direction, (rows.mergeSort fun a b => (direction.order cmp₁ id a b).isLE) =
        rows.mergeSort fun a b => (direction.order cmp₂ id a b).isLE) ↔
      ∀ a ∈ rows, ∀ b ∈ rows, cmp₁ a b = cmp₂ a b := by
  constructor
  · intro hsorted a ha b hb
    by_cases hid : id a = id b
    · rw [h.eq_of_id_eq ha hb hid]
      have hfirst : cmp₁ b b = .eq := Std.ReflCmp.compare_self
      have hsecond : cmp₂ b b = .eq := Std.ReflCmp.compare_self
      rw [hfirst, hsecond]
    · have hup := order_eq_of_sorted_eq h (hsorted .ascending) ha hb
      have hdown := order_eq_of_sorted_eq h (hsorted .descending) ha hb
      have htie : compare (id a) (id b) ≠ .eq := fun heq =>
        hid (Std.LawfulEqCmp.eq_of_compare heq)
      -- The tie break hides one of three outcomes, and in the other direction another one.
      have hboth : ∀ x y tie : Ordering, tie ≠ .eq → x.then tie = y.then tie →
          x.swap.then tie = y.swap.then tie → x = y := by decide
      exact hboth _ _ _ htie hup hdown
  · intro hcmp direction
    refine sorted_eq_of_order_eq fun a ha b hb => ?_
    rw [order, order, hcmp a ha b hb]

end Direction

/-! ## Keys -/

namespace SortKey

/-- The place of a number among the numbers. -/
def place : SortKey → Int
  | number x => x.place
  | _ => 0

/-- The text of a text. -/
def word : SortKey → String
  | text s => s
  | _ => ""

/-- Keys are compared by their types, then by their places, then by their texts. -/
theorem compare_eq_then (a b : SortKey) :
    a.compare b = (Ord.compare a.rank b.rank).then
      ((Ord.compare a.place b.place).then (Ord.compare a.word b.word)) := by
  cases a <;> cases b
  case number.number x y =>
      simp only [compare, rank, place, word, Binary64.totalOrder_eq_compare]
      cases Ord.compare x.place y.place <;> rfl
  all_goals rfl

instance : Std.TransCmp compare := by
  have hcompare : compare = fun a b => (Ord.compare a.rank b.rank).then
      ((Ord.compare a.place b.place).then (Ord.compare a.word b.word)) := by
    funext a b
    exact compare_eq_then a b
  have := transCmp_on rank Ord.compare
  have := transCmp_on place Ord.compare
  have := transCmp_on word Ord.compare
  have := transCmp_then (fun a b : SortKey => Ord.compare a.place b.place)
    fun a b => Ord.compare a.word b.word
  rw [hcompare]
  exact transCmp_then (fun a b : SortKey => Ord.compare a.rank b.rank) _

end SortKey

/-! ## Cells -/

namespace Cell

/-- The code points of a text. -/
def codes : Cell → CodePoints
  | text codes => codes
  | _ => []

/-- Cells are compared by their types, then by their magnitudes, then by their code points. -/
theorem compare_eq_then (a b : Cell) :
    a.compare b = (Ord.compare a.typeRank b.typeRank).then
      ((Ord.compare a.units b.units).then (Ord.compare a.codes b.codes)) := by
  cases a <;> cases b
  case text.text s t => rfl
  case null.text | integer.text | real.text | text.null | text.integer | text.real => rfl
  all_goals
    have hempty : Ord.compare ([] : CodePoints) [] = .eq := rfl
    simp only [compare, codes, hempty, Ordering.then_eq]

/-- Numbers have no code points. -/
theorem codes_of_typeRank {cell : Cell} (h : cell.typeRank = 1) : cell.codes = [] := by
  cases cell with
  | text codes => cases h
  | null | integer _ | real _ _ => rfl

instance : Std.TransCmp compare := by
  have hcompare : compare = fun a b => (Ord.compare a.typeRank b.typeRank).then
      ((Ord.compare a.units b.units).then (Ord.compare a.codes b.codes)) := by
    funext a b
    exact compare_eq_then a b
  have := transCmp_on typeRank Ord.compare
  have := transCmp_on units Ord.compare
  have := transCmp_on codes Ord.compare
  have := transCmp_then (fun a b : Cell => Ord.compare a.units b.units)
    fun a b => Ord.compare a.codes b.codes
  rw [hcompare]
  exact transCmp_then (fun a b : Cell => Ord.compare a.typeRank b.typeRank) _

end Cell

/-! ## Cells that show keys -/

/-- Texts are ordered as their code points are. -/
theorem CodePoints.compare_ofString (s t : String) :
    compare (ofString s) (ofString t) = compare s t := by
  have hchars : ∀ l m : List Char, compare (ofChars l) (ofChars m) = .lt ↔ l < m := by
    intro l
    induction l with
    | nil =>
        intro m
        cases m <;> simp [ofChars]
    | cons c l ih =>
        intro m
        cases m with
        | nil => simp [ofChars]
        | cons d m =>
            have hcode : c.toNat = d.toNat ↔ c = d := Char.toNat_inj
            have hhead : compare c.toNat d.toNat = .lt ↔ c < d := Nat.compare_eq_lt
            have htail := ih m
            rw [ofChars, ofChars] at htail
            rw [ofChars, ofChars, List.map_cons, List.map_cons, List.compare_cons_cons,
              Ordering.then_eq_lt, List.cons_lt_cons_iff, hhead, htail, Nat.compare_eq_eq, hcode]
  have htext : ∀ s t : String, compare (ofString s) (ofString t) = .lt ↔ compare s t = .lt := by
    intro s t
    have hcompare : compare s t = .lt ↔ s < t := compareOfLessAndEq_eq_lt
    rw [hcompare]
    exact hchars s.toList t.toList
  exact compare_eq_of_lt_iff_lt (htext s t) (htext t s)

namespace Binary64

/-- The number, counted in units. -/
def amount (x : Binary64) : Int :=
  if x.negative then -(units x.rank : Int) else units x.rank

/-- The number is not minus zero. -/
def NotMinusZero (x : Binary64) : Prop :=
  x.rank = 0 → x.negative = false

/-- A number lies below another if it is less, or if it is minus zero and the other plus zero. -/
theorem place_lt_iff {x y : Binary64} : x.place < y.place ↔
    x.amount < y.amount ∨ x.amount = y.amount ∧ x.negative = true ∧ y.negative = false := by
  have hunits : ∀ {r s : Nat}, units r < units s ↔ r < s := fun {r s} => by
    rw [← Nat.not_le, units_le_units_iff, Nat.not_le]
  have hxy : units x.rank < units y.rank ↔ x.rank < y.rank := hunits
  have hyx : units y.rank < units x.rank ↔ y.rank < x.rank := hunits
  cases hnx : x.negative <;> cases hny : y.negative <;>
    simp only [place, amount, hnx, hny, if_true, if_false, Bool.false_eq_true, Bool.true_eq_false,
      and_false, and_true, or_false] <;>
    omega

/-- A number that is no minus zero lies below another exactly if it is less. -/
theorem NotMinusZero.place_lt_iff {x y : Binary64} (hx : x.NotMinusZero) :
    x.place < y.place ↔ x.amount < y.amount := by
  rw [Binary64.place_lt_iff]
  refine or_iff_left ?_
  rintro ⟨hamount, hxsign, hysign⟩
  -- Equal amounts of different signs are zeros.
  have hzero : units 0 = 0 := rfl
  have hunits : units x.rank = 0 := by
    simp only [amount, hxsign, hysign, if_true, Bool.false_eq_true, if_false] at hamount
    omega
  have hrank : x.rank ≤ 0 := units_le_units_iff.mp (by rw [hunits, hzero])
  rw [hx (Nat.le_zero.mp hrank)] at hxsign
  cases hxsign

/-- Numbers that are no minus zero are ordered by their magnitudes. -/
theorem totalOrder_eq_compare_amount {x y : Binary64} (hx : x.NotMinusZero) (hy : y.NotMinusZero) :
    totalOrder x y = compare x.amount y.amount := by
  rw [totalOrder_eq_compare]
  apply compare_eq_of_lt_iff_lt
  · rw [Int.compare_eq_lt, Int.compare_eq_lt, hx.place_lt_iff]
  · rw [Int.compare_eq_lt, Int.compare_eq_lt, hy.place_lt_iff]

end Binary64

/-- A cell shows what a key says: nothing, the same number, or the same text. -/
def SortKey.ShownBy : SortKey → Cell → Prop
  | absent, cell => cell = .null
  | number x, cell => cell.typeRank = 1 ∧ cell.units = x.amount ∧ x.NotMinusZero
  | text s, cell => cell = .text (.ofString s)

namespace SortKey.ShownBy

variable {a b : SortKey} {c d : Cell}

theorem rank_eq (h : a.ShownBy c) : a.rank = c.typeRank := by
  cases a with
  | absent => rw [show c = .null from h]; rfl
  | number x => exact h.1.symm
  | text s => rw [show c = .text (.ofString s) from h]; rfl

/-- Numbers are compared as the cells that show them. -/
theorem compare_number {x y : Binary64} (hx : (number x).ShownBy c) (hy : (number y).ShownBy d) :
    (number x).compare (number y) = c.compare d := by
  obtain ⟨hctype, hcunits, hxsign⟩ := hx
  obtain ⟨hdtype, hdunits, hysign⟩ := hy
  have htypes : Ord.compare c.typeRank d.typeRank = .eq := by
    rw [hctype, hdtype]
    rfl
  have hcodes : Ord.compare c.codes d.codes = .eq := by
    rw [Cell.codes_of_typeRank hctype, Cell.codes_of_typeRank hdtype]
    rfl
  rw [Cell.compare_eq_then, htypes, hcodes, hcunits, hdunits, Ordering.eq_then, Ordering.then_eq]
  exact Binary64.totalOrder_eq_compare_amount hxsign hysign

/-- Keys are compared as the cells that show them. -/
theorem compare_eq (ha : a.ShownBy c) (hb : b.ShownBy d) : a.compare b = c.compare d := by
  rcases Nat.lt_trichotomy a.rank b.rank with hlt | heq | hgt
  · rw [SortKey.compare_eq_then, Cell.compare_eq_then, ← ha.rank_eq, ← hb.rank_eq,
      Nat.compare_eq_lt.mpr hlt]
    rfl
  · cases a with
    | absent =>
        cases b with
        | absent =>
            rw [show c = .null from ha, show d = .null from hb]
            rfl
        | number _ | text _ => cases heq
    | number x =>
        cases b with
        | number y => exact compare_number ha hb
        | absent | text _ => cases heq
    | text s =>
        cases b with
        | text t =>
            rw [show c = .text (.ofString s) from ha, show d = .text (.ofString t) from hb]
            exact (CodePoints.compare_ofString s t).symm
        | absent | number _ => cases heq
  · rw [SortKey.compare_eq_then, Cell.compare_eq_then, ← ha.rank_eq, ← hb.rank_eq,
      Nat.compare_eq_gt.mpr hgt]
    rfl

end SortKey.ShownBy

/-- Integers up to `2 ^ 53` are shown by themselves. -/
theorem SortKey.shownBy_integer {n : Int} (h : n.natAbs ≤ 2 ^ 53) :
    (number (.ofInt n)).ShownBy (.integer n) := by
  have hrank : Binary64.naturalRank n.natAbs < Binary64.infinityRank :=
    Nat.lt_of_le_of_lt (Binary64.naturalRank_mono h) (by decide +kernel)
  have hunits := Binary64.units_naturalRank h
  have hnumber : Binary64.ofInt n = ⟨decide (n < 0), Binary64.naturalRank n.natAbs, hrank⟩ :=
    dif_pos hrank
  rw [hnumber]
  refine ⟨rfl, ?_, ?_⟩
  · simp only [Binary64.amount, Cell.units, hunits, Int.natCast_mul]
    by_cases hnegative : n < 0
    · rw [if_pos (decide_eq_true hnegative), Int.ofNat_natAbs_of_nonpos (Int.le_of_lt hnegative),
        Int.neg_mul, Int.neg_neg]
    · rw [if_neg (by simpa using hnegative), Int.natAbs_of_nonneg (Int.not_lt.mp hnegative)]
  · intro hzero
    have hmagnitude : n.natAbs * Binary64.one = 0 := by
      rw [← hunits, show Binary64.naturalRank n.natAbs = 0 from hzero]
      rfl
    have hone : Binary64.one ≠ 0 := Nat.ne_of_gt (Binary64.powerOfTwo_pos 1074)
    have hn : n.natAbs = 0 := (Nat.mul_eq_zero.mp hmagnitude).resolve_right hone
    have hnegative : ¬ n < 0 := by omega
    exact decide_eq_false hnegative

end FeedbackBoard
