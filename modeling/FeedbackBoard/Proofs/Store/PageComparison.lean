import FeedbackBoard.Proofs.Store.Pages
import FeedbackBoard.Proofs.Text.ByteOrder

/-!
# The comparison of rows in memory

Pages of rows in memory are sorted by one comparison.  It compares the types of keys,
the values of numbers and the bytes of texts, turns the outcome around for descending
pages, and lets the ids decide between rows of one key, always ascending.  What it has
to say is written down here without comparing: which keys come before which and which
are one.  All steps keep the laws of a total order, so sorting rows with distinct ids
leaves no choice, whatever the order in which they are held.

Main definitions:

- `SortKey.Precedes`, `SortKey.IsSame`: which keys come first, and which are one.
- `Feedback.Precedes`, `Feedback.IsTied`: which rows come first on a page, and which tie.

Main results:

- `SortKey.totallyOrders_compare`: the order of keys.
- `Feedback.totallyOrders_pageOrder`: the order of rows, in both directions.
- `pageOrder_lawful`: pages are parts of the only list of the rows that is in order.
-/

namespace FeedbackBoard

/-! ## The order of keys -/

/-- Numbers are ordered by their values, and minus zero comes before plus zero. -/
theorem Binary64.totalOrder_eq_lt_iff (x y : Binary64) : totalOrder x y = .lt ↔
    x.amount < y.amount ∨ x.amount = y.amount ∧ x.negative = true ∧ y.negative = false := by
  rw [totalOrder_eq_compare, Int.compare_eq_lt, place_lt_iff]

/-- Texts are ordered by their bytes. -/
theorem totallyOrders_text :
    TotallyOrders (compare : String → String → Ordering)
      (fun s t => bytesOfText s < bytesOfText t) Eq :=
  .of_transCmp compare_eq_lt_iff_bytes fun _ _ => Std.LawfulEqCmp.compare_eq_iff_eq

namespace SortKey

/--
One key comes before another: a missing one before numbers, numbers before texts, numbers
by their values with minus zero before plus zero, and texts by their bytes.
-/
inductive Precedes : SortKey → SortKey → Prop
  | absent_number (y : Binary64) : Precedes .absent (.number y)
  | absent_text (t : String) : Precedes .absent (.text t)
  | number_text (x : Binary64) (t : String) : Precedes (.number x) (.text t)
  | less {x y : Binary64} (hless : x.amount < y.amount) : Precedes (.number x) (.number y)
  | zeros {x y : Binary64} (hamount : x.amount = y.amount) (hx : x.negative = true)
    (hy : y.negative = false) : Precedes (.number x) (.number y)
  | text {s t : String} (hless : bytesOfText s < bytesOfText t) : Precedes (.text s) (.text t)

/-- Two keys are one: both missing, numbers of the same bits, or the same text. -/
inductive IsSame : SortKey → SortKey → Prop
  | absent : IsSame .absent .absent
  | number {x y : Binary64} (hbits : x.bits = y.bits) : IsSame (.number x) (.number y)
  | text (s : String) : IsSame (.text s) (.text s)

variable {a b : SortKey}

/-- Bits and texts tell keys apart. -/
theorem isSame_iff_eq : a.IsSame b ↔ a = b := by
  constructor
  · intro h
    cases h with
    | absent | text _ => rfl
    | number hbits => rw [Binary64.bits_injective hbits]
  · rintro rfl
    cases a with
    | absent => exact .absent
    | number x => exact .number rfl
    | text s => exact .text s

/-- The comparison finds a key to be less exactly if it comes before the other. -/
theorem compare_eq_lt_iff : a.compare b = .lt ↔ a.Precedes b := by
  constructor
  · intro h
    cases a <;> cases b
    case absent.number y => exact .absent_number y
    case absent.text t => exact .absent_text t
    case number.text x t => exact .number_text x t
    case number.number x y =>
        rcases (Binary64.totalOrder_eq_lt_iff x y).mp h with hless | ⟨hamount, hx, hy⟩
        · exact .less hless
        · exact .zeros hamount hx hy
    case text.text s t => exact .text ((totallyOrders_text.lt_iff s t).mp h)
    -- In all other cases the first key has the greater type, or both are missing.
    all_goals cases h
  · intro h
    cases h with
    | absent_number _ | absent_text _ | number_text _ _ => rfl
    | less hless => exact (Binary64.totalOrder_eq_lt_iff _ _).mpr (.inl hless)
    | zeros hamount hx hy => exact (Binary64.totalOrder_eq_lt_iff _ _).mpr (.inr ⟨hamount, hx, hy⟩)
    | text hless => exact (totallyOrders_text.lt_iff _ _).mpr hless

/-- The comparison finds keys to be equal exactly if they are one. -/
theorem compare_eq_eq_iff : a.compare b = .eq ↔ a.IsSame b := by
  rw [isSame_iff_eq]
  constructor
  · intro h
    cases a <;> cases b
    case absent.absent => rfl
    case number.number x y =>
        have hnumbers : Binary64.totalOrder x y = .eq := h
        rw [Std.LawfulEqCmp.eq_of_compare hnumbers]
    case text.text s t => rw [(totallyOrders_text.eq_iff s t).mp h]
    -- Keys of different types are never equal.
    all_goals cases h
  · rintro rfl
    exact Std.ReflCmp.compare_self

/-- Keys are totally ordered, and only the same keys are equal. -/
theorem totallyOrders_compare : TotallyOrders compare Precedes IsSame :=
  .of_transCmp (fun _ _ => compare_eq_lt_iff) fun _ _ => compare_eq_eq_iff

end SortKey

/-! ## The order of rows -/

namespace Direction

variable {ρ : Type}

/-- What comes first in a direction, if `before` says what is smaller. -/
def Leads (direction : Direction) (before : ρ → ρ → Prop) (a b : ρ) : Prop :=
  match direction with
  | ascending => before a b
  | descending => before b a

/-- A direction leaves equal what is equal. -/
theorem apply_eq_eq_iff (direction : Direction) (outcome : Ordering) :
    direction.apply outcome = .eq ↔ outcome = .eq := by
  cases direction <;> cases outcome <;> decide

/-- An order can be turned around. -/
theorem totallyOrders_apply {cmp : ρ → ρ → Ordering} {before same : ρ → ρ → Prop}
    (h : TotallyOrders cmp before same) (direction : Direction) :
    TotallyOrders (fun a b => direction.apply (cmp a b)) (direction.Leads before) same := by
  have := h.transCmp
  have := transCmp_apply cmp direction
  refine .of_transCmp (fun a b => ?_) fun a b => ?_
  · cases direction with
    | ascending => exact h.lt_iff a b
    | descending =>
        have hswap : (cmp a b).swap = cmp b a := (h.opposite a b).symm
        rw [apply, hswap]
        exact h.lt_iff b a
  · rw [apply_eq_eq_iff, h.eq_iff]

end Direction

namespace Feedback

/-- A row comes before another on a page: by its key in the direction, or else by its id. -/
def Precedes (field : SortField) (direction : Direction) (a b : Feedback) : Prop :=
  direction.Leads SortKey.Precedes (SortKey.ofRow field a) (SortKey.ofRow field b) ∨
    (SortKey.ofRow field a).IsSame (SortKey.ofRow field b) ∧ bytesOfText a.id < bytesOfText b.id

/-- Two rows have one key and one id. -/
def IsTied (field : SortField) (a b : Feedback) : Prop :=
  (SortKey.ofRow field a).IsSame (SortKey.ofRow field b) ∧ a.id = b.id

/-- Rows are totally ordered for a page, and only rows of one key and one id are equal. -/
theorem totallyOrders_pageOrder (field : SortField) (direction : Direction) :
    TotallyOrders (pageOrder field direction) (Precedes field direction) (IsTied field) :=
  ((direction.totallyOrders_apply SortKey.totallyOrders_compare).on (SortKey.ofRow field)).thenBy
    (totallyOrders_text.on id)

end Feedback

/-! ## Pages -/

/--
Keys are totally ordered, and so are rows for a page by every field and in both
directions; equal are only keys that are one, and rows of one key and one id.  So there
is one list of rows with distinct ids that is in order, and all pages are parts of it,
in whatever order the rows are held.
-/
theorem pageOrder_lawful (field : SortField) (direction : Direction) :
    TotallyOrders SortKey.compare SortKey.Precedes SortKey.IsSame ∧
      TotallyOrders (pageOrder field direction) (Feedback.Precedes field direction)
        (Feedback.IsTied field) ∧
      ∀ rows, DistinctIds Feedback.id rows → ∃ sorted : List Feedback,
        (∀ l : List Feedback,
          (l.Perm rows ∧ l.Pairwise fun a b => (pageOrder field direction a b).isLE) ↔
            l = sorted) ∧
        ∀ other : List Feedback, other.Perm rows → ∀ skip limit : Int,
          (Store.memory other).page ⟨field, direction, skip, limit⟩ =
            .ok
              { items := pageSlice ⟨field, direction, skip, limit⟩ sorted
                total := rows.length } := by
  have horder := Feedback.totallyOrders_pageOrder field direction
  refine ⟨SortKey.totallyOrders_compare, horder, fun rows hdistinct => ?_⟩
  have := horder.transCmp
  have hone : ∀ a ∈ rows, ∀ b ∈ rows, pageOrder field direction a b = .eq → a = b :=
    fun a ha b hb heq => hdistinct.eq_of_id_eq ha hb ((horder.eq_iff a b).mp heq).2
  refine ⟨_, fun l => eq_sorted_iff (pageOrder field direction) hone, ?_⟩
  intro other hother skip limit
  rw [sorted_eq_of_perm (pageOrder field direction) hother.symm hone, ← hother.length_eq]
  rfl

/--
On a descending page texts come first and rows without a key last.  A truth value and
its number are one key, so are all containers and missing values, and the ids of such
rows ascend; minus zero comes after zero.
-/
theorem pageOrder_lawful_mixed_keys :
    let row (id : String) (rating : Option Json.Value) : Feedback :=
      { id := id
        userId := "u"
        version := 0
        kind := "rating"
        data := rating.map fun value => .object [("rating", value)]
        info := none
        snapshot := none
        createdAt := 0
        updatedAt := 0 }
    let one : Json.Value := .number (.integer 1 (by decide) (by decide))
    let zero : Json.Value := .number (.integer 0 (by decide) (by decide))
    let minusZero : Json.Value := .number (.double ⟨true, 0, by decide⟩)
    let ranked := [row "e" (some (.string "1")), row "b" (some (.bool true)), row "c" (some one),
      row "g" (some zero), row "a" (some minusZero), row "d" (some (.array [one])), row "f" none]
    let page (rows : List Feedback) := (Store.memory rows).page ⟨.rating, .descending, 0, 7⟩
    DistinctIds Feedback.id ranked ∧
      page ranked = .ok { items := ranked, total := 7 } ∧
        page ranked.reverse = .ok { items := ranked, total := 7 } := by
  intro row one zero minusZero ranked page
  have hdistinct : DistinctIds Feedback.id ranked := by
    rw [DistinctIds]
    decide
  obtain ⟨-, -, hrows⟩ := pageOrder_lawful .rating .descending
  obtain ⟨sorted, hsorted, hpages⟩ := hrows ranked hdistinct
  have hranked : ranked = sorted := (hsorted ranked).mp ⟨List.Perm.refl _, by decide +kernel⟩
  rw [← hranked] at hpages
  exact ⟨hdistinct, hpages ranked (List.Perm.refl _) 0 7,
    hpages ranked.reverse (List.reverse_perm _) 0 7⟩

end FeedbackBoard
