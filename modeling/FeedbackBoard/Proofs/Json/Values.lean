import FeedbackBoard.Proofs.Json.Documents
import FeedbackBoard.Proofs.Json.NumberReading
import FeedbackBoard.Proofs.Order.Keyed

/-!
# Values that are written and read back

A value that has been read lists every key of an object once, in ascending
order, and is nested no deeper than the reader follows.  Written and read again
such a value comes back with the same shape, and only its binary64 numbers may
have moved.

Main definitions:

- `Value.depth`: how many levels of arrays and objects are nested.
- `Value.Ordered`: objects list every key once, in ascending order.
- `Value.reread`: the value with every number as it is read back.

Main results:

- `Node.ordered_of_value?`, `Node.depth_le_of_value?`: what is read is such a value.
- `Node.value?_ofValue`: the meaning of a written value.
- `readValue?_compact`: a value written on one line and read back.
-/

namespace FeedbackBoard.Json

/-! ## Members in order -/

section Members

variable {α : Type} {key : String} {value : α} {members : List (String × α)}

theorem mem_of_mem_insertMember {member : String × α}
    (h : member ∈ insertMember key value members) :
    member = (key, value) ∨ member ∈ members := by
  induction members with
  | nil => exact Or.inl (List.mem_singleton.mp h)
  | cons first rest ih =>
      obtain ⟨other, kept⟩ := first
      rw [insertMember] at h
      split at h
      · exact List.mem_cons.mp h
      · split at h
        · rcases List.mem_cons.mp h with h | h
          · exact Or.inl h
          · exact Or.inr (List.mem_cons_of_mem _ h)
        · rcases List.mem_cons.mp h with h | h
          · exact Or.inr (h ▸ List.mem_cons_self)
          · exact (ih h).imp_right (List.mem_cons_of_mem _)

/-- Setting a key keeps the keys in order. -/
theorem keysAscending_insertMember (h : KeysAscending members) :
    KeysAscending (insertMember key value members) := by
  induction members with
  | nil => exact List.pairwise_singleton _ _
  | cons first rest ih =>
      obtain ⟨other, kept⟩ := first
      obtain ⟨hhead, htail⟩ := List.pairwise_cons.mp h
      rw [insertMember]
      split
      next hlt =>
        refine List.pairwise_cons.mpr ⟨?_, h⟩
        intro member hmember
        rcases List.mem_cons.mp hmember with rfl | hmember
        · exact hlt
        · exact String.lt_trans hlt (hhead member hmember)
      next hge =>
        split
        next heq =>
          subst heq
          exact List.pairwise_cons.mpr ⟨hhead, htail⟩
        next hne =>
          refine List.pairwise_cons.mpr ⟨?_, ih htail⟩
          intro member hmember
          rcases mem_of_mem_insertMember hmember with rfl | hmember
          · rcases String.le_total key other with hle | hle
            · exact absurd (String.le_antisymm hle (String.not_lt.mp hge)) hne
            · exact String.not_le.mp fun hle' => hne (String.le_antisymm hle' hle)
          · exact hhead member hmember

/-- A key above all others is set at the end. -/
theorem insertMember_eq_append (h : ∀ member ∈ members, member.1 < key) :
    insertMember key value members = members ++ [(key, value)] := by
  induction members with
  | nil => rfl
  | cons first rest ih =>
      obtain ⟨other, kept⟩ := first
      have hlt : other < key := h _ List.mem_cons_self
      have hge : ¬ key < other := fun h => String.lt_irrefl key (String.lt_trans h hlt)
      rw [insertMember, if_neg hge, if_neg (String.ne_of_lt hlt).symm,
        ih fun member hm => h member (List.mem_cons_of_mem _ hm)]
      rfl

/-- What has been set before, and then what is set one after the other. -/
theorem mem_of_mem_foldl_insertMember {member : String × α} (before : List (String × α))
    (h : member ∈ members.foldl (fun sorted m => insertMember m.1 m.2 sorted) before) :
    member ∈ before ∨ member ∈ members := by
  induction members generalizing before with
  | nil => exact Or.inl h
  | cons first rest ih =>
      rcases ih (insertMember first.1 first.2 before) h with h | h
      · rcases mem_of_mem_insertMember h with rfl | h
        · exact Or.inr List.mem_cons_self
        · exact Or.inl h
      · exact Or.inr (List.mem_cons_of_mem _ h)

theorem mem_of_mem_sortedMembers {member : String × α} (h : member ∈ sortedMembers members) :
    member ∈ members :=
  (mem_of_mem_foldl_insertMember [] h).resolve_left List.not_mem_nil

/-- Sorted members have their keys in order. -/
theorem keysAscending_sortedMembers (members : List (String × α)) :
    KeysAscending (sortedMembers members) := by
  have hfold : ∀ before : List (String × α), KeysAscending before →
      KeysAscending (members.foldl (fun sorted m => insertMember m.1 m.2 sorted) before) := by
    induction members with
    | nil => exact fun _ h => h
    | cons first rest ih => exact fun before h => ih _ (keysAscending_insertMember h)
  exact hfold [] List.Pairwise.nil

/-- Members whose keys are in order are sorted. -/
theorem sortedMembers_eq_self (h : KeysAscending members) : sortedMembers members = members := by
  have hfold : ∀ before : List (String × α), KeysAscending (before ++ members) →
      members.foldl (fun sorted m => insertMember m.1 m.2 sorted) before = before ++ members := by
    clear h
    induction members with
    | nil => exact fun before _ => (List.append_nil before).symm
    | cons first rest ih =>
        intro before hbefore
        have hlast : ∀ member ∈ before, member.1 < first.1 := by
          intro member hmember
          exact (List.pairwise_append.mp hbefore).2.2 member hmember first List.mem_cons_self
        rw [List.foldl_cons, insertMember_eq_append hlast, ih]
        · rw [List.append_assoc, List.singleton_append]
        · rw [List.append_assoc, List.singleton_append]
          exact hbefore
  exact hfold [] h

end Members

/-! ## Shapes of values -/

mutual

/-- How many levels of arrays and objects are nested. -/
def Value.depth : Value → Nat
  | .array items => Value.depthItems items + 1
  | .object members => Value.depthMembers members + 1
  | _ => 0

/-- How many levels are nested in items. -/
def Value.depthItems : List Value → Nat
  | [] => 0
  | item :: rest => max item.depth (Value.depthItems rest)

/-- How many levels are nested in members. -/
def Value.depthMembers : List (String × Value) → Nat
  | [] => 0
  | (_, item) :: rest => max item.depth (Value.depthMembers rest)

end

mutual

/-- Objects list every key once, in ascending order. -/
def Value.Ordered : Value → Prop
  | .array items => Value.OrderedItems items
  | .object members => KeysAscending members ∧ Value.OrderedMembers members
  | _ => True

/-- All items are ordered. -/
def Value.OrderedItems : List Value → Prop
  | [] => True
  | item :: rest => item.Ordered ∧ Value.OrderedItems rest

/-- All members are ordered. -/
def Value.OrderedMembers : List (String × Value) → Prop
  | [] => True
  | (_, item) :: rest => item.Ordered ∧ Value.OrderedMembers rest

end

mutual

/-- The value with every number as it is read back. -/
def Value.reread : Value → Value
  | .null => .null
  | .bool b => .bool b
  | .number n => .number n.reread
  | .string text => .string text
  | .array items => .array (Value.rereadItems items)
  | .object members => .object (Value.rereadMembers members)

/-- The items with every number as it is read back. -/
def Value.rereadItems : List Value → List Value
  | [] => []
  | item :: rest => item.reread :: Value.rereadItems rest

/-- The members with every number as it is read back. -/
def Value.rereadMembers : List (String × Value) → List (String × Value)
  | [] => []
  | (key, item) :: rest => (key, item.reread) :: Value.rereadMembers rest

end

theorem Value.depthMembers_le_iff {members : List (String × Value)} {n : Nat} :
    depthMembers members ≤ n ↔ ∀ member ∈ members, member.2.depth ≤ n := by
  induction members with
  | nil => simp [depthMembers]
  | cons member rest ih =>
      obtain ⟨key, item⟩ := member
      rw [depthMembers, Nat.max_le, ih, List.forall_mem_cons]

theorem Value.orderedMembers_iff {members : List (String × Value)} :
    OrderedMembers members ↔ ∀ member ∈ members, member.2.Ordered := by
  induction members with
  | nil => simp [OrderedMembers]
  | cons member rest ih =>
      obtain ⟨key, item⟩ := member
      rw [OrderedMembers, ih, List.forall_mem_cons]

theorem Value.rereadMembers_eq_map (members : List (String × Value)) :
    rereadMembers members = members.map fun member => (member.1, member.2.reread) := by
  induction members with
  | nil => rfl
  | cons member rest ih =>
      obtain ⟨key, item⟩ := member
      rw [rereadMembers, ih, List.map_cons]

theorem Value.keysAscending_rereadMembers {members : List (String × Value)}
    (h : KeysAscending members) : KeysAscending (rereadMembers members) := by
  rw [rereadMembers_eq_map]
  exact List.pairwise_map.mpr h

mutual

/-- Reading numbers again does not change the nesting. -/
theorem Value.depth_reread : (value : Value) → value.reread.depth = value.depth
  | .null | .bool _ | .number _ | .string _ => rfl
  | .array items => congrArg (· + 1) (Value.depth_rereadItems items)
  | .object members => congrArg (· + 1) (Value.depth_rereadMembers members)

theorem Value.depth_rereadItems :
    (items : List Value) → depthItems (rereadItems items) = depthItems items
  | [] => rfl
  | item :: rest => by
      rw [rereadItems, depthItems, depthItems, item.depth_reread, depth_rereadItems rest]

theorem Value.depth_rereadMembers :
    (members : List (String × Value)) → depthMembers (rereadMembers members) = depthMembers members
  | [] => rfl
  | (key, item) :: rest => by
      rw [rereadMembers, depthMembers, depthMembers, item.depth_reread, depth_rereadMembers rest]

end

mutual

/-- Reading numbers again keeps objects in order. -/
theorem Value.ordered_reread : (value : Value) → value.Ordered → value.reread.Ordered
  | .null, _ | .bool _, _ | .number _, _ | .string _, _ => trivial
  | .array items, h => Value.orderedItems_reread items h
  | .object members, h =>
    ⟨Value.keysAscending_rereadMembers h.1, Value.orderedMembers_reread members h.2⟩

theorem Value.orderedItems_reread :
    (items : List Value) → OrderedItems items → OrderedItems (rereadItems items)
  | [], _ => trivial
  | item :: rest, h => ⟨item.ordered_reread h.1, orderedItems_reread rest h.2⟩

theorem Value.orderedMembers_reread :
    (members : List (String × Value)) → OrderedMembers members →
      OrderedMembers (rereadMembers members)
  | [], _ => trivial
  | (_, item) :: rest, h => ⟨item.ordered_reread h.1, orderedMembers_reread rest h.2⟩

end

/-! ## Values that have been read -/

mutual

/-- A value that has been read is ordered, and nested no deeper than the reader follows. -/
theorem Node.shape_of_value? (levels : Nat) :
    (node : Node) → {value : Value} → node.value? levels = some value →
      value.Ordered ∧ value.depth ≤ levels
  | .null, _, h | .bool _, _, h => by
      cases h
      exact ⟨trivial, Nat.zero_le _⟩
  | .number numeral, _, h => by
      obtain ⟨n, _, rfl⟩ := Option.map_eq_some_iff.mp h
      exact ⟨trivial, Nat.zero_le _⟩
  | .string text, _, h => by
      obtain ⟨t, _, rfl⟩ := Option.map_eq_some_iff.mp h
      exact ⟨trivial, Nat.zero_le _⟩
  | .array items closed, value, h => by
      match levels with
      | levels + 1 =>
          rw [value?] at h
          split at h
          next values hvalues =>
            split at h
            · cases h
              obtain ⟨hordered, hdepth⟩ := shape_of_valueItems? levels items hvalues
              exact ⟨hordered, Nat.succ_le_succ hdepth⟩
            · cases h
          next => cases h
  | .object members closed, value, h => by
      match levels with
      | levels + 1 =>
          rw [value?] at h
          split at h
          next values hvalues =>
            split at h
            · cases h
              obtain ⟨hordered, hdepth⟩ := shape_of_valueMembers? levels members hvalues
              refine ⟨⟨keysAscending_sortedMembers values, ?_⟩, Nat.succ_le_succ ?_⟩
              · rw [Value.orderedMembers_iff] at hordered ⊢
                exact fun member hmember => hordered member (mem_of_mem_sortedMembers hmember)
              · rw [Value.depthMembers_le_iff] at hdepth ⊢
                exact fun member hmember => hdepth member (mem_of_mem_sortedMembers hmember)
            · cases h
          next => cases h

theorem Node.shape_of_valueItems? (levels : Nat) :
    (items : List Node) → {values : List Value} → Node.valueItems? levels items = some values →
      Value.OrderedItems values ∧ Value.depthItems values ≤ levels
  | [], _, h => by
      cases h
      exact ⟨trivial, Nat.zero_le _⟩
  | item :: rest, _, h => by
      rw [valueItems?] at h
      split at h
      next value hvalue =>
        obtain ⟨values, hvalues, rfl⟩ := Option.map_eq_some_iff.mp h
        obtain ⟨hordered, hdepth⟩ := shape_of_value? levels item hvalue
        obtain ⟨horderedRest, hdepthRest⟩ := shape_of_valueItems? levels rest hvalues
        exact ⟨⟨hordered, horderedRest⟩, Nat.max_le.mpr ⟨hdepth, hdepthRest⟩⟩
      next => cases h

theorem Node.shape_of_valueMembers? (levels : Nat) :
    (members : List (Option String × Node)) → {values : List (String × Value)} →
      Node.valueMembers? levels members = some values →
      Value.OrderedMembers values ∧ Value.depthMembers values ≤ levels
  | [], _, h => by
      cases h
      exact ⟨trivial, Nat.zero_le _⟩
  | (none, _) :: _, _, h => by cases h
  | (some key, item) :: rest, _, h => by
      rw [valueMembers?] at h
      split at h
      next value hvalue =>
        obtain ⟨values, hvalues, rfl⟩ := Option.map_eq_some_iff.mp h
        obtain ⟨hordered, hdepth⟩ := shape_of_value? levels item hvalue
        obtain ⟨horderedRest, hdepthRest⟩ := shape_of_valueMembers? levels rest hvalues
        exact ⟨⟨hordered, horderedRest⟩, Nat.max_le.mpr ⟨hdepth, hdepthRest⟩⟩
      next => cases h

end

/-! ## Values that have been written -/

mutual

/-- A written value means itself up to its numbers, if the reader follows it deep enough. -/
theorem Node.value?_ofValue (levels : Nat) :
    (value : Value) → value.Ordered →
      (Node.ofValue value).value? levels = if value.depth ≤ levels then some value.reread else none
  | .null, _ | .bool _, _ | .string _, _ => by
      rw [Value.depth, if_pos (Nat.zero_le _)]
      rfl
      all_goals exact fun _ h => by cases h
  | .number n, _ => by
      rw [ofValue, value?, n.value?_numeral, Value.depth, if_pos (Nat.zero_le _)]
      rfl
      all_goals exact fun _ h => by cases h
  | .array items, hordered => by
      cases levels with
      | zero => rfl
      | succ levels =>
          rw [ofValue, value?, valueItems?_ofItems levels items hordered, Value.depth]
          by_cases hdepth : Value.depthItems items ≤ levels
          · rw [if_pos hdepth, if_pos (Nat.succ_le_succ hdepth)]
            rfl
          · rw [if_neg hdepth, if_neg (by omega)]
  | .object members, hordered => by
      cases levels with
      | zero => rfl
      | succ levels =>
          rw [ofValue, value?, valueMembers?_ofMembers levels members hordered.2, Value.depth]
          by_cases hdepth : Value.depthMembers members ≤ levels
          · rw [if_pos hdepth, if_pos (Nat.succ_le_succ hdepth)]
            simp only [if_true, Value.ofMembers,
              sortedMembers_eq_self (Value.keysAscending_rereadMembers hordered.1), Value.reread]
          · rw [if_neg hdepth, if_neg (by omega)]

theorem Node.valueItems?_ofItems (levels : Nat) :
    (items : List Value) → Value.OrderedItems items →
      Node.valueItems? levels (Node.ofItems items) =
        if Value.depthItems items ≤ levels then some (Value.rereadItems items) else none
  | [], _ => rfl
  | item :: rest, hordered => by
      rw [ofItems, valueItems?, value?_ofValue levels item hordered.1,
        valueItems?_ofItems levels rest hordered.2, Value.depthItems]
      by_cases hitem : item.depth ≤ levels
      · by_cases hrest : Value.depthItems rest ≤ levels
        · simp [hitem, hrest, Value.rereadItems]
        · simp [hitem, hrest]
      · simp [hitem]

theorem Node.valueMembers?_ofMembers (levels : Nat) :
    (members : List (String × Value)) → Value.OrderedMembers members →
      Node.valueMembers? levels (Node.ofMembers members) =
        if Value.depthMembers members ≤ levels then some (Value.rereadMembers members) else none
  | [], _ => rfl
  | (key, item) :: rest, hordered => by
      rw [ofMembers, valueMembers?, value?_ofValue levels item hordered.1,
        valueMembers?_ofMembers levels rest hordered.2, Value.depthMembers]
      by_cases hitem : item.depth ≤ levels
      · by_cases hrest : Value.depthMembers rest ≤ levels
        · simp [hitem, hrest, Value.rereadMembers]
        · simp [hitem, hrest]
      · simp [hitem]

end

/-- A value written on one line is read back up to its numbers, unless it is nested too deep. -/
theorem readValue?_compact {value : Value} (h : value.Ordered) :
    readValue? value.compact = if value.depth ≤ levelLimit then some value.reread else none := by
  rw [readValue?, Document.ofString_compact, Document.value?, Node.value?_ofValue levelLimit value h]
  by_cases hdepth : value.depth ≤ levelLimit
  · rw [if_pos hdepth]
    rfl
  · rw [if_neg hdepth]

end FeedbackBoard.Json
