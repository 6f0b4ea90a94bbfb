import FeedbackBoard.Proofs.Database.LenientStrings

/-!
# Containers under both readers

How either reader takes a container apart.  The strict reader never fails, so an
array or object with a value is found whole among what it returns.  The lenient
reader goes from an item or member to the mark behind it.

Main definitions:

- `JsonTree.IsValued`: the tree has a cell, and so has every member.
- `Cell.IsLegible`, `JsonTree.IsLegible`: their texts can be shown.
- `LenientJson.BeginsValue`: a text that begins a value.
- `LenientJson.afterItem`, `LenientJson.afterMember`: the rest of a container behind a part of it.

Main results:

- `LenientJson.exists_of_value?_array`, `LenientJson.exists_of_value?_object`: the parts of a
  container with a value have values.
- `LenientJson.exists_of_skipSpace_eq_mark`: behind a value both readers see the same mark.
- `LenientJson.readItems_eq`, `LenientJson.readMembers_eq`: one step of the lenient reader.
-/

namespace FeedbackBoard

/-! ## Trees with values -/

/-- The tree has a cell, and so has every member that is asked for. -/
structure JsonTree.IsValued (tree : JsonTree) : Prop where
  cell : tree.cell?.isSome
  member : ∀ key, (tree.member? key).isSome

/-- The text of the cell, if there is one, can be shown. -/
def Cell.IsLegible (cell : Cell) : Prop :=
  ∀ codes ∈ cell.text?, codes.IsText

namespace Cell

theorem isLegible_null : null.IsLegible :=
  fun _ hcodes => by cases hcodes

theorem isLegible_text {codes : CodePoints} (h : codes.IsText) : (text codes).IsLegible :=
  fun _ hcodes => by cases hcodes; exact h

/-- Numbers are shown by their digits. -/
theorem isLegible_integer (n : Int) : (integer n).IsLegible :=
  fun _ hcodes => by cases hcodes; exact CodePoints.isText_ofChars _

theorem isLegible_real (negative : Bool) (rank : Nat) : (real negative rank).IsLegible :=
  fun _ hcodes => by cases hcodes; exact CodePoints.isText_ofChars _

theorem isLegible_ofNumeral (n : Json.Numeral) : (ofNumeral n).IsLegible := by
  simp only [ofNumeral]
  split_ifs
  all_goals first | exact isLegible_integer _ | exact isLegible_real _ _

end Cell

/-- The tree has a cell whose text can be shown, and so has every member that is asked for. -/
structure JsonTree.IsLegible (tree : JsonTree) : Prop where
  cell : ∃ cell, tree.cell? = some cell ∧ cell.IsLegible
  member : ∀ key, ∃ cell, tree.member? key = some cell ∧ cell.IsLegible

namespace JsonTree

theorem IsLegible.isValued {tree : JsonTree} (h : tree.IsLegible) : tree.IsValued where
  cell := Option.isSome_iff_exists.mpr (h.cell.imp fun _ => And.left)
  member key := Option.isSome_iff_exists.mpr ((h.member key).imp fun _ => And.left)

theorem isLegible_scalar {cell : Cell} (h : cell.IsLegible) (spelling : List Char) :
    (scalar (some cell) spelling).IsLegible :=
  ⟨⟨cell, rfl, h⟩, fun _ => ⟨.null, rfl, Cell.isLegible_null⟩⟩

theorem isLegible_array (items : List JsonTree) : (array items).IsLegible :=
  ⟨⟨_, rfl, Cell.isLegible_text (CodePoints.isText_ofChars _)⟩,
    fun _ => ⟨.null, rfl, Cell.isLegible_null⟩⟩

theorem isLegible_object {members : List (CodePoints × List Char × JsonTree)}
    (h : ∀ member ∈ members, member.2.2.IsLegible) : (object members).IsLegible := by
  refine ⟨⟨_, rfl, Cell.isLegible_text (CodePoints.isText_ofChars _)⟩, fun key => ?_⟩
  rw [member?]
  split
  next hfound => exact (h _ (List.mem_of_find?_eq_some hfound)).cell
  next => exact ⟨.null, rfl, Cell.isLegible_null⟩

end JsonTree

namespace LenientJson

/-! ## Trees -/

/-- A text that begins a value begins neither with space nor with the end of an array. -/
structure BeginsValue (text : List Char) : Prop where
  begins : BeginsPart text
  open_items : ∀ rest, text ≠ ']' :: rest

/-- The items of an array are found behind those that were read before. -/
theorem exists_array_of_readItems (fuel : Nat) (before : List Json.Node) (text : List Symbol) :
    ∃ items closed, (Json.readItems fuel before text).1 = .array items closed ∧
      ∀ item ∈ before, item ∈ items := by
  have hbefore : ∀ (before : List Json.Node) (item : Json.Node), item ∈ before →
      item ∈ before.reverse := fun _ _ => List.mem_reverse.mpr
  induction fuel generalizing before text with
  | zero => exact ⟨_, false, rfl, hbefore before⟩
  | succ fuel ih =>
      rw [Json.readItems]
      split
      next item rest _ =>
        split
        next rest' _ =>
          obtain ⟨items, closed, harray, hmem⟩ := ih (item :: before) rest'
          exact ⟨items, closed, harray, fun other hother =>
            hmem other (List.mem_cons_of_mem item hother)⟩
        next => exact ⟨_, true, rfl, fun other hother =>
          hbefore _ other (List.mem_cons_of_mem item hother)⟩
        next => exact ⟨_, false, rfl, fun other hother =>
          hbefore _ other (List.mem_cons_of_mem item hother)⟩

/-- The members of an object are found behind those that were read before. -/
theorem exists_object_of_readMembers (fuel : Nat) (before : List (Option String × Json.Node))
    (text : List Symbol) :
    ∃ members closed, (Json.readMembers fuel before text).1 = .object members closed ∧
      ∀ member ∈ before, member ∈ members := by
  have hbefore : ∀ {before : List (Option String × Json.Node)} {first member}, member ∈ before →
      member ∈ (first :: before).reverse :=
    fun hmember => List.mem_reverse.mpr (List.mem_cons_of_mem _ hmember)
  induction fuel generalizing before text with
  | zero => exact ⟨_, false, rfl, fun _ => List.mem_reverse.mpr⟩
  | succ fuel ih =>
      rw [Json.readMembers]
      split
      next =>
        split
        next key rest _ =>
          split
          next rest' _ =>
            split
            next item rest'' _ =>
              split
              next following _ =>
                obtain ⟨members, closed, hobject, hmem⟩ := ih ((key, item) :: before) following
                exact ⟨members, closed, hobject, fun other hother =>
                  hmem other (List.mem_cons_of_mem _ hother)⟩
              next => exact ⟨_, true, rfl, fun _ => hbefore⟩
              next => exact ⟨_, false, rfl, fun _ => hbefore⟩
          next => exact ⟨_, false, rfl, fun _ => hbefore⟩
        next => exact ⟨_, false, rfl, fun _ => List.mem_reverse.mpr⟩
      next => exact ⟨_, false, rfl, fun _ => List.mem_reverse.mpr⟩

/-- An array has a value only if it is closed and its items have values. -/
theorem exists_of_value?_array {levels : Nat} {items : List Json.Node} {closed : Bool}
    (h : ((Json.Node.array items closed).value? levels).isSome) :
    ∃ below, levels = below + 1 ∧ closed = true ∧
      ∀ item ∈ items, (item.value? below).isSome := by
  have hitems : ∀ {below items}, (Json.Node.valueItems? below items).isSome →
      ∀ item ∈ items, (Json.Node.value? below item).isSome := by
    intro below items h
    induction items with
    | nil => exact fun _ hitem => by cases hitem
    | cons item rest ih =>
        rw [Json.Node.valueItems?] at h
        split at h
        next value hvalue =>
          rw [Option.isSome_map] at h
          exact List.forall_mem_cons.mpr ⟨by rw [hvalue]; rfl, ih h⟩
        next => cases h
  cases levels with
  | zero => cases h
  | succ below =>
      rw [Json.Node.value?] at h
      split at h
      next values hvalues =>
        refine ⟨below, rfl, ?_, hitems (by rw [hvalues]; rfl)⟩
        cases closed with
        | true => rfl
        | false => cases h
      next => cases h

/-- An object has a value only if it is closed and its keys and members have values. -/
theorem exists_of_value?_object {levels : Nat} {members : List (Option String × Json.Node)}
    {closed : Bool} (h : ((Json.Node.object members closed).value? levels).isSome) :
    ∃ below, levels = below + 1 ∧ closed = true ∧
      ∀ member ∈ members, member.1.isSome ∧ (member.2.value? below).isSome := by
  have hmembers : ∀ {below members}, (Json.Node.valueMembers? below members).isSome →
      ∀ member ∈ members, member.1.isSome ∧ (Json.Node.value? below member.2).isSome := by
    intro below members h
    induction members with
    | nil => exact fun _ hmember => by cases hmember
    | cons member rest ih =>
        obtain ⟨_ | key, item⟩ := member
        · cases h
        · rw [Json.Node.valueMembers?] at h
          split at h
          next value hvalue =>
            rw [Option.isSome_map] at h
            exact List.forall_mem_cons.mpr ⟨⟨rfl, by rw [hvalue]; rfl⟩, ih h⟩
          next => cases h
  cases levels with
  | zero => cases h
  | succ below =>
      rw [Json.Node.value?] at h
      split at h
      next values hvalues =>
        refine ⟨below, rfl, ?_, hmembers (by rw [hvalues]; rfl)⟩
        cases closed with
        | true => rfl
        | false => cases h
      next => cases h

/-! ## Steps of the lenient reader -/

/-- Marks that may stand behind a value or a key. -/
def marks : List Char :=
  [',', ':', ']', '\x7d']

/-- Behind a value both readers see the same mark, and the mark closes the value. -/
theorem exists_of_skipSpace_eq_mark {after : List Char} {mark : Char} {rest : List Symbol}
    (hmark : mark ∈ marks) (h : Json.skipSpace (symbolsOfChars after) = some mark :: rest) :
    ∃ tail, rest = symbolsOfChars tail ∧ Closes after ∧ PassesNoZero after tail ∧
      tail.length < after.length ∧ skipSpace after.length after = mark :: tail := by
  obtain ⟨hspace, hslash, halphanum, hpoint, hzero⟩ : isSpace mark = false ∧ mark ≠ '/' ∧
      mark.isAlphanum = false ∧ mark ≠ '.' ∧ mark ≠ '\x00' := by
    simp only [marks, List.mem_cons, List.not_mem_nil, or_false] at hmark
    rcases hmark with rfl | rfl | rfl | rfl <;> decide
  rw [skipSpace_symbolsOfChars] at h
  obtain ⟨tail, htail, hrest⟩ := symbolsOfChars_eq_cons h
  have hpasses : PassesNoZero after (mark :: tail) := htail ▸ passesNoZero_dropSpace after
  refine ⟨tail, hrest, closes_of_dropSpace htail ⟨halphanum, hpoint⟩,
    hpasses.trans (.cons hzero tail), hpasses.length_le, ?_⟩
  rw [skipSpace_eq, htail]
  rw [htail]
  intro c hc
  cases hc
  exact ⟨hspace, hslash⟩

theorem beginsValue_of_dropSpace {text tail : List Char} {c : Char}
    (h : dropSpace text = c :: tail)
    (hc : (isSpace c = false ∧ c ≠ '/') ∧ c ≠ ']') :
    BeginsValue (dropSpace text) := by
  rw [h]
  refine ⟨fun d hd => ?_, fun _ heq => hc.2 (List.cons.inj heq).1⟩
  cases hd
  exact hc.1

/-- The rest of an array behind one of its items. -/
def afterItem (fuel limit : Nat) (trees : List JsonTree) (text : List Char) :
    Option (JsonTree × List Char) :=
  match skipSpace text.length text with
  | ',' :: rest => readItems fuel limit trees rest
  | ']' :: rest => some (.array trees.reverse, rest)
  | _ => none

/-- The rest of an object behind one of its members. -/
def afterMember (fuel limit : Nat) (entries : List (CodePoints × List Char × JsonTree))
    (text : List Char) : Option (JsonTree × List Char) :=
  match skipSpace text.length text with
  | ',' :: rest => readMembers fuel limit entries rest
  | '\x7d' :: rest => some (.object entries.reverse, rest)
  | _ => none

/-- An item is read, and then what follows it. -/
theorem readItems_eq {fuel limit : Nat} {trees : List JsonTree} {text rest : List Char}
    {item : JsonTree} (hbegins : BeginsValue (dropSpace text))
    (hitem : readTree fuel limit (dropSpace text) = some (item, rest)) :
    readItems (fuel + 1) limit trees text = afterItem fuel limit (item :: trees) rest := by
  rw [readItems, skipSpace_eq hbegins.begins]
  split
  next heq => exact absurd heq (hbegins.open_items _)
  next =>
    rw [hitem]
    rfl

/-- A key in quotes is read, then the member, and then what follows it. -/
theorem readMembers_eq {fuel limit : Nat} {entries : List (CodePoints × List Char × JsonTree)}
    {text tail spelling behind value rest : List Char} {key : CodePoints} {item : JsonTree}
    (hquote : dropSpace text = '"' :: tail)
    (hkey : readQuoted '"' (tail.length + 2) [] [] tail = some (key, spelling, behind))
    (hcolon : skipSpace behind.length behind = ':' :: value)
    (hitem : readTree fuel limit value = some (item, rest)) :
    readMembers (fuel + 1) limit entries text =
      afterMember fuel limit ((key, spelling, item) :: entries) rest := by
  have hbegins := (beginsValue_of_dropSpace hquote (by decide)).begins
  have hread : readKey (('"' :: tail).length + 1) ('"' :: tail) = some (key, spelling, behind) :=
    hkey
  rw [readMembers, skipSpace_eq hbegins, hquote]
  split
  next heq => exact absurd (List.cons.inj heq).1 (by decide)
  next =>
    simp only [hread, hcolon, hitem]
    rfl

/-- What begins neither a string nor a container is a word or a number. -/
theorem readTree_scalar {fuel limit : Nat} {text tail : List Char} {c : Char}
    (hbegins : BeginsPart (dropSpace text)) (h : dropSpace text = c :: tail)
    (hc : c ∉ ['"', '\'', '[', '\x7b']) :
    readTree (fuel + 1) limit text = (readWord (c :: tail)).or (readNumber (c :: tail)) := by
  rw [readTree, skipSpace_eq hbegins, h]
  split
  case h_5 => rfl
  all_goals
    rename_i heq
    cases heq
    exact absurd (by decide) hc

/-- An array without items. -/
theorem readItems_close {fuel limit : Nat} {text rest : List Char}
    (h : skipSpace text.length text = ']' :: rest) :
    readItems (fuel + 1) limit [] text = some (.array [], rest) := by
  rw [readItems, h]
  rfl

/-- An object without members. -/
theorem readMembers_close {fuel limit : Nat} {text rest : List Char}
    (h : skipSpace text.length text = '\x7d' :: rest) :
    readMembers (fuel + 1) limit [] text = some (.object [], rest) := by
  rw [readMembers, h]
  rfl

theorem readTree_array {fuel limit : Nat} {text tail : List Char}
    (h : dropSpace text = '[' :: tail) :
    readTree (fuel + 1) (limit + 1) text = readItems fuel limit [] tail := by
  rw [readTree, skipSpace_eq (beginsValue_of_dropSpace h (by decide)).begins, h]
  rfl

theorem readTree_object {fuel limit : Nat} {text tail : List Char}
    (h : dropSpace text = '\x7b' :: tail) :
    readTree (fuel + 1) (limit + 1) text = readMembers fuel limit [] tail := by
  rw [readTree, skipSpace_eq (beginsValue_of_dropSpace h (by decide)).begins, h]
  rfl

end LenientJson

end FeedbackBoard
