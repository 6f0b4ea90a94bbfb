import FeedbackBoard.Proofs.Database.LenientSteps

/-!
# What is JSON is lenient JSON

A text that a row shows is one that database expressions can look into: they
find a cell for it and for every member.

Main definitions:

- `LenientJson.NodeAgrees`, `LenientJson.ItemsAgree`, `LenientJson.MembersAgree`: the lenient
  reader follows the strict one with so much fuel.

Main results:

- `LenientJson.agrees`: it does so with any fuel.
- `JsonTree.exists_ofText?_of_readValue?`: what is JSON has a tree with cells.
-/

namespace FeedbackBoard

namespace LenientJson

/-! ## Agreement -/

/-- The lenient reader finds a value at the beginning of the text, and stops at the rest. -/
def ReadsValue (fuel limit : Nat) (text : List Char) (rest : List Symbol) : Prop :=
  BeginsValue (dropSpace text) ∧
    ∃ after, rest = symbolsOfChars after ∧ PassesNoZero text after ∧
      (Closes after → ∃ tree, readTree fuel limit text = some (tree, after) ∧ tree.IsLegible)

/--
What the strict reader reads with enough fuel, the lenient reader reads with the same
fuel.  A part and the character that opens it or stands behind it take one step each,
so twice the length of the text is enough.
-/
def NodeAgrees (fuel : Nat) : Prop :=
  ∀ {levels limit : Nat} {text : List Char} {node : Json.Node} {rest : List Symbol},
    2 * text.length < fuel → levels ≤ limit →
    Json.readNode fuel (symbolsOfChars text) = (node, rest) → (node.value? levels).isSome →
    ReadsValue fuel limit text rest

/-- So are the items of an array. -/
def ItemsAgree (fuel : Nat) : Prop :=
  ∀ {levels limit : Nat} {before items : List Json.Node} {text : List Char} {rest : List Symbol},
    2 * text.length + 1 < fuel → levels ≤ limit →
    Json.readItems fuel before (symbolsOfChars text) = (.array items true, rest) →
    (∀ item ∈ items, (item.value? levels).isSome) →
    ∃ after, rest = symbolsOfChars after ∧ PassesNoZero text after ∧
      ∀ trees, ∃ tree, readItems fuel limit trees text = some (tree, after) ∧ tree.IsLegible

/-- And the members of an object. -/
def MembersAgree (fuel : Nat) : Prop :=
  ∀ {levels limit : Nat} {before members : List (Option String × Json.Node)} {text : List Char}
    {rest : List Symbol},
    2 * text.length + 1 < fuel → levels ≤ limit →
    Json.readMembers fuel before (symbolsOfChars text) = (.object members true, rest) →
    (∀ member ∈ members, member.1.isSome ∧ (member.2.value? levels).isSome) →
    ∃ after, rest = symbolsOfChars after ∧ PassesNoZero text after ∧
      ∀ entries : List (CodePoints × List Char × JsonTree),
        (∀ entry ∈ entries, entry.2.2.IsLegible) →
        ∃ tree, readMembers fuel limit entries text = some (tree, after) ∧ tree.IsLegible

/-- An item is read where the strict reader reads one, up to the mark behind it. -/
theorem exists_item {fuel levels limit : Nat} (hnode : NodeAgrees fuel) {text : List Char}
    {item : Json.Node} {behind rest : List Symbol} {mark : Char}
    (hfuel : 2 * text.length + 1 < fuel + 1) (hlimit : levels ≤ limit)
    (hitem : Json.readNode fuel (symbolsOfChars text) = (item, behind))
    (hmark : mark ∈ marks) (hskip : Json.skipSpace behind = some mark :: rest)
    (hsound : (item.value? levels).isSome) :
    ∃ after following tree, rest = symbolsOfChars following ∧ PassesNoZero text following ∧
      following.length < text.length ∧ skipSpace after.length after = mark :: following ∧
      ∀ trees, readItems (fuel + 1) limit trees text =
        afterItem fuel limit (tree :: trees) after := by
  -- The lenient reader reads the item behind the space in front of it.
  have hskipped : Json.readNode fuel (symbolsOfChars (dropSpace text)) = (item, behind) := by
    rw [← skipSpace_symbolsOfChars, Json.readNode_skipSpace, hitem]
  have hdropped := (passesNoZero_dropSpace text).length_le
  have hbegins := (hnode (by omega) hlimit hitem hsound).1
  obtain ⟨-, after, rfl, hpassesItem, hreads⟩ := hnode (by omega) hlimit hskipped hsound
  obtain ⟨following, rfl, hcloses, hpasses, hlength, hskip'⟩ :=
    exists_of_skipSpace_eq_mark hmark hskip
  obtain ⟨tree, htree, -⟩ := hreads hcloses
  have hafter := hpassesItem.length_le
  exact ⟨after, following, tree, rfl,
    (passesNoZero_dropSpace text).trans (hpassesItem.trans hpasses), by omega, hskip',
    fun trees => readItems_eq hbegins htree⟩

theorem itemsAgree_succ {fuel : Nat} (hnode : NodeAgrees fuel) (hitems : ItemsAgree fuel) :
    ItemsAgree (fuel + 1) := by
  intro levels limit before items text rest hfuel hlimit h hsound
  rw [Json.readItems] at h
  generalize hread : Json.readNode fuel (symbolsOfChars text) = result at h
  obtain ⟨item, behind⟩ := result
  simp only at h
  split at h
  next following hmark =>
    -- The item is one of those that the whole array has, so it has a value.
    obtain ⟨_, _, hshape, hmem⟩ := exists_array_of_readItems fuel (item :: before) following
    rw [h] at hshape
    cases hshape
    obtain ⟨after, following, tree, rfl, hpasses, hlength, hskip, hreads⟩ :=
      exists_item hnode hfuel hlimit hread (by decide) hmark
        (hsound item (hmem item List.mem_cons_self))
    obtain ⟨final, rfl, hfinal, hmore⟩ := hitems (by omega) hlimit h hsound
    refine ⟨final, rfl, hpasses.trans hfinal, fun trees => ?_⟩
    rw [hreads, afterItem, hskip]
    exact hmore (tree :: trees)
  next following hmark =>
    cases h
    obtain ⟨after, following, tree, rfl, hpasses, -, hskip, hreads⟩ :=
      exists_item hnode hfuel hlimit hread (by decide) hmark (hsound item (by simp))
    refine ⟨following, rfl, hpasses, fun trees =>
      ⟨.array (tree :: trees).reverse, ?_, JsonTree.isLegible_array _⟩⟩
    rw [hreads, afterItem, hskip]
    rfl
  next => cases h

/-- A member is read where the strict reader reads one, up to the mark behind it. -/
theorem exists_member {fuel levels limit : Nat} (hnode : NodeAgrees fuel) {text tail : List Char}
    {key : Option String} {item : Json.Node} {behindKey value behind rest : List Symbol}
    {mark : Char} (hfuel : 2 * text.length + 1 < fuel + 1) (hlimit : levels ≤ limit)
    (hquote : dropSpace text = '"' :: tail)
    (hkey : Json.readString .empty (symbolsOfChars tail) = some (key, behindKey))
    (hcolon : Json.skipSpace behindKey = some ':' :: value)
    (hitem : Json.readNode fuel value = (item, behind))
    (hmark : mark ∈ marks) (hskip : Json.skipSpace behind = some mark :: rest)
    (hsound : key.isSome ∧ (item.value? levels).isSome) :
    ∃ after following codes spelling tree, rest = symbolsOfChars following ∧
      PassesNoZero text following ∧ following.length < text.length ∧ tree.IsLegible ∧
      skipSpace after.length after = mark :: following ∧
      ∀ entries, readMembers (fuel + 1) limit entries text =
        afterMember fuel limit ((codes, spelling, tree) :: entries) after := by
  have hpassesQuote : PassesNoZero text ('"' :: tail) := hquote ▸ passesNoZero_dropSpace text
  obtain ⟨string, rfl⟩ := Option.isSome_iff_exists.mp hsound.1
  obtain ⟨afterKey, rfl, hpassesKey, hreadsKey⟩ :=
    readsString_of_readString (Nat.lt_add_of_pos_right Nat.two_pos) rfl hkey
  obtain ⟨codes, spelling, -, hquoted⟩ := hreadsKey [] [] (List.forall_mem_nil _)
  obtain ⟨valueText, rfl, -, hpassesColon, hlengthColon, hskipColon⟩ :=
    exists_of_skipSpace_eq_mark (by decide) hcolon
  have htail := hpassesQuote.length_le
  have hafterKey := hpassesKey.length_le
  rw [List.length_cons] at htail
  obtain ⟨-, after, rfl, hpassesItem, hreads⟩ := hnode (by omega) hlimit hitem hsound.2
  obtain ⟨following, rfl, hcloses, hpasses, hlength, hskip'⟩ :=
    exists_of_skipSpace_eq_mark hmark hskip
  obtain ⟨tree, htree, hlegible⟩ := hreads hcloses
  have hafter := hpassesItem.length_le
  refine ⟨after, following, codes, spelling, tree, rfl, ?_, by omega, hlegible, hskip',
    fun entries => readMembers_eq hquote hquoted hskipColon htree⟩
  exact hpassesQuote.trans ((PassesNoZero.cons (by decide) tail).trans
    (hpassesKey.trans (hpassesColon.trans (hpassesItem.trans hpasses))))

theorem membersAgree_succ {fuel : Nat} (hnode : NodeAgrees fuel) (hmembers : MembersAgree fuel) :
    MembersAgree (fuel + 1) := by
  intro levels limit before members text rest hfuel hlimit h hsound
  rw [Json.readMembers, skipSpace_symbolsOfChars] at h
  split at h
  case h_2 => cases h
  next heq =>
    obtain ⟨tail, hquote, rfl⟩ := symbolsOfChars_eq_cons heq
    split at h
    case h_2 => cases h
    next key behindKey hkey =>
      split at h
      case h_2 => cases h
      next value hcolon =>
        generalize hread : Json.readNode fuel value = result at h
        obtain ⟨item, behind⟩ := result
        simp only at h
        split at h
        next following hmark =>
          obtain ⟨_, _, hshape, hmem⟩ :=
            exists_object_of_readMembers fuel ((key, item) :: before) following
          rw [h] at hshape
          cases hshape
          obtain ⟨after, following, codes, spelling, tree, rfl, hpasses, hlength, hlegible, hskip,
            hreads⟩ := exists_member hnode hfuel hlimit hquote hkey hcolon hread (by decide) hmark
              (hsound _ (hmem _ List.mem_cons_self))
          obtain ⟨final, rfl, hfinal, hmore⟩ := hmembers (by omega) hlimit h hsound
          refine ⟨final, rfl, hpasses.trans hfinal, fun entries hentries => ?_⟩
          rw [hreads, afterMember, hskip]
          exact hmore _ (List.forall_mem_cons.mpr ⟨hlegible, hentries⟩)
        next following hmark =>
          cases h
          obtain ⟨after, following, codes, spelling, tree, rfl, hpasses, -, hlegible, hskip,
            hreads⟩ := exists_member hnode hfuel hlimit hquote hkey hcolon hread (by decide) hmark
              (hsound (key, item) (by simp))
          refine ⟨following, rfl, hpasses, fun entries hentries =>
            ⟨.object ((codes, spelling, tree) :: entries).reverse, ?_,
              JsonTree.isLegible_object fun entry hentry => ?_⟩⟩
          · rw [hreads, afterMember, hskip]
            rfl
          · rcases List.mem_cons.mp (List.mem_reverse.mp hentry) with rfl | hentry
            · exact hlegible
            · exact hentries entry hentry
        next => cases h

/-- A word is read where the strict reader sees one. -/
theorem readsValue_of_word {fuel limit : Nat} {text word : List Char} {c : Char}
    {rest : List Symbol} {tree : JsonTree}
    (h : symbolsOfChars (dropSpace text) = symbolsOfChars (c :: word) ++ rest)
    (hbegins : (isSpace c = false ∧ c ≠ '/') ∧ c ≠ ']')
    (hscalar : c ∉ ['"', '\'', '[', '\x7b']) (hzero : '\x00' ∉ c :: word)
    (hread : ∀ after, Closes after → readWord (c :: (word ++ after)) = some (tree, after))
    (hlegible : tree.IsLegible) : ReadsValue (fuel + 1) limit text rest := by
  obtain ⟨chars, after, htext, hchars, rfl⟩ := List.map_eq_append_iff.mp h
  obtain rfl : chars = c :: word := symbolsOfChars_injective hchars
  replace htext : dropSpace text = c :: (word ++ after) := htext
  have hpasses : PassesNoZero (dropSpace text) after := ⟨c :: word, hzero, htext⟩
  have hvalue := beginsValue_of_dropSpace htext hbegins
  refine ⟨hvalue, after, rfl, (passesNoZero_dropSpace text).trans hpasses, fun hcloses =>
    ⟨tree, ?_, hlegible⟩⟩
  rw [readTree_scalar hvalue.begins htext hscalar, hread after hcloses]
  rfl

/-- A character that begins a numeral begins nothing else. -/
theorem facts_of_beginsNumeral {c : Char} (hc : c = '-' ∨ c.isDigit = true) :
    ((isSpace c = false ∧ c ≠ '/') ∧ c ≠ ']') ∧
      c ∉ ['"', '\'', '[', '\x7b'] := by
  have hspace : isSpace c = false := by
    rcases hc with rfl | hc
    · decide
    · have hbounds : 48 ≤ c.toNat ∧ c.toNat ≤ 57 := by
        simpa [Char.isDigit, UInt32.le_iff_toNat_le] using hc
      simp only [isSpace, wideSpaces, List.contains_cons, List.contains_nil, Bool.or_eq_false_iff,
        Bool.and_eq_false_iff, decide_eq_false_iff_not, beq_eq_false_iff_ne, and_true]
      omega
  have hne : ∀ d : Char, d.isDigit = false ∧ d ≠ '-' → c ≠ d := fun _ hd =>
    (ne_of_beginsNumeral hc hd).symm
  simp [hspace, hne]

/-- A numeral is read where the strict reader reads one. -/
theorem readsValue_of_readNumeral {fuel limit : Nat} {text : List Char} {numeral : Json.Numeral}
    {rest : List Symbol}
    (h : Json.readNumeral (symbolsOfChars (dropSpace text)) = some (numeral, rest)) :
    ReadsValue (fuel + 1) limit text rest := by
  obtain ⟨⟨c, tail, htext, hc⟩, after, rfl, hpasses, hread⟩ := readNumber_of_readNumeral h
  obtain ⟨hbegins, hscalar⟩ := facts_of_beginsNumeral hc
  have hvalue := beginsValue_of_dropSpace htext hbegins
  refine ⟨hvalue, after, rfl, (passesNoZero_dropSpace text).trans hpasses, fun hcloses => ?_⟩
  obtain ⟨spelling, hspelling⟩ := hread hcloses
  refine ⟨_, ?_, JsonTree.isLegible_scalar (Cell.isLegible_ofNumeral numeral) spelling⟩
  rw [readTree_scalar hvalue.begins htext hscalar, readWord_numeral hc, ← htext, hspelling]
  rfl

/-- A string is read where the strict reader reads one. -/
theorem readsValue_of_readString {fuel limit : Nat} {text tail : List Char} {string : String}
    {rest : List Symbol} (hquote : dropSpace text = '"' :: tail)
    (h : Json.readString .empty (symbolsOfChars tail) = some (some string, rest)) :
    ReadsValue (fuel + 1) limit text rest := by
  have hvalue := beginsValue_of_dropSpace hquote (by decide)
  obtain ⟨after, rfl, hpasses, hreads⟩ := readsString_of_readString (Nat.lt_succ_self _) rfl h
  obtain ⟨codes, spelling, htext, hquoted⟩ := hreads [] [] (List.forall_mem_nil _)
  refine ⟨hvalue, after, rfl, ?_, fun _ =>
    ⟨_, ?_, JsonTree.isLegible_scalar (Cell.isLegible_text htext) spelling⟩⟩
  · have hopen := passesNoZero_dropSpace text
    rw [hquote] at hopen
    exact hopen.trans ((PassesNoZero.cons (by decide) tail).trans hpasses)
  · rw [readTree, skipSpace_eq hvalue.begins, hquote]
    simp only [hquoted, Option.map_some]

/-- A container is opened, and its end is found. -/
theorem readsValue_of_open {fuel limit : Nat} {text tail after : List Char} {c : Char}
    (hopen : dropSpace text = c :: tail)
    (hbegins : (isSpace c = false ∧ c ≠ '/') ∧ c ≠ ']') (hzero : c ≠ '\x00')
    (hpasses : PassesNoZero tail after)
    (hread : ∃ tree, readTree fuel limit text = some (tree, after) ∧ tree.IsLegible) :
    ReadsValue fuel limit text (symbolsOfChars after) := by
  have hskipped := passesNoZero_dropSpace text
  rw [hopen] at hskipped
  exact ⟨beginsValue_of_dropSpace hopen hbegins, after, rfl,
    hskipped.trans ((PassesNoZero.cons hzero tail).trans hpasses), fun _ => hread⟩

/-- Behind an opening bracket less text is left than the fuel allows. -/
theorem length_lt_of_open {fuel : Nat} {text tail : List Char} {c : Char}
    (hfuel : 2 * text.length < fuel + 1) (hopen : dropSpace text = c :: tail) :
    2 * tail.length + 1 < fuel := by
  have hlength := (passesNoZero_dropSpace text).length_le
  rw [hopen, List.length_cons] at hlength
  omega

/-- An array is read where the strict reader reads one. -/
theorem readsValue_of_readItems {fuel levels limit : Nat} (hitems : ItemsAgree fuel)
    {text tail : List Char} {node : Json.Node} {rest : List Symbol}
    (hfuel : 2 * text.length < fuel + 1) (hlimit : levels ≤ limit)
    (hopen : dropSpace text = '[' :: tail)
    (h : (match Json.skipSpace (symbolsOfChars tail) with
      | some ']' :: rest => (.array [] true, rest)
      | rest => Json.readItems fuel [] rest) = (node, rest))
    (hvalue : (node.value? levels).isSome) : ReadsValue (fuel + 1) limit text rest := by
  have hlength := length_lt_of_open hfuel hopen
  split at h
  next hclose =>
    cases h
    obtain ⟨below, rfl, -⟩ := exists_of_value?_array hvalue
    obtain ⟨limit, rfl⟩ := Nat.exists_eq_add_of_le' (Nat.le_trans (Nat.le_add_left 1 below) hlimit)
    obtain ⟨fuel, rfl⟩ := Nat.exists_eq_add_one_of_ne_zero (Nat.ne_zero_of_lt hlength)
    obtain ⟨after, rfl, -, hpasses, -, hskip⟩ := exists_of_skipSpace_eq_mark (by decide) hclose
    refine readsValue_of_open hopen (by decide) (by decide) hpasses
      ⟨.array [], ?_, JsonTree.isLegible_array _⟩
    rw [readTree_array hopen, readItems_close hskip]
  next =>
    rw [Json.readItems_skipSpace] at h
    obtain ⟨items, closed, hnode, -⟩ := exists_array_of_readItems fuel [] (symbolsOfChars tail)
    rw [h] at hnode
    cases hnode
    obtain ⟨below, rfl, rfl, hsound⟩ := exists_of_value?_array hvalue
    obtain ⟨limit, rfl⟩ := Nat.exists_eq_add_of_le' (Nat.le_trans (Nat.le_add_left 1 below) hlimit)
    obtain ⟨after, rfl, hpasses, hreads⟩ :=
      hitems hlength (Nat.le_of_succ_le_succ hlimit) h hsound
    refine readsValue_of_open hopen (by decide) (by decide) hpasses ?_
    rw [readTree_array hopen]
    exact hreads []

/-- An object is read where the strict reader reads one. -/
theorem readsValue_of_readMembers {fuel levels limit : Nat} (hmembers : MembersAgree fuel)
    {text tail : List Char} {node : Json.Node} {rest : List Symbol}
    (hfuel : 2 * text.length < fuel + 1) (hlimit : levels ≤ limit)
    (hopen : dropSpace text = '\x7b' :: tail)
    (h : (match Json.skipSpace (symbolsOfChars tail) with
      | some '\x7d' :: rest => (.object [] true, rest)
      | rest => Json.readMembers fuel [] rest) = (node, rest))
    (hvalue : (node.value? levels).isSome) : ReadsValue (fuel + 1) limit text rest := by
  have hlength := length_lt_of_open hfuel hopen
  split at h
  next hclose =>
    cases h
    obtain ⟨below, rfl, -⟩ := exists_of_value?_object hvalue
    obtain ⟨limit, rfl⟩ := Nat.exists_eq_add_of_le' (Nat.le_trans (Nat.le_add_left 1 below) hlimit)
    obtain ⟨fuel, rfl⟩ := Nat.exists_eq_add_one_of_ne_zero (Nat.ne_zero_of_lt hlength)
    obtain ⟨after, rfl, -, hpasses, -, hskip⟩ := exists_of_skipSpace_eq_mark (by decide) hclose
    refine readsValue_of_open hopen (by decide) (by decide) hpasses
      ⟨.object [], ?_, JsonTree.isLegible_object fun _ hmember => by cases hmember⟩
    rw [readTree_object hopen, readMembers_close hskip]
  next =>
    rw [Json.readMembers_skipSpace] at h
    obtain ⟨members, closed, hnode, -⟩ :=
      exists_object_of_readMembers fuel [] (symbolsOfChars tail)
    rw [h] at hnode
    cases hnode
    obtain ⟨below, rfl, rfl, hsound⟩ := exists_of_value?_object hvalue
    obtain ⟨limit, rfl⟩ := Nat.exists_eq_add_of_le' (Nat.le_trans (Nat.le_add_left 1 below) hlimit)
    obtain ⟨after, rfl, hpasses, hreads⟩ :=
      hmembers hlength (Nat.le_of_succ_le_succ hlimit) h hsound
    refine readsValue_of_open hopen (by decide) (by decide) hpasses ?_
    rw [readTree_object hopen]
    exact hreads [] fun _ hentry => by cases hentry

theorem nodeAgrees_succ {fuel : Nat} (hitems : ItemsAgree fuel) (hmembers : MembersAgree fuel) :
    NodeAgrees (fuel + 1) := by
  intro levels limit text node rest hfuel hlimit h hvalue
  rw [Json.readNode, skipSpace_symbolsOfChars] at h
  split at h
  case h_1 heq =>
    cases h
    exact @readsValue_of_word _ _ _ ['u', 'l', 'l'] _ _ _ heq (by decide) (by decide) (by decide)
      (fun _ => readWord_null) (JsonTree.isLegible_scalar Cell.isLegible_null _)
  case h_2 heq =>
    cases h
    exact @readsValue_of_word _ _ _ ['r', 'u', 'e'] _ _ _ heq (by decide) (by decide) (by decide)
      (fun _ => readWord_true) (JsonTree.isLegible_scalar (Cell.isLegible_integer 1) _)
  case h_3 heq =>
    cases h
    exact @readsValue_of_word _ _ _ ['a', 'l', 's', 'e'] _ _ _ heq (by decide) (by decide)
      (by decide) (fun _ => readWord_false) (JsonTree.isLegible_scalar (Cell.isLegible_integer 0) _)
  case h_4 heq =>
    obtain ⟨tail, hquote, rfl⟩ := symbolsOfChars_eq_cons heq
    split at h
    next string _ hstring =>
      cases h
      cases string with
      | none => cases hvalue
      | some string => exact readsValue_of_readString hquote hstring
    next =>
      cases h
      cases hvalue
  case h_5 heq =>
    obtain ⟨tail, hopen, rfl⟩ := symbolsOfChars_eq_cons heq
    exact readsValue_of_readItems hitems hfuel hlimit hopen h hvalue
  case h_6 heq =>
    obtain ⟨tail, hopen, rfl⟩ := symbolsOfChars_eq_cons heq
    exact readsValue_of_readMembers hmembers hfuel hlimit hopen h hvalue
  case h_7 =>
    split at h
    next numeral _ hnumeral =>
      cases h
      exact readsValue_of_readNumeral hnumeral
    next =>
      cases h
      cases hvalue

/-- The lenient reader follows the strict one. -/
theorem agrees (fuel : Nat) : NodeAgrees fuel ∧ ItemsAgree fuel ∧ MembersAgree fuel := by
  -- Each of the three takes one step and goes on with the others.
  induction fuel with
  | zero =>
      exact ⟨fun hfuel => absurd hfuel (Nat.not_lt_zero _),
        fun hfuel => absurd hfuel (Nat.not_lt_zero _),
        fun hfuel => absurd hfuel (Nat.not_lt_zero _)⟩
  | succ fuel ih =>
      obtain ⟨hnode, hitems, hmembers⟩ := ih
      exact ⟨nodeAgrees_succ hitems hmembers, itemsAgree_succ hnode hitems,
        membersAgree_succ hnode hmembers⟩

/-! ## Texts -/

/-- A text that spells a value is read as a document with a value, and only space is left. -/
theorem exists_readNode_of_readValue? {text : String} (h : (Json.readValue? text).isSome) :
    ∃ node rest,
      Json.readNode (2 * text.toList.length + 2) (symbolsOfChars text.toList) = (node, rest) ∧
        (node.value? Json.levelLimit).isSome ∧ Json.skipSpace rest = [] := by
  have hfuel : Json.readingFuel (symbolsOfString text) = 2 * text.toList.length + 2 := by
    rw [Json.readingFuel, symbolsOfString, length_symbolsOfChars]
  rw [Json.readValue?, Json.Document.ofString, Json.Document.ofSymbols, hfuel,
    symbolsOfString] at h
  generalize hread : Json.readNode (2 * text.toList.length + 2) (symbolsOfChars text.toList) =
    result at h
  obtain ⟨node, rest⟩ := result
  simp only [Json.Document.value?] at h
  split at h
  next value hvalue =>
    split at h
    next hended => exact ⟨node, rest, rfl, by rw [hvalue]; rfl, List.isEmpty_iff.mp hended⟩
    next => cases h
  next => cases h

/-- A text of space ends a lenient text. -/
theorem skipSpace_of_dropSpace_eq_nil {text : List Char} (h : dropSpace text = []) :
    skipSpace text.length text = [] := by
  rw [skipSpace_eq, h]
  rw [h]
  exact fun _ hc => by cases hc

/-- A text without a zero is read to its end. -/
theorem takeWhile_of_zeroFree {text : List Char} (h : '\x00' ∉ text) :
    (text.takeWhile fun c => c != '\x00') = text := by
  refine List.takeWhile_eq_self_iff.mpr fun c hc => ?_
  rw [bne_iff_ne]
  rintro rfl
  exact h hc

/-- What is JSON is lenient JSON. -/
theorem exists_read?_of_readValue? {text : String} (h : (Json.readValue? text).isSome) :
    ∃ tree, read? text = some tree ∧ tree.IsLegible := by
  obtain ⟨node, rest, hread, hvalue, hended⟩ := exists_readNode_of_readValue? h
  obtain ⟨-, after, rfl, hpasses, hreads⟩ := (agrees _).1 (by omega)
    (show Json.levelLimit ≤ JsonTree.levelLimit by decide) hread hvalue
  rw [skipSpace_symbolsOfChars] at hended
  have hend : dropSpace after = [] := List.map_eq_nil_iff.mp hended
  obtain ⟨tree, htree, hlegible⟩ := hreads (closes_of_dropSpace_nil hend)
  -- A lenient text ends at its first zero, but this one has none.
  have hzero : '\x00' ∉ text.toList := by
    refine hpasses.not_mem fun hmem => ?_
    exact absurd (List.dropWhile_eq_nil_iff.mp hend _ hmem) (by decide)
  refine ⟨tree, ?_, hlegible⟩
  simp only [read?, takeWhile_of_zeroFree hzero, htree, skipSpace_of_dropSpace_eq_nil hend,
    List.isEmpty_nil, if_true]

end LenientJson

namespace JsonTree

mutual

/-- Every tree of a document has cells. -/
theorem isLegible_of_ofNode (levels : Nat) :
    (node : Json.Node) → ∀ tree, ofNode levels node = some tree → tree.IsLegible
  | .null, _, h => by
      rw [ofNode] at h
      cases h
      exact isLegible_scalar Cell.isLegible_null _
  | .bool _, _, h => by
      rw [ofNode] at h
      cases h
      exact isLegible_scalar (Cell.isLegible_integer _) _
  | .number n, _, h => by
      rw [ofNode] at h
      cases h
      exact isLegible_scalar (Cell.isLegible_ofNumeral n) _
  | .string _, _, h => by
      rw [ofNode] at h
      cases h
      exact isLegible_scalar (Cell.isLegible_text (CodePoints.isText_ofChars _)) _
  | .broken, _, h => by
      rw [ofNode] at h
      cases h
  | .array items closed, tree, h => by
      cases levels with
      | zero => cases h
      | succ levels =>
          rw [ofNode] at h
          split at h
          next trees _ =>
            split at h <;> cases h
            exact isLegible_array trees
          next => cases h
  | .object members closed, tree, h => by
      cases levels with
      | zero => cases h
      | succ levels =>
          rw [ofNode] at h
          split at h
          next trees htrees =>
            split at h <;> cases h
            exact isLegible_object (isLegible_of_ofMembers levels members trees htrees)
          next => cases h

theorem isLegible_of_ofMembers (levels : Nat) :
    (members : List (Option String × Json.Node)) → ∀ trees, ofMembers levels members = some trees →
      ∀ member ∈ trees, member.2.2.IsLegible
  | [], _, h => by
      cases h
      exact fun _ hmember => by cases hmember
  | (key, item) :: rest, trees, h => by
      rw [ofMembers] at h
      split at h
      next tree htree =>
        obtain ⟨others, hothers, rfl⟩ := Option.map_eq_some_iff.mp h
        exact List.forall_mem_cons.mpr
          ⟨isLegible_of_ofNode levels item tree htree,
            isLegible_of_ofMembers levels rest others hothers⟩
      next => cases h

end

/-- What is JSON has a tree with cells, however it is written. -/
theorem exists_ofText?_of_readValue? {text : String} (h : (Json.readValue? text).isSome) :
    ∃ tree, ofText? text = some tree ∧ tree.IsLegible := by
  unfold ofText?
  split
  next tree hdocument =>
    split
    next =>
      refine ⟨tree, rfl, ?_⟩
      unfold ofDocument at hdocument
      split at hdocument
      next hnode =>
        split at hdocument <;> cases hdocument
        exact isLegible_of_ofNode _ _ _ hnode
      next => cases hdocument
    next => exact LenientJson.exists_read?_of_readValue? h
  next => exact LenientJson.exists_read?_of_readValue? h

end JsonTree

end FeedbackBoard
