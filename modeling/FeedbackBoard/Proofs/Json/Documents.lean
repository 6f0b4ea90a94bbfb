import FeedbackBoard.Proofs.Json.NumberText
import Mathlib.Data.List.DropRight

/-!
# Reading what is written

Values are written on one line or on indented lines; the two differ only in the
space between the parts.  Whatever the spacing, the reader finds the document of
the value where it was written, and stops behind it.

Main definitions:

- `Spacing`, `Value.spelled`: the characters of a value with any spacing.
- `Node.ofValue`: the document of a value.

Main results:

- `Value.spelled_compact`, `Value.spelled_indented`: both ways of writing are spellings.
- `readNode_spelled`: a spelling is read back.
- `Document.ofString_compact`, `Document.ofString_pretty`: so are whole texts.
-/

namespace FeedbackBoard.Json

/-! ## Spellings -/

/-- How much space stands between the parts of a document. -/
structure Spacing where
  /-- The space in front of every item and member of a level, and of its end. -/
  line : Nat → List Char
  /-- The space behind a colon. -/
  colon : List Char

/-- Nothing but space stands between the parts. -/
structure Spacing.IsSpace (s : Spacing) : Prop where
  line : ∀ level, ∀ c ∈ s.line level, isSpace (some c) = true
  colon : ∀ c ∈ s.colon, isSpace (some c) = true

/-- No space at all. -/
def Spacing.none : Spacing := ⟨fun _ => [], []⟩

/-- Lines that are indented by their level. -/
def Spacing.indented : Spacing := ⟨newLine, [' ']⟩

theorem Spacing.isSpace_none : Spacing.none.IsSpace where
  line _ _ h := by cases h
  colon _ h := by cases h

theorem Spacing.isSpace_indented : Spacing.indented.IsSpace where
  line level c hc := by
    rcases List.mem_cons.mp hc with rfl | hc
    · rfl
    · rw [List.eq_of_mem_replicate hc]
      rfl
  colon c hc := by
    rw [List.mem_singleton.mp hc]
    rfl

mutual

/-- The characters of a value that stands at a level. -/
def Value.spelled (s : Spacing) (level : Nat) : Value → List Char
  | .null => ['n', 'u', 'l', 'l']
  | .bool true => ['t', 'r', 'u', 'e']
  | .bool false => ['f', 'a', 'l', 's', 'e']
  | .number n => n.text
  | .string text => stringChars text
  | .array [] => ['[', ']']
  | .array (item :: rest) =>
    '[' :: Value.spelledItems s (level + 1) (item :: rest) ++ (s.line level ++ [']'])
  | .object [] => ['\x7b', '\x7d']
  | .object (member :: rest) =>
    '\x7b' :: Value.spelledMembers s (level + 1) (member :: rest) ++ (s.line level ++ ['\x7d'])

/-- The items of an array. -/
def Value.spelledItems (s : Spacing) (level : Nat) : List Value → List Char
  | [] => []
  | [item] => s.line level ++ item.spelled s level
  | item :: rest =>
    s.line level ++ item.spelled s level ++ ',' :: Value.spelledItems s level rest

/-- The members of an object. -/
def Value.spelledMembers (s : Spacing) (level : Nat) : List (String × Value) → List Char
  | [] => []
  | [(key, item)] =>
    s.line level ++ stringChars key ++ ':' :: (s.colon ++ item.spelled s level)
  | (key, item) :: rest =>
    s.line level ++ stringChars key ++ ':' :: (s.colon ++ item.spelled s level) ++
      ',' :: Value.spelledMembers s level rest

end

mutual

/-- A value on one line is spelled without space. -/
theorem Value.spelled_compact (level : Nat) :
    (value : Value) → value.spelled .none level = value.compactChars
  | .null | .bool true | .bool false | .number _ | .string _ => rfl
  | .array [] | .object [] => rfl
  | .array (item :: rest) => by
      rw [spelled, compactChars, spelledItems_compact]
      rfl
  | .object (member :: rest) => by
      rw [spelled, compactChars, spelledMembers_compact]
      rfl

theorem Value.spelledItems_compact (level : Nat) :
    (items : List Value) → spelledItems .none level items = compactItems items
  | [] => rfl
  | [item] => by
      rw [spelledItems, compactItems, spelled_compact]
      rfl
  | item :: next :: rest => by
      rw [spelledItems, compactItems, spelled_compact, spelledItems_compact]
      · rfl
      all_goals exact fun h => by cases h

theorem Value.spelledMembers_compact (level : Nat) :
    (members : List (String × Value)) → spelledMembers .none level members = compactMembers members
  | [] => rfl
  | [(key, item)] => by
      rw [spelledMembers, compactMembers, spelled_compact]
      rfl
  | (key, item) :: next :: rest => by
      rw [spelledMembers, compactMembers, spelled_compact, spelledMembers_compact]
      · rfl
      all_goals exact fun h => by cases h

end

mutual

/-- A value on indented lines is spelled with them. -/
theorem Value.spelled_indented (level : Nat) :
    (value : Value) → value.spelled .indented level = value.prettyChars level
  | .null | .bool true | .bool false | .number _ | .string _ => rfl
  | .array [] | .object [] => rfl
  | .array (item :: rest) => by
      rw [spelled, prettyChars, spelledItems_indented, ← List.append_assoc]
      rfl
  | .object (member :: rest) => by
      rw [spelled, prettyChars, spelledMembers_indented, ← List.append_assoc]
      rfl

theorem Value.spelledItems_indented (level : Nat) :
    (items : List Value) → spelledItems .indented level items = prettyItems level items
  | [] => rfl
  | [item] => by
      rw [spelledItems, prettyItems, spelled_indented]
      rfl
  | item :: next :: rest => by
      rw [spelledItems, prettyItems, spelled_indented, spelledItems_indented]
      · rfl
      all_goals exact fun h => by cases h

theorem Value.spelledMembers_indented (level : Nat) :
    (members : List (String × Value)) →
      spelledMembers .indented level members = prettyMembers level members
  | [] => rfl
  | [(key, item)] => by
      rw [spelledMembers, prettyMembers, spelled_indented]
      rfl
  | (key, item) :: next :: rest => by
      rw [spelledMembers, prettyMembers, spelled_indented, spelledMembers_indented]
      · rfl
      all_goals exact fun h => by cases h

end

/-! ## Space -/

theorem skipSpace_append {space : List Char} (h : ∀ c ∈ space, isSpace (some c) = true)
    (text : List Symbol) : skipSpace (symbolsOfChars space ++ text) = skipSpace text := by
  induction space with
  | nil => rfl
  | cons c space ih =>
      rw [symbolsOfChars_cons, List.cons_append, skipSpace,
        List.dropWhile_cons_of_pos (h c List.mem_cons_self)]
      exact ih fun d hd => h d (List.mem_cons_of_mem c hd)

theorem skipSpace_cons {c : Char} (h : isSpace (some c) = false) (text : List Symbol) :
    skipSpace (some c :: text) = some c :: text :=
  List.dropWhile_cons_of_neg (by simp [h])

theorem skipSpace_skipSpace (text : List Symbol) : skipSpace (skipSpace text) = skipSpace text :=
  List.dropWhile_idempotent _ text

/-- Space at the beginning does not matter to the reader. -/
theorem readNode_skipSpace (fuel : Nat) (text : List Symbol) :
    readNode fuel (skipSpace text) = readNode fuel text := by
  cases fuel with
  | zero => rfl
  | succ fuel => rw [readNode, readNode, skipSpace_skipSpace]

theorem readItems_skipSpace (fuel : Nat) (items : List Node) (text : List Symbol) :
    readItems fuel items (skipSpace text) = readItems fuel items text := by
  cases fuel with
  | zero => rfl
  | succ fuel => rw [readItems, readItems, readNode_skipSpace]

theorem readMembers_skipSpace (fuel : Nat) (members : List (Option String × Node))
    (text : List Symbol) :
    readMembers fuel members (skipSpace text) = readMembers fuel members text := by
  cases fuel with
  | zero => rfl
  | succ fuel => rw [readMembers, readMembers, skipSpace_skipSpace]

/-- Space, and then what ends a numeral, ends a numeral. -/
theorem endsNumeral_space {space : List Char} (h : ∀ c ∈ space, isSpace (some c) = true)
    {rest : List Symbol} (hrest : EndsNumeral rest) :
    EndsNumeral (symbolsOfChars space ++ rest) := by
  cases space with
  | nil => exact hrest
  | cons c space =>
      have hspace : ∀ c : Char, isSpace (some c) = true →
          c.isDigit = false ∧ c ≠ '.' ∧ c ≠ 'e' ∧ c ≠ 'E' := by
        intro c hc
        simp only [isSpace, Bool.or_eq_true, beq_iff_eq] at hc
        rcases hc with ((rfl | rfl) | rfl) | rfl <;> decide
      exact endsNumeral_cons (hspace c (h c List.mem_cons_self))

/-! ## Documents -/

mutual

/-- The document of a value. -/
def Node.ofValue : Value → Node
  | .null => .null
  | .bool b => .bool b
  | .number n => .number n.numeral
  | .string text => .string (some text)
  | .array items => .array (Node.ofItems items) true
  | .object members => .object (Node.ofMembers members) true

/-- The documents of all items. -/
def Node.ofItems : List Value → List Node
  | [] => []
  | item :: rest => Node.ofValue item :: Node.ofItems rest

/-- The documents of all members. -/
def Node.ofMembers : List (String × Value) → List (Option String × Node)
  | [] => []
  | (key, item) :: rest => (some key, Node.ofValue item) :: Node.ofMembers rest

end

/-- A spelling begins with a character that is no space and closes nothing. -/
theorem Value.head_spelled (s : Spacing) (level : Nat) (value : Value) :
    ∃ c tail, value.spelled s level = c :: tail ∧ isSpace (some c) = false ∧ c ≠ ']' := by
  match value with
  | .null | .bool true | .bool false | .array [] | .object [] =>
      exact ⟨_, _, rfl, by decide, by decide⟩
  | .array (item :: rest) => exact ⟨'[', _, rfl, by decide, by decide⟩
  | .object (member :: rest) => exact ⟨'\x7b', _, rfl, by decide, by decide⟩
  | .string text => exact ⟨'"', _, rfl, by decide, by decide⟩
  | .number n =>
      obtain ⟨c, tail, hchars, hc⟩ := Numeral.head_chars n.wellFormed_numeral
      rw [Number.chars_numeral] at hchars
      refine ⟨c, tail, hchars, ?_⟩
      rcases hc with rfl | hc
      · decide
      · have hne : ∀ d : Char, d.isDigit = false → c ≠ d := by
          rintro d hd rfl
          rw [hc] at hd
          cases hd
        simp [isSpace, hne]

/-- A numeral is read as a number. -/
theorem readNode_numeral {n : Numeral} (hn : n.WellFormed) {rest : List Symbol}
    (hrest : EndsNumeral rest) (fuel : Nat) :
    readNode (fuel + 1) (symbolsOfChars n.chars ++ rest) = (.number n, rest) := by
  have hread := readNumeral_chars hn hrest
  obtain ⟨c, tail, hchars, hc⟩ := Numeral.head_chars hn
  rw [hchars, symbolsOfChars_cons, List.cons_append] at hread ⊢
  have hne : ∀ d : Char, d ≠ '-' → d.isDigit = false → c ≠ d := by
    rintro d hminus hdigit rfl
    rcases hc with hc | hc
    · exact hminus hc
    · rw [hc] at hdigit
      cases hdigit
  have hspace : isSpace (some c) = false := by
    simp [isSpace, hne]
  rw [readNode, skipSpace_cons hspace]
  split
  case h_7 => rw [hread]
  all_goals
    rename_i heq
    exact absurd (by simpa using congrArg List.head? heq) (hne _ (by decide) (by decide))

/-- Space in front of a document does not matter to the reader. -/
theorem readNode_append {space : List Char} (h : ∀ c ∈ space, isSpace (some c) = true) (fuel : Nat)
    (text : List Symbol) : readNode fuel (symbolsOfChars space ++ text) = readNode fuel text := by
  rw [← readNode_skipSpace, skipSpace_append h, readNode_skipSpace]

/-- A spelling takes a character, so there is fuel for it. -/
theorem fuel_pos {s : Spacing} {level fuel : Nat} {value : Value}
    (h : 2 * (value.spelled s level).length ≤ fuel) : ∃ less, fuel = less + 1 := by
  obtain ⟨c, tail, hhead, _, _⟩ := value.head_spelled s level
  rw [hhead, List.length_cons] at h
  exact ⟨fuel - 1, by omega⟩

/-- Items begin with space and the first of them. -/
theorem exists_spelledItems (s : Spacing) (level : Nat) (item : Value) (following : List Value) :
    ∃ tail, Value.spelledItems s level (item :: following) =
      s.line level ++ (item.spelled s level ++ tail) := by
  cases following with
  | nil => exact ⟨[], by rw [Value.spelledItems, List.append_nil]⟩
  | cons next following =>
      refine ⟨',' :: Value.spelledItems s level (next :: following), ?_⟩
      rw [Value.spelledItems, List.append_assoc]
      exact fun h => by cases h

/-- Members begin with space and the key of the first. -/
theorem exists_spelledMembers (s : Spacing) (level : Nat) (member : String × Value)
    (following : List (String × Value)) :
    ∃ tail, Value.spelledMembers s level (member :: following) =
      s.line level ++ (stringChars member.1 ++ tail) := by
  obtain ⟨key, item⟩ := member
  cases following with
  | nil => exact ⟨_, by rw [Value.spelledMembers, List.append_assoc]⟩
  | cons next following =>
      refine ⟨':' :: (s.colon ++ item.spelled s level) ++
        ',' :: Value.spelledMembers s level (next :: following), ?_⟩
      rw [Value.spelledMembers, List.append_assoc, List.append_assoc]
      exact fun h => by cases h

/-- Behind the space, items begin with a character that closes nothing. -/
theorem skipSpace_spelledItems {s : Spacing} (hs : s.IsSpace) (level : Nat) (item : Value)
    (following : List Value) (rest : List Symbol) :
    ∃ c tail, skipSpace (symbolsOfChars (Value.spelledItems s level (item :: following)) ++ rest) =
      some c :: tail ∧ c ≠ ']' := by
  obtain ⟨tail, htail⟩ := exists_spelledItems s level item following
  obtain ⟨c, first, hhead, hspace, hclose⟩ := item.head_spelled s level
  rw [htail, symbolsOfChars_append, List.append_assoc, skipSpace_append (hs.line level), hhead]
  exact ⟨c, _, skipSpace_cons hspace _, hclose⟩

/-- Behind the space, members begin with a key. -/
theorem skipSpace_spelledMembers {s : Spacing} (hs : s.IsSpace) (level : Nat)
    (member : String × Value) (following : List (String × Value)) (rest : List Symbol) :
    ∃ tail, skipSpace (symbolsOfChars (Value.spelledMembers s level (member :: following)) ++ rest) =
      some '"' :: tail := by
  obtain ⟨tail, htail⟩ := exists_spelledMembers s level member following
  obtain ⟨first, hfirst, _⟩ := readString_stringChars member.1
  rw [htail, symbolsOfChars_append, List.append_assoc, skipSpace_append (hs.line level), hfirst]
  exact ⟨_, skipSpace_cons (by decide) _⟩

variable {s : Spacing} (hs : s.IsSpace)
include hs

mutual

/-- A spelling is read back, whatever follows it. -/
theorem readNode_spelled (level fuel : Nat) (rest : List Symbol) (hrest : EndsNumeral rest) :
    (value : Value) → 2 * (value.spelled s level).length ≤ fuel →
      readNode fuel (symbolsOfChars (value.spelled s level) ++ rest) = (Node.ofValue value, rest)
  | .null, hfuel | .bool true, hfuel | .bool false, hfuel | .array [], hfuel | .object [], hfuel => by
      obtain ⟨fuel, rfl⟩ := fuel_pos hfuel
      rfl
  | .number n, hfuel => by
      obtain ⟨fuel, rfl⟩ := fuel_pos hfuel
      rw [Value.spelled, ← Number.chars_numeral]
      exact readNode_numeral n.wellFormed_numeral hrest fuel
  | .string text, hfuel => by
      obtain ⟨fuel, rfl⟩ := fuel_pos hfuel
      obtain ⟨tail, htail, hread⟩ := readString_stringChars text
      rw [Value.spelled, htail, symbolsOfChars_cons, List.cons_append, readNode,
        skipSpace_cons (by decide)]
      simp only [hread]
      rfl
  | .array (item :: following), hfuel => by
      obtain ⟨fuel, rfl⟩ := fuel_pos hfuel
      simp only [Value.spelled, List.length_cons, List.length_append] at hfuel
      have hitems := readItems_spelled (level + 1) fuel [] (hs.line level) rest (item :: following)
        (List.cons_ne_nil _ _) (by omega)
      obtain ⟨c, tail, hskip, hclose⟩ := skipSpace_spelledItems hs (level + 1) item following
        (symbolsOfChars (s.line level) ++ some ']' :: rest)
      rw [← readItems_skipSpace, hskip] at hitems
      rw [Value.spelled, symbolsOfChars_append, symbolsOfChars_cons, symbolsOfChars_append,
        List.append_assoc, List.cons_append, List.append_assoc, readNode, skipSpace_cons (by decide)]
      simp only [symbolsOfChars_cons, symbolsOfChars_nil, List.cons_append, List.nil_append, hskip]
      split
      · next heq => exact absurd (by simpa using congrArg List.head? heq) hclose
      · exact hitems
  | .object (member :: following), hfuel => by
      obtain ⟨fuel, rfl⟩ := fuel_pos hfuel
      simp only [Value.spelled, List.length_cons, List.length_append] at hfuel
      have hmembers := readMembers_spelled (level + 1) fuel [] (hs.line level) rest
        (member :: following) (List.cons_ne_nil _ _) (by omega)
      obtain ⟨tail, hskip⟩ := skipSpace_spelledMembers hs (level + 1) member following
        (symbolsOfChars (s.line level) ++ some '\x7d' :: rest)
      rw [← readMembers_skipSpace, hskip] at hmembers
      rw [Value.spelled, symbolsOfChars_append, symbolsOfChars_cons, symbolsOfChars_append,
        List.append_assoc, List.cons_append, List.append_assoc, readNode, skipSpace_cons (by decide)]
      simp only [symbolsOfChars_cons, symbolsOfChars_nil, List.cons_append, List.nil_append, hskip]
      exact hmembers

/-- The items of an array are read back up to its end. -/
theorem readItems_spelled (level fuel : Nat) (before : List Node) {space : List Char}
    (hspace : ∀ c ∈ space, isSpace (some c) = true) (rest : List Symbol) :
    (items : List Value) → items ≠ [] →
      2 * (Value.spelledItems s level items).length + 1 ≤ fuel →
      readItems fuel before (symbolsOfChars (Value.spelledItems s level items) ++
          (symbolsOfChars space ++ some ']' :: rest)) =
        (.array (before.reverse ++ Node.ofItems items) true, rest)
  | [], hne, _ => absurd rfl hne
  | [item], _, hfuel => by
      obtain ⟨fuel, rfl⟩ : ∃ less, fuel = less + 1 := ⟨fuel - 1, by omega⟩
      simp only [Value.spelledItems, List.length_append] at hfuel
      have hread := readNode_spelled level fuel (symbolsOfChars space ++ some ']' :: rest)
        (endsNumeral_space hspace (endsNumeral_cons (by decide))) item (by omega)
      rw [Value.spelledItems, symbolsOfChars_append, List.append_assoc, readItems,
        readNode_append (hs.line level), hread]
      simp only [skipSpace_append hspace, skipSpace_cons (c := ']') (by decide)]
      simp [Node.ofItems]
  | item :: next :: following, _, hfuel => by
      obtain ⟨fuel, rfl⟩ : ∃ less, fuel = less + 1 := ⟨fuel - 1, by omega⟩
      have hitems : Value.spelledItems s level (item :: next :: following) =
          s.line level ++ (item.spelled s level ++
            ',' :: Value.spelledItems s level (next :: following)) := by
        rw [Value.spelledItems, List.append_assoc]
        exact fun h => by cases h
      rw [hitems] at hfuel ⊢
      simp only [List.length_cons, List.length_append] at hfuel
      have hrest := readItems_spelled level fuel (Node.ofValue item :: before) hspace rest
        (next :: following) (List.cons_ne_nil _ _) (by omega)
      have hread := readNode_spelled level fuel
        (some ',' :: (symbolsOfChars (Value.spelledItems s level (next :: following)) ++
          (symbolsOfChars space ++ some ']' :: rest)))
        (endsNumeral_cons (by decide)) item (by omega)
      rw [symbolsOfChars_append, symbolsOfChars_append, symbolsOfChars_cons, List.append_assoc,
        List.append_assoc, List.cons_append, readItems, readNode_append (hs.line level), hread]
      simp only [skipSpace_cons (c := ',') (by decide), hrest]
      simp [Node.ofItems]

/-- The members of an object are read back up to its end. -/
theorem readMembers_spelled (level fuel : Nat) (before : List (Option String × Node))
    {space : List Char} (hspace : ∀ c ∈ space, isSpace (some c) = true) (rest : List Symbol) :
    (members : List (String × Value)) → members ≠ [] →
      2 * (Value.spelledMembers s level members).length + 1 ≤ fuel →
      readMembers fuel before (symbolsOfChars (Value.spelledMembers s level members) ++
          (symbolsOfChars space ++ some '\x7d' :: rest)) =
        (.object (before.reverse ++ Node.ofMembers members) true, rest)
  | [], hne, _ => absurd rfl hne
  | [(key, item)], _, hfuel => by
      obtain ⟨fuel, rfl⟩ : ∃ less, fuel = less + 1 := ⟨fuel - 1, by omega⟩
      obtain ⟨tail, htail, hkey⟩ := readString_stringChars key
      simp only [Value.spelledMembers, List.length_cons, List.length_append] at hfuel
      have hread := readNode_spelled level fuel (symbolsOfChars space ++ some '\x7d' :: rest)
        (endsNumeral_space hspace (endsNumeral_cons (by decide))) item (by omega)
      rw [Value.spelledMembers, htail, List.append_assoc, symbolsOfChars_append, List.append_assoc,
        ← readMembers_skipSpace, skipSpace_append (hs.line level), readMembers_skipSpace]
      simp only [symbolsOfChars_append, symbolsOfChars_cons, List.cons_append, List.append_assoc,
        readMembers, skipSpace_cons (c := '"') (by decide), hkey, skipSpace_cons (c := ':') (by decide),
        readNode_append hs.colon, hread, skipSpace_append hspace,
        skipSpace_cons (c := '\x7d') (by decide)]
      simp [Node.ofMembers]
  | (key, item) :: next :: following, _, hfuel => by
      obtain ⟨fuel, rfl⟩ : ∃ less, fuel = less + 1 := ⟨fuel - 1, by omega⟩
      obtain ⟨tail, htail, hkey⟩ := readString_stringChars key
      have hmembers : Value.spelledMembers s level ((key, item) :: next :: following) =
          s.line level ++ (stringChars key ++ ':' :: (s.colon ++ (item.spelled s level ++
            ',' :: Value.spelledMembers s level (next :: following)))) := by
        rw [Value.spelledMembers]
        · simp
        · exact fun h => by cases h
      rw [hmembers] at hfuel ⊢
      simp only [List.length_cons, List.length_append] at hfuel
      have hrest := readMembers_spelled level fuel ((some key, Node.ofValue item) :: before) hspace
        rest (next :: following) (List.cons_ne_nil _ _) (by omega)
      have hread := readNode_spelled level fuel
        (some ',' :: (symbolsOfChars (Value.spelledMembers s level (next :: following)) ++
          (symbolsOfChars space ++ some '\x7d' :: rest)))
        (endsNumeral_cons (by decide)) item (by omega)
      rw [htail, symbolsOfChars_append, List.append_assoc, ← readMembers_skipSpace,
        skipSpace_append (hs.line level), readMembers_skipSpace]
      simp only [symbolsOfChars_append, symbolsOfChars_cons, List.cons_append, List.append_assoc,
        readMembers, skipSpace_cons (c := '"') (by decide), hkey, skipSpace_cons (c := ':') (by decide),
        readNode_append hs.colon, hread, skipSpace_cons (c := ',') (by decide), hrest]
      simp [Node.ofMembers]

end

/-- A spelling is read back if nothing but space follows it. -/
theorem Document.ofString_spelled (level : Nat) (value : Value) {space : List Char}
    (hspace : ∀ c ∈ space, isSpace (some c) = true) :
    Document.ofString (String.ofList (value.spelled s level ++ space)) =
      ⟨Node.ofValue value, true⟩ := by
  have hread := readNode_spelled hs level
    (readingFuel (symbolsOfChars (value.spelled s level) ++ symbolsOfChars space))
    (symbolsOfChars space) ?_ value
    (by rw [readingFuel, List.length_append, length_symbolsOfChars]; omega)
  · have hend : skipSpace (symbolsOfChars space) = [] := by
      rw [← List.append_nil (symbolsOfChars space), skipSpace_append hspace]
      rfl
    rw [ofString, ofSymbols, symbolsOfString, String.toList_ofList, symbolsOfChars_append, hread]
    simp only [hend, List.isEmpty_nil]
  · rw [← List.append_nil (symbolsOfChars space)]
    exact endsNumeral_space hspace endsNumeral_nil

omit hs

/-- A value written on one line is read back. -/
theorem Document.ofString_compact (value : Value) :
    Document.ofString value.compact = ⟨Node.ofValue value, true⟩ := by
  rw [Value.compact, ← Value.spelled_compact 0, ← List.append_nil (value.spelled _ _)]
  exact ofString_spelled Spacing.isSpace_none 0 value fun _ h => absurd h List.not_mem_nil

/-- A value written on indented lines is read back, whatever space follows it. -/
theorem Document.ofString_pretty_append (value : Value) {space : List Char}
    (hspace : ∀ c ∈ space, isSpace (some c) = true) :
    Document.ofString (value.pretty ++ String.ofList space) = ⟨Node.ofValue value, true⟩ := by
  rw [Value.pretty, ← Value.spelled_indented, ← String.ofList_append]
  exact ofString_spelled Spacing.isSpace_indented 0 value hspace

/-- A value written on indented lines is read back. -/
theorem Document.ofString_pretty (value : Value) :
    Document.ofString value.pretty = ⟨Node.ofValue value, true⟩ := by
  have hread := ofString_pretty_append value fun _ h => absurd h List.not_mem_nil
  rwa [String.ofList_nil, String.append_empty] at hread

end FeedbackBoard.Json
