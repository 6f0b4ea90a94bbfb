/-!
# Code points

Some sources of text spell halves of surrogate pairs that stand alone.  No
string holds them, so such a text is a list of code points.

Main definitions:

- `CodePoints`: the texts.
- `CodePoints.ofChars`, `CodePoints.text?`: from characters, and to a string if there is one.
- `CodePoints.beforeZero`: what a reader that stops at a zero sees.
-/

namespace FeedbackBoard

/-- A text by its code points, among which halves of pairs may stand alone. -/
abbrev CodePoints : Type := List Nat

namespace CodePoints

/-- The code points of characters. -/
def ofChars (chars : List Char) : CodePoints :=
  chars.map Char.toNat

/-- The code points of a string. -/
def ofString (s : String) : CodePoints :=
  ofChars s.toList

/-- All code points are characters. -/
def IsText (codes : CodePoints) : Prop :=
  ∀ code ∈ codes, code.isValidChar

instance (codes : CodePoints) : Decidable codes.IsText :=
  inferInstanceAs (Decidable (∀ code ∈ codes, code.isValidChar))

/-- The text as a string; there is none if half of a pair stands alone. -/
def text? (codes : CodePoints) : Option String :=
  if codes.IsText then some (String.ofList (codes.map Char.ofNat)) else none

/-- The code points before the first zero. -/
def beforeZero (codes : CodePoints) : CodePoints :=
  codes.takeWhile (· != 0)

/-! ## Small laws -/

theorem isText_ofChars (chars : List Char) : IsText (ofChars chars) := by
  intro code hcode
  obtain ⟨c, -, rfl⟩ := List.mem_map.mp hcode
  exact c.valid

theorem isText_singleton {code : Nat} : IsText [code] ↔ code.isValidChar :=
  List.forall_mem_singleton

/-- A string is its code points. -/
theorem text?_ofString (s : String) : text? (ofString s) = some s := by
  have hchars : (ofChars s.toList).map Char.ofNat = s.toList := by
    simp [ofChars, Function.comp_def]
  rw [ofString, text?, if_pos (isText_ofChars s.toList), hchars, String.ofList_toList]

/-- Different strings have different code points. -/
theorem eq_of_some_ofString {s t : String} (h : some (ofString s) = some (ofString t)) :
    s = t := by
  have htexts := congrArg text? (Option.some_inj.mp h)
  rw [text?_ofString, text?_ofString] at htexts
  exact Option.some_inj.mp htexts

theorem isSome_text?_iff {codes : CodePoints} : codes.text?.isSome ↔ codes.IsText := by
  rw [text?]
  split <;> simp [*]

end CodePoints

end FeedbackBoard
