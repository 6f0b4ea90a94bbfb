import FeedbackBoard.Text.Symbol
import Mathlib.Data.List.Sort

/-!
# Byte order of texts

Texts are compared by their characters.  Their UTF-8 spelling keeps that order:
of two characters the greater one has the greater bytes, and no spelling of a
character begins that of another.

Main results:

- `utf8_append_lt`: the greater character has the greater bytes, whatever follows.
- `bytesOfText_lt_iff`: texts are ordered as their bytes are.
- `compare_eq_lt_iff_bytes`: so are texts that are compared.
-/

namespace FeedbackBoard

/-- The bytes of a text. -/
def bytesOfText (text : String) : List UInt8 :=
  bytesOfChars text.toList

/-! ## Characters -/

/-- The greater character has the greater bytes, whatever follows. -/
theorem utf8_append_lt {c d : Char} (h : c < d) (s t : List UInt8) :
    String.utf8EncodeChar c ++ s < String.utf8EncodeChar d ++ t := by
  have hlt : c.val.toNat < d.val.toNat := h
  have hd : d.val.toNat < 0x110000 := by
    have := d.valid
    simp only [UInt32.isValidChar, Nat.isValidChar] at this
    omega
  -- Quotients by 64 in turn, so that every byte shows one digit to base 64.
  have h₂ : ∀ k, k / 4096 = k / 64 / 64 := by omega
  have h₃ : ∀ k, k / 262144 = k / 64 / 64 / 64 := by omega
  generalize hm : c.val.toNat = m at *
  generalize hn : d.val.toNat = n at *
  simp only [String.utf8EncodeChar, hm, hn, h₂, h₃]
  split_ifs <;>
    simp only [List.cons_append, List.nil_append, List.cons_lt_cons_iff, UInt8.lt_iff_toNat_lt,
      ← UInt8.toNat_inj, UInt8.toNat_ofNat'] <;>
    omega

/-! ## Texts -/

/-- A text comes before another if its bytes do. -/
theorem bytesOfChars_lt {s t : List Char} (h : s < t) : bytesOfChars s < bytesOfChars t := by
  induction s generalizing t with
  | nil =>
      cases t with
      | nil => simp at h
      | cons d t =>
          rw [bytesOfChars, bytesOfChars, List.flatMap_nil, List.flatMap_cons]
          have hne : String.utf8EncodeChar d ++ t.flatMap String.utf8EncodeChar ≠ [] := by
            simp
          obtain ⟨b, bs, hbytes⟩ := List.exists_cons_of_ne_nil hne
          rw [hbytes]
          exact List.nil_lt_cons b bs
  | cons c s ih =>
      cases t with
      | nil => simp at h
      | cons d t =>
          rw [bytesOfChars, bytesOfChars, List.flatMap_cons, List.flatMap_cons]
          rcases List.cons_lt_cons_iff.mp h with hcd | ⟨rfl, hst⟩
          · exact utf8_append_lt hcd _ _
          · exact List.append_left_lt (ih hst)

/-- Texts are ordered as their bytes are. -/
theorem bytesOfText_lt_iff (s t : String) : bytesOfText s < bytesOfText t ↔ s < t := by
  constructor
  · intro h
    by_contra hnot
    have hle : t ≤ s := String.not_lt.mp hnot
    by_cases heq : t = s
    · subst heq
      exact List.lt_irrefl _ h
    · have hts : t < s := String.not_le.mp fun hst => heq (String.le_antisymm hle hst)
      exact List.lt_asymm h (bytesOfChars_lt hts)
  · intro h
    exact bytesOfChars_lt h

/-- A text is found to come before another exactly if its bytes do. -/
theorem compare_eq_lt_iff_bytes (s t : String) :
    compare s t = .lt ↔ bytesOfText s < bytesOfText t := by
  have hless : compare s t = .lt ↔ s < t := compareOfLessAndEq_eq_lt
  rw [hless, bytesOfText_lt_iff]

end FeedbackBoard
