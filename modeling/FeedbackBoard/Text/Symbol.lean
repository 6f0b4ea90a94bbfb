/-!
# Texts that arrive as bytes

A text read from outside is a list of symbols: characters, and a mark for every
place where the bytes spell no character.  The mark stands for a longest run of
bytes that could still have begun a character, so a reader that is lenient can
put one replacement character there, and a strict reader knows that the text is
damaged.

Main definitions:

- `Symbol`: a character, or `none` for a damaged place.
- `symbolsOfBytes`: the UTF-8 reading of bytes.
- `sound?`: the characters of a text without damage.
- `lenient`: the characters, with U+FFFD at every damaged place.
-/

namespace FeedbackBoard

/-- A character, or `none` where bytes spell no character. -/
abbrev Symbol := Option Char

/-- The symbols of a text that is known to be sound. -/
def symbolsOfChars (chars : List Char) : List Symbol :=
  chars.map some

/-- The symbols of a string. -/
def symbolsOfString (text : String) : List Symbol :=
  symbolsOfChars text.toList

/-! ## Reading UTF-8 -/

/-- A character whose first bytes have been read. -/
structure PartialChar where
  /-- How many bytes are still missing. -/
  missing : Nat
  /-- The bits read so far. -/
  payload : Nat
  /-- The least value the next byte may have. -/
  low : Nat
  /-- The greatest value the next byte may have. -/
  high : Nat

/--
What a first byte begins: a whole character, a longer one, or nothing.  The
bounds on the second byte exclude overlong spellings, surrogates and values past
the last code point.
-/
inductive FirstByte
  | whole (c : Char)
  | begun (p : PartialChar)
  | stray

/-- The classification of first bytes. -/
def FirstByte.ofByte (byte : UInt8) : FirstByte :=
  let n := byte.toNat
  if n < 0x80 then .whole (Char.ofNat n)
  else if n < 0xC2 then .stray
  else if n < 0xE0 then .begun ⟨1, n - 0xC0, 0x80, 0xBF⟩
  else if n = 0xE0 then .begun ⟨2, 0, 0xA0, 0xBF⟩
  else if n = 0xED then .begun ⟨2, 13, 0x80, 0x9F⟩
  else if n < 0xF0 then .begun ⟨2, n - 0xE0, 0x80, 0xBF⟩
  else if n = 0xF0 then .begun ⟨3, 0, 0x90, 0xBF⟩
  else if n < 0xF4 then .begun ⟨3, n - 0xF0, 0x80, 0xBF⟩
  else if n = 0xF4 then .begun ⟨3, 4, 0x80, 0x8F⟩
  else .stray

/-- The symbols read so far, latest first, and the character being read. -/
structure Utf8State where
  read : List Symbol
  current : Option PartialChar

/-- Takes a byte that begins a character. -/
def Utf8State.start (read : List Symbol) (byte : UInt8) : Utf8State :=
  match FirstByte.ofByte byte with
  | .whole c => ⟨some c :: read, none⟩
  | .begun p => ⟨read, some p⟩
  | .stray => ⟨none :: read, none⟩

/-- Takes the next byte; one that does not continue the current character ends it as damaged. -/
def Utf8State.step (state : Utf8State) (byte : UInt8) : Utf8State :=
  match state.current with
  | none => start state.read byte
  | some p =>
    let n := byte.toNat
    if p.low ≤ n ∧ n ≤ p.high then
      let payload := p.payload * 64 + (n - 0x80)
      if p.missing ≤ 1 then ⟨some (Char.ofNat payload) :: state.read, none⟩
      else ⟨state.read, some ⟨p.missing - 1, payload, 0x80, 0xBF⟩⟩
    else start (none :: state.read) byte

/-- The symbols of the bytes read; a character cut short by the end is damaged. -/
def Utf8State.finish (state : Utf8State) : List Symbol :=
  match state.current with
  | none => state.read.reverse
  | some _ => (none :: state.read).reverse

/-- The UTF-8 reading of bytes. -/
def symbolsOfBytes (bytes : List UInt8) : List Symbol :=
  (bytes.foldl Utf8State.step ⟨[], none⟩).finish

/-- The UTF-8 spelling of characters. -/
def bytesOfChars (chars : List Char) : List UInt8 :=
  chars.flatMap String.utf8EncodeChar

/-! ## Characters of a text -/

/-- The characters of a text without damage. -/
def sound? (symbols : List Symbol) : Option (List Char) :=
  if symbols.all Option.isSome then some (symbols.filterMap id) else none

/-- The characters of a text, with the replacement character at every damaged place. -/
def lenient (symbols : List Symbol) : List Char :=
  symbols.map (·.getD (Char.ofNat 0xFFFD))

@[simp]
theorem sound?_symbolsOfChars (chars : List Char) : sound? (symbolsOfChars chars) = some chars := by
  simp [sound?, symbolsOfChars, List.filterMap_map]

end FeedbackBoard
