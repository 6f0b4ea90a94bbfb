import FeedbackBoard.Api.Board
import FeedbackBoard.Command.Line
import FeedbackBoard.Proofs.Access.Registration
import FeedbackBoard.Proofs.Api.PageQueries
import Mathlib.Data.List.TakeWhile

/-!
# Bearer secrets

A request shows a secret in a header: the scheme, a space, and the secret between blanks.
Exactly the values of this form show one, and the secret in them is no other.  The command
line prints the digest of a secret; an entry of the settings with this digest lets in
whoever shows the secret.

Main definitions:

- `Announcement`: a value of the header, in parts.
- `PrintsDigest`: what the command line prints for a secret.

Main results:

- `trimBlanks_eq_iff`: what is left of a text when its blanks are taken off.
- `bearerSecret?_eq_some_iff`: which values show which secret.
- `printsDigest_secretDigest`: the command line prints the digest that the registry looks up.
- `Board.caller_of_announcement`: both together.
-/

namespace FeedbackBoard

/-! ## Blanks -/

/-- A text that neither begins nor ends with a blank. -/
structure IsTrimmed (chars : List Char) : Prop where
  first : ∀ c ∈ chars.head?, isBlank c = false
  last : ∀ c ∈ chars.getLast?, isBlank c = false

/-- Blanks are dropped up to the first character that is none. -/
theorem dropWhile_blanks {before chars : List Char} (hbefore : ∀ c ∈ before, isBlank c = true)
    (hfirst : ∀ c ∈ chars.head?, isBlank c = false) :
    (before ++ chars).dropWhile isBlank = chars := by
  rw [List.dropWhile_append_of_pos hbefore]
  cases chars with
  | nil => rfl
  | cons c rest => rw [List.dropWhile_cons_of_neg (by simp [hfirst c rfl])]

theorem head?_dropWhile_blanks (chars : List Char) :
    ∀ c ∈ (chars.dropWhile isBlank).head?, isBlank c = false := by
  intro c hc
  have hfirst := List.head?_dropWhile_not isBlank chars
  rw [Option.mem_def.mp hc] at hfirst
  exact hfirst

/-- What is left of a text when its blanks are taken off is what stands between them. -/
theorem trimBlanks_eq_iff {chars core : List Char} (hne : core ≠ []) :
    trimBlanks chars = core ↔ ∃ before after, chars = before ++ core ++ after ∧
      (∀ c ∈ before ++ after, isBlank c = true) ∧ IsTrimmed core := by
  constructor
  · rintro rfl
    let kept := chars.dropWhile isBlank
    have hkept : kept = trimBlanks chars ++ (kept.reverse.takeWhile isBlank).reverse := by
      rw [trimBlanks, ← List.reverse_append, List.takeWhile_append_dropWhile, List.reverse_reverse]
    refine ⟨chars.takeWhile isBlank, (kept.reverse.takeWhile isBlank).reverse, ?_, ?_, ?_⟩
    · rw [List.append_assoc, ← hkept, List.takeWhile_append_dropWhile]
    · intro c hc
      rcases List.mem_append.mp hc with hc | hc
      · exact List.mem_takeWhile_imp hc
      · exact List.mem_takeWhile_imp (List.mem_reverse.mp hc)
    · constructor
      case first =>
        intro c hc
        refine head?_dropWhile_blanks chars c ?_
        change c ∈ kept.head?
        rw [hkept, List.head?_append_of_ne_nil _ hne]
        exact hc
      case last =>
        intro c hc
        rw [trimBlanks, List.getLast?_reverse] at hc
        exact head?_dropWhile_blanks kept.reverse c hc
  · rintro ⟨before, after, rfl, hblanks, htrimmed⟩
    obtain ⟨hbefore, hafter⟩ := List.forall_mem_append.mp hblanks
    have hfirst : ∀ c ∈ (core ++ after).head?, isBlank c = false := by
      rw [List.head?_append_of_ne_nil _ hne]
      exact htrimmed.first
    have hlast : ∀ c ∈ core.reverse.head?, isBlank c = false := by
      rw [List.head?_reverse]
      exact htrimmed.last
    rw [trimBlanks, List.append_assoc, dropWhile_blanks hbefore hfirst, List.reverse_append,
      dropWhile_blanks (fun c hc => hafter c (List.mem_reverse.mp hc)) hlast, List.reverse_reverse]

/-! ## Readable characters -/

/-- A tab or a printable character of ASCII. -/
def IsReadable (n : Nat) : Prop :=
  n = 9 ∨ (32 ≤ n ∧ n ≤ 126)

instance : DecidablePred IsReadable := fun _ =>
  inferInstanceAs (Decidable (_ ∨ _ ∧ _))

theorem IsReadable.lt {n : Nat} (h : IsReadable n) : n < 0x80 := by
  rcases h with h | h <;> omega

/-- Of the readable characters the space and the tab are blank. -/
theorem isBlank_iff_of_isReadable {c : Char} (h : IsReadable c.toNat) :
    isBlank c = true ↔ c = ' ' ∨ c = '\t' := by
  have hspace : c = ' ' ↔ c.toNat = 32 := by rw [← Char.toNat_inj]; rfl
  have htab : c = '\t' ↔ c.toNat = 9 := by rw [← Char.toNat_inj]; rfl
  rw [hspace, htab]
  simp only [isBlank, blankRanges, List.any_cons, List.any_nil, Bool.or_false, Bool.or_eq_true,
    Bool.and_eq_true, decide_eq_true_iff]
  rcases h with h | h <;> omega

theorem isHeaderByte_iff (byte : UInt8) : isHeaderByte byte = true ↔ IsReadable byte.toNat := by
  rw [isHeaderByte, IsReadable, Bool.or_eq_true, Bool.and_eq_true, beq_iff_eq, decide_eq_true_iff,
    decide_eq_true_iff, ← UInt8.toNat_inj]
  rfl

/-- A character that is spelled with bytes of ASCII is one of ASCII. -/
theorem toNat_lt_of_bytes {c : Char} (h : ∀ byte ∈ String.utf8EncodeChar c, byte.toNat < 0x80) :
    c.toNat < 0x80 := by
  have hc : c.toNat = c.val.toNat := rfl
  simp only [String.utf8EncodeChar] at h
  split at h
  · omega
  · -- The first byte of a longer spelling is above all of ASCII.
    exfalso
    split at h
    · have := h _ List.mem_cons_self
      rw [UInt8.toNat_ofNat'] at this
      omega
    · split at h
      · have := h _ List.mem_cons_self
        rw [UInt8.toNat_ofNat'] at this
        omega
      · have := h _ List.mem_cons_self
        rw [UInt8.toNat_ofNat'] at this
        omega

section Spelling

variable {bytes : List UInt8}

/-- Bytes of ASCII spell the characters with their numbers. -/
theorem bytesOfChars_charsOfBytes (h : ∀ byte ∈ bytes, byte.toNat < 0x80) :
    bytesOfChars (bytes.map fun byte => Char.ofNat byte.toNat) = bytes := by
  have hnumber : ∀ n < 0x80, (Char.ofNat n).toNat = n := by decide
  have htoNat : ∀ byte ∈ bytes, (Char.ofNat byte.toNat).toNat = byte.toNat := fun byte hbyte =>
    hnumber byte.toNat (h byte hbyte)
  rw [bytesOfChars_of_ascii, asciiBytes, List.map_map]
  · conv => rhs; rw [← List.map_id' bytes]
    refine List.map_congr_left fun byte hbyte => ?_
    rw [Function.comp_apply, htoNat byte hbyte, UInt8.ofNat_toNat]
  · intro c hc
    obtain ⟨byte, hbyte, rfl⟩ := List.mem_map.mp hc
    rw [htoNat byte hbyte]
    exact h byte hbyte

/-- Bytes of ASCII spell no other characters. -/
theorem charsOfBytes_bytesOfChars {chars : List Char}
    (h : ∀ byte ∈ bytesOfChars chars, byte.toNat < 0x80) :
    ((bytesOfChars chars).map fun byte => Char.ofNat byte.toNat) = chars := by
  have hascii : ∀ c ∈ chars, c.toNat < 0x80 := fun c hc => toNat_lt_of_bytes fun byte hbyte =>
    h byte (List.mem_flatMap.mpr ⟨c, hc, hbyte⟩)
  rw [bytesOfChars_of_ascii hascii, asciiBytes, List.map_map]
  conv => rhs; rw [← List.map_id' chars]
  refine List.map_congr_left fun c hc => ?_
  rw [Function.comp_apply, toNat_asciiByte (hascii c hc), Char.ofNat_toNat]

/-- A value that is readable spells the text that is read from it. -/
theorem headerChars?_eq_some_iff {chars : List Char} :
    headerChars? bytes = some chars ↔
      (∀ byte ∈ bytes, IsReadable byte.toNat) ∧ bytesOfChars chars = bytes := by
  have hall : bytes.all isHeaderByte = true ↔ ∀ byte ∈ bytes, IsReadable byte.toNat := by
    rw [List.all_eq_true]
    exact forall₂_congr fun byte _ => isHeaderByte_iff byte
  rw [headerChars?, if_congr hall rfl rfl]
  split
  next hreadable =>
    have hlt : ∀ byte ∈ bytes, byte.toNat < 0x80 := fun byte hbyte => (hreadable byte hbyte).lt
    rw [Option.some_inj, and_iff_right hreadable]
    constructor
    · rintro rfl
      exact bytesOfChars_charsOfBytes hlt
    · rintro rfl
      exact charsOfBytes_bytesOfChars hlt
  next hnot =>
    constructor
    · intro heq
      cases heq
    · exact fun h => absurd h.1 hnot

/-- A text is readable if its spelling is. -/
theorem forall_isReadable_iff {chars : List Char} :
    (∀ byte ∈ bytesOfChars chars, IsReadable byte.toNat) ↔ ∀ c ∈ chars, IsReadable c.toNat := by
  have hiff : (∀ c ∈ chars, c.toNat < 0x80) →
      ((∀ byte ∈ bytesOfChars chars, IsReadable byte.toNat) ↔ ∀ c ∈ chars, IsReadable c.toNat) := by
    intro hascii
    rw [bytesOfChars_of_ascii hascii, asciiBytes, List.forall_mem_map]
    exact forall₂_congr fun c hc => by rw [toNat_asciiByte (hascii c hc)]
  constructor
  · intro h
    refine (hiff fun c hc => toNat_lt_of_bytes fun byte hbyte => ?_).mp h
    exact (h byte (List.mem_flatMap.mpr ⟨c, hc, hbyte⟩)).lt
  · intro h
    exact (hiff fun c hc => (h c hc).lt).mpr h

end Spelling

/-! ## Announcements -/

/-- A value of the header, in parts: a scheme, a space, and a secret with something around it. -/
structure Announcement where
  scheme : List Char
  before : List Char
  secret : String
  after : List Char

namespace Announcement

/-- The text of the value. -/
def text (a : Announcement) : List Char :=
  a.scheme ++ ' ' :: (a.before ++ a.secret.toList ++ a.after)

/-- The value as it is sent. -/
def value (a : Announcement) : List UInt8 :=
  bytesOfChars a.text

/--
The scheme is the one of secrets, in letters of any case, and the secret is a text
without blanks at its ends between spaces and tabs.
-/
structure IsSound (a : Announcement) : Prop where
  scheme : a.scheme.map Char.toLower = bearerScheme
  blanks : ∀ c ∈ a.before ++ a.after, c = ' ' ∨ c = '\t'
  secret_ne : a.secret ≠ ""
  trimmed : ∀ c, a.secret.toList.head? = some c ∨ a.secret.toList.getLast? = some c →
    c ≠ ' ' ∧ c ≠ '\t'

end Announcement

/-- A text begins with what stands before its first space. -/
theorem split_at_space_iff {chars scheme rest : List Char} :
    chars.takeWhile (· != ' ') = scheme ∧ chars.dropWhile (· != ' ') = ' ' :: rest ↔
      chars = scheme ++ ' ' :: rest ∧ ' ' ∉ scheme := by
  constructor
  · rintro ⟨rfl, hrest⟩
    refine ⟨?_, fun hmem => ?_⟩
    · rw [← hrest, List.takeWhile_append_dropWhile]
    · exact absurd (List.mem_takeWhile_imp hmem) (by decide)
  · rintro ⟨rfl, hscheme⟩
    have hpos : ∀ c ∈ scheme, (c != ' ') = true := by
      intro c hc
      rw [bne_iff_ne]
      rintro rfl
      exact hscheme hc
    rw [List.takeWhile_append_of_pos hpos, List.dropWhile_append_of_pos hpos,
      List.takeWhile_cons_of_neg (by decide), List.dropWhile_cons_of_neg (by decide),
      List.append_nil]
    exact ⟨rfl, rfl⟩

/-- A value shows what stands behind the scheme and a space, without its blanks. -/
theorem bearerSecret?_eq_some_iff_exists {bytes : List UInt8} {secret : String} :
    bearerSecret? bytes = some secret ↔ ∃ scheme rest,
      headerChars? bytes = some (scheme ++ ' ' :: rest) ∧
        scheme.map Char.toLower = bearerScheme ∧
          secret ≠ "" ∧ trimBlanks rest = secret.toList := by
  have hscheme : ∀ scheme : List Char, scheme.map Char.toLower = bearerScheme → ' ' ∉ scheme := by
    intro scheme hlower hmem
    have : ' ' ∈ bearerScheme := hlower ▸ List.mem_map_of_mem (f := Char.toLower) hmem
    exact absurd this (by decide)
  rw [bearerSecret?]
  cases hchars : headerChars? bytes with
  | none => simp
  | some chars =>
      simp only [Option.some_inj]
      cases hrest : chars.dropWhile (· != ' ') with
      | nil =>
          constructor
          · intro heq
            cases heq
          · rintro ⟨scheme, rest, rfl, hlower, -⟩
            rw [(split_at_space_iff.mpr ⟨rfl, hscheme scheme hlower⟩).2] at hrest
            cases hrest
      | cons c rest =>
          obtain rfl : c = ' ' := by
            have hfirst := List.head?_dropWhile_not (· != ' ') chars
            rw [hrest] at hfirst
            simpa using hfirst
          obtain ⟨hsplit, -⟩ := split_at_space_iff.mp ⟨rfl, hrest⟩
          constructor
          · intro heq
            simp only at heq
            split at heq
            next hok =>
              cases heq
              refine ⟨_, rest, hsplit, hok.1, ?_, ?_⟩
              · simpa using hok.2
              · simp
            next => cases heq
          · rintro ⟨scheme, rest', rfl, hlower, hne, htrim⟩
            obtain ⟨htake, hdrop⟩ := split_at_space_iff.mpr ⟨rfl, hscheme scheme hlower⟩
            rw [hdrop] at hrest
            cases hrest
            simp [htake, hlower, htrim, hne]

namespace Announcement

variable {a : Announcement}

/-- What is announced without blanks at its ends is what is left when they are taken off. -/
theorem isTrimmed_iff {secret : String} (h : ∀ c ∈ secret.toList, IsReadable c.toNat) :
    IsTrimmed secret.toList ↔
      ∀ c, secret.toList.head? = some c ∨ secret.toList.getLast? = some c → c ≠ ' ' ∧ c ≠ '\t' := by
  have hblank : ∀ c ∈ secret.toList, isBlank c = false ↔ c ≠ ' ' ∧ c ≠ '\t' := by
    intro c hc
    rw [← not_or, ← isBlank_iff_of_isReadable (h c hc), Bool.not_eq_true]
  constructor
  · rintro htrimmed c (hc | hc)
    · exact (hblank c (List.mem_of_mem_head? hc)).mp (htrimmed.first c hc)
    · exact (hblank c (List.mem_of_mem_getLast? hc)).mp (htrimmed.last c hc)
  · intro htrimmed
    refine ⟨fun c hc => ?_, fun c hc => ?_⟩
    · exact (hblank c (List.mem_of_mem_head? hc)).mpr (htrimmed c (Or.inl hc))
    · exact (hblank c (List.mem_of_mem_getLast? hc)).mpr (htrimmed c (Or.inr hc))

end Announcement

/-- Exactly the readable announcements show a secret, the one in them. -/
theorem bearerSecret?_eq_some_iff {bytes : List UInt8} {secret : String} :
    bearerSecret? bytes = some secret ↔ (∀ byte ∈ bytes, IsReadable byte.toNat) ∧
      ∃ a : Announcement, a.IsSound ∧ a.secret = secret ∧ a.value = bytes := by
  have hreadable : ∀ chars, (∀ byte ∈ bytes, IsReadable byte.toNat) →
      bytesOfChars chars = bytes → ∀ c ∈ chars, IsReadable c.toNat := by
    rintro chars h rfl
    exact forall_isReadable_iff.mp h
  rw [bearerSecret?_eq_some_iff_exists]
  constructor
  · rintro ⟨scheme, rest, hchars, hlower, hne, htrim⟩
    obtain ⟨hbytes, hspelled⟩ := headerChars?_eq_some_iff.mp hchars
    have hcore : secret.toList ≠ [] := by simpa using hne
    obtain ⟨before, after, rfl, hblanks, htrimmed⟩ := (trimBlanks_eq_iff hcore).mp htrim
    have hall := hreadable _ hbytes hspelled
    refine ⟨hbytes, ⟨scheme, before, secret, after⟩, ⟨hlower, fun c hc => ?_, hne, ?_⟩, rfl,
      hspelled⟩
    · refine (isBlank_iff_of_isReadable (hall c ?_)).mp (hblanks c hc)
      simp only [List.mem_append, List.mem_cons] at hc ⊢
      tauto
    · refine (Announcement.isTrimmed_iff fun c hc => hall c ?_).mp htrimmed
      simp only [List.mem_append, List.mem_cons]
      tauto
  · rintro ⟨hbytes, a, hsound, rfl, hspelled⟩
    have hall := hreadable _ hbytes hspelled
    have hcore : a.secret.toList ≠ [] := by simpa using hsound.secret_ne
    refine ⟨a.scheme, a.before ++ a.secret.toList ++ a.after,
      headerChars?_eq_some_iff.mpr ⟨hbytes, hspelled⟩, hsound.scheme, hsound.secret_ne,
      (trimBlanks_eq_iff hcore).mpr ⟨a.before, a.after, rfl, fun c hc => ?_, ?_⟩⟩
    · refine (isBlank_iff_of_isReadable (hall c ?_)).mpr (hsound.blanks c hc)
      simp only [Announcement.text, List.mem_append, List.mem_cons] at hc ⊢
      tauto
    · refine (Announcement.isTrimmed_iff fun c hc => hall c ?_).mpr hsound.trimmed
      simp only [Announcement.text, List.mem_append, List.mem_cons]
      tauto

/-! ## Digests on the command line -/

namespace Arguments

/-- Only arguments with a hyphen in front begin with an option. -/
theorem after?_eq_none {word argument : String} (hword : word.toList.head? = some '-')
    (hargument : argument.toList.head? ≠ some '-') : after? word argument = none := by
  rw [after?, if_neg]
  intro hprefix
  cases hchars : word.toList with
  | nil =>
      rw [hchars] at hword
      cases hword
  | cons c rest =>
      rw [hchars] at hword hprefix
      cases hword
      obtain ⟨later, hlater⟩ := List.isPrefixOf_iff_prefix.mp hprefix
      rw [← hlater] at hargument
      exact hargument rfl

theorem parse_hashToken_marked (secret : String) :
    parse ["hash-token", "--", secret] = .run ⟨defaultSettingsPath, .hashToken secret⟩ :=
  rfl

/-- A secret without a hyphen in front may follow the command at once. -/
theorem parse_hashToken {secret : String} (h : secret.toList.head? ≠ some '-') :
    parse ["hash-token", secret] = .run ⟨defaultSettingsPath, .hashToken secret⟩ := by
  have hne : ∀ word : String, word.toList.head? = some '-' → secret ≠ word := by
    rintro word hword rfl
    exact h hword
  have hafter : ∀ word : String, word.toList.head? = some '-' → after? word secret = none :=
    fun word hword => after?_eq_none hword h
  have hhelp : ¬ (secret = "--help" ∨ (after? "-h" secret).isSome = true) := by
    rw [hafter "-h" rfl]
    simp [hne "--help" rfl]
  have hlooks : looksLikeOption secret = false := by
    simp [looksLikeOption, h]
  have hcollect : collect ⟨false, false, true⟩ 2 ⟨none, false, none, none⟩ [secret] =
      .given ⟨none, false, none, some secret⟩ := by
    rw [collect, if_neg (hne "--" rfl), if_neg hhelp, if_neg (hne "--json" rfl), longValue?,
      if_neg (hne "--config" rfl), hafter _ rfl, longValue?, if_neg (hne "--output" rfl),
      hafter _ rfl, shortValue?, if_neg (hne "-o" rfl), hafter _ rfl, hafter _ rfl]
    simp only [Option.map_none, hlooks]
    rfl
  have hcommand : parse ["hash-token", secret] = parseCommand none "hash-token" [secret] := rfl
  have haccepted : acceptedBy? "hash-token" = some ⟨false, false, true⟩ := rfl
  rw [hcommand, parseCommand, if_neg (by decide), haccepted]
  simp only [List.length_cons, List.length_nil, hcollect]
  rfl

end Arguments

/-- Whoever asks for the digest of a secret is told it, whatever the settings are. -/
theorem runCommandLine_hashToken {arguments : List String} {path secret : String}
    (h : Arguments.parse arguments = .run ⟨path, .hashToken secret⟩) (size : String) (now : Int64)
    (tree : FileTree) :
    runCommandLine arguments size now tree = (⟨0, secretDigest secret ++ "\n", ""⟩, tree) := by
  rw [runCommandLine, h]
  rfl

/--
The command line prints a digest for a secret.  The secret follows the command, after a
mark for the end of options if it begins with a hyphen.
-/
structure PrintsDigest (secret digest : String) : Prop where
  marked : ∀ size now tree, runCommandLine ["hash-token", "--", secret] size now tree =
    (⟨0, digest ++ "\n", ""⟩, tree)
  plain : secret.toList.head? ≠ some '-' → ∀ size now tree,
    runCommandLine ["hash-token", secret] size now tree = (⟨0, digest ++ "\n", ""⟩, tree)

theorem printsDigest_secretDigest (secret : String) :
    PrintsDigest secret (secretDigest secret) where
  marked := runCommandLine_hashToken (Arguments.parse_hashToken_marked secret)
  plain h := runCommandLine_hashToken (Arguments.parse_hashToken h)

/-- No other digest is printed. -/
theorem PrintsDigest.eq_secretDigest {secret digest : String} (h : PrintsDigest secret digest) :
    digest = secretDigest secret := by
  have hprinted := (h.marked "" 0 FileTree.empty).symm.trans
    ((printsDigest_secretDigest secret).marked "" 0 FileTree.empty)
  have hline := congrArg (fun result => result.1.stdout.toList) hprinted
  simp only [String.toList_append] at hline
  exact String.toList_inj.mp (List.append_cancel_right hline)

/-- Digests are written in lowercase. -/
theorem lowercase_secretDigest (secret : String) :
    Registry.lowercase (secretDigest secret) = secretDigest secret := by
  have hdigit : ∀ n < 16, (Digest.hexDigit n).toLower = Digest.hexDigit n := by decide
  have hword : ∀ w, ∀ c ∈ Digest.wordHex w, c.toLower = c := by
    intro w c hc
    obtain ⟨i, -, rfl⟩ := List.mem_map.mp hc
    exact hdigit _ (Nat.mod_lt _ (by decide))
  have hhex : ∀ s : Digest.State, s.hex.map Char.toLower = s.hex := by
    intro s
    conv => rhs; rw [← List.map_id' s.hex]
    refine List.map_congr_left fun c hc => ?_
    obtain ⟨w, -, hw⟩ := List.mem_flatMap.mp hc
    exact hword w c hw
  rw [Registry.lowercase, secretDigest, String.toList_ofList, hhex]

/-! ## Callers -/

/-- The last entry with the digest of a secret lets in whoever has the secret. -/
theorem Registry.authenticate?_of_last {before later : List TokenEntry} {entry : TokenEntry}
    {role : Role} {secret : String} (hrole : Role.ofName? entry.role = some role)
    (hdigest : lowercase entry.digest = secretDigest secret)
    (hlater : ∀ other ∈ later, lowercase other.digest ≠ secretDigest secret) :
    (ofTokens (before ++ entry :: later)).authenticate? secret =
      some { id := entry.userId, name := entry.name.getD entry.userId, role } := by
  have hentry : entryOf? entry = some (secretDigest secret,
      { id := entry.userId, name := entry.name.getD entry.userId, role }) := by
    rw [entryOf?, userOf?_eq hrole, Option.map_some, hdigest]
  have hnone : (later.filterMap entryOf?).reverse.lookup (secretDigest secret) = none := by
    rw [List.lookup_eq_none_iff]
    intro found hfound
    obtain ⟨other, hother, hkept⟩ := List.mem_filterMap.mp (List.mem_reverse.mp hfound)
    obtain ⟨user, -, rfl⟩ := Option.map_eq_some_iff.mp hkept
    rw [bne_iff_ne]
    exact Ne.symm (hlater other hother)
  rw [authenticate?, users_ofTokens, lookup_ofEntries, List.filterMap_append,
    List.filterMap_cons_some hentry, List.reverse_append, List.reverse_cons, List.append_assoc,
    List.lookup_append, hnone]
  simp

/-- A character is readable if it is in lowercase. -/
theorem IsReadable.of_toLower {c : Char} (h : IsReadable c.toLower.toNat) : IsReadable c.toNat := by
  unfold Char.toLower at h
  split at h
  next hupper =>
    have hlow : 65 ≤ c.toNat := hupper.1
    have hhigh : c.toNat ≤ 90 := hupper.2
    exact Or.inr (by omega)
  next => exact h

/-- A sound announcement of a printable secret is readable. -/
theorem Announcement.IsSound.isReadable {a : Announcement} (h : a.IsSound)
    (hsecret : ∀ c ∈ a.secret.toList, 32 ≤ c.toNat ∧ c.toNat ≤ 126) :
    ∀ byte ∈ a.value, IsReadable byte.toNat := by
  refine forall_isReadable_iff.mpr fun c hc => ?_
  have hblank : ∀ c ∈ a.before ++ a.after, IsReadable c.toNat := by
    intro c hc
    rcases h.blanks c hc with rfl | rfl <;> decide
  have hscheme : ∀ c ∈ a.scheme, IsReadable c.toNat := by
    intro c hc
    have hlower : c.toLower ∈ bearerScheme := h.scheme ▸ List.mem_map_of_mem hc
    have hletters : bearerScheme.all (fun d => decide (IsReadable d.toNat)) = true := by decide
    exact (of_decide_eq_true (List.all_eq_true.mp hletters _ hlower)).of_toLower
  simp only [text, List.mem_append, List.mem_cons] at hc
  rcases hc with hc | rfl | (hc | hc) | hc
  · exact hscheme c hc
  · decide
  · exact hblank c (List.mem_append_left _ hc)
  · exact Or.inr (hsecret c hc)
  · exact hblank c (List.mem_append_right _ hc)

/--
A header shows a secret exactly if it announces it, and the secret is the announced one.
Whoever announces a printable secret is the user of the entry that has the digest which
the command line prints for the secret, in letters of any case, if no other entry has it.
-/
theorem Board.caller_of_announcement :
    (∀ bytes secret, bearerSecret? bytes = some secret ↔
      (∀ byte ∈ bytes, IsReadable byte.toNat) ∧
        ∃ a : Announcement, a.IsSound ∧ a.secret = secret ∧ a.value = bytes) ∧
      ∀ a : Announcement, a.IsSound →
        (∀ c ∈ a.secret.toList, 32 ≤ c.toNat ∧ c.toNat ≤ 126) →
          ∃ digest, PrintsDigest a.secret digest ∧
            ∀ (board : Board) (request : Request) (before later : List TokenEntry)
              (entry : TokenEntry) (role : Role),
              board.registry = .ofTokens (before ++ entry :: later) →
              Role.ofName? entry.role = some role →
              Registry.lowercase entry.digest = Registry.lowercase digest →
              (∀ other ∈ before ++ later,
                Registry.lowercase other.digest ≠ Registry.lowercase digest) →
              request.header? "authorization" = some a.value →
              board.caller request =
                .ok { id := entry.userId, name := entry.name.getD entry.userId, role } := by
  refine ⟨fun _ _ => bearerSecret?_eq_some_iff, fun a hsound hprintable => ?_⟩
  refine ⟨secretDigest a.secret, printsDigest_secretDigest a.secret, ?_⟩
  intro board request before later entry role hregistry hrole hdigest hothers hheader
  rw [lowercase_secretDigest] at hdigest hothers
  have hsecret : request.secret? = some a.secret := by
    rw [Request.secret?, hheader, Option.bind_some]
    exact bearerSecret?_eq_some_iff.mpr ⟨hsound.isReadable hprintable, a, hsound, rfl, rfl⟩
  have huser : (Registry.ofTokens (before ++ entry :: later)).authenticate? a.secret =
      some { id := entry.userId, name := entry.name.getD entry.userId, role } :=
    Registry.authenticate?_of_last hrole hdigest fun other hother =>
      hothers other (List.mem_append_right _ hother)
  simp only [caller, hsecret, hregistry, huser]

/-- A secret of two words, its digest in capitals, and an entry of another user before it. -/
theorem Board.caller_of_announcement_sesame :
    let digest := "41EF4BB0B23661E66301AAC36066912DAC037827B4AE63A7B1165A5AA93ED4EB"
    let ann : TokenEntry := ⟨digest, "ann", some "Ann", "user"⟩
    let bob : TokenEntry := ⟨"00", "bob", none, "admin"⟩
    let a : Announcement := ⟨"bEARER".toList, [' ', '\t'], "open sesame", [' ']⟩
    let board : Board := ⟨.ofTokens [bob, ann], 10, fun n => toString n⟩
    let request : Request := ⟨"GET", "/", [("authorization", a.value)], []⟩
    bearerSecret? a.value = some "open sesame" ∧
      board.caller request = .ok ⟨"ann", "Ann", .user⟩ := by
  intro digest ann bob a board request
  have hsound : a.IsSound := by
    have hends : a.secret.toList.head? = some 'o' ∧ a.secret.toList.getLast? = some 'e' := by
      decide
    refine ⟨by decide, by simp [a], by decide, ?_⟩
    rw [hends.1, hends.2]
    rintro c (hc | hc) <;> cases hc <;> decide
  have hprintable : ∀ c ∈ a.secret.toList, 32 ≤ c.toNat ∧ c.toNat ≤ 126 := by
    have hall : a.secret.toList.all (fun c => decide (32 ≤ c.toNat ∧ c.toNat ≤ 126)) = true := by
      decide
    exact fun c hc => of_decide_eq_true (List.all_eq_true.mp hall c hc)
  obtain ⟨hshows, hlets⟩ := caller_of_announcement
  obtain ⟨printed, hprinted, hcaller⟩ := hlets a hsound hprintable
  have hdigest : Registry.lowercase digest = Registry.lowercase printed := by
    rw [hprinted.eq_secretDigest]
    decide +kernel
  refine ⟨(hshows _ _).mpr ⟨hsound.isReadable hprintable, a, hsound, rfl, rfl⟩, ?_⟩
  refine hcaller board request [bob] [] ann .user rfl rfl hdigest ?_ rfl
  rw [← hdigest]
  decide +kernel

end FeedbackBoard
