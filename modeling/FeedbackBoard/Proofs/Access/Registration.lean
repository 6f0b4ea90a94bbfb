import FeedbackBoard.Access.Registry
import FeedbackBoard.Proofs.Order.Keyed
import FeedbackBoard.Proofs.Store.KeyedRows
import Mathlib.Data.List.Dedup
import Mathlib.Data.List.Induction

/-!
# Registries of accepted settings

Settings are accepted if every entry has a digest and a known role, and no two
entries name one user.  The registry finds users by their digests in lowercase, and
of several entries with one digest it keeps the last.  So an entry of accepted
settings works as it is written exactly if no later entry has its digest, and the
registry has as many users as there are digests.

Main definitions:

- `Registry.entryOf?`: what the registry keeps of an entry.
- `TokenEntry.Works`: an entry whose secret and whose user are found as it says.

Main results:

- `validateTokens_eq_ok_iff`: which entries are accepted.
- `Registry.lookup_ofTokens`: the user of a digest.
- `Registry.size_ofTokens`: how many users there are.
- `TokenEntry.works_iff`: when an entry of accepted settings works.
- `Settings.tokens_work_iff`: when all of them do.
-/

namespace FeedbackBoard

/-! ## Accepted entries -/

/-- Entries are accepted if each is sound and names a user that no entry before it names. -/
theorem validateTokens_eq_ok_iff {seen : List String} {tokens : List TokenEntry} :
    validateTokens seen tokens = .ok () ↔
      (∀ token ∈ tokens, isDigest token.digest = true ∧ Role.ofName? token.role ≠ none ∧
        token.userId ∉ seen) ∧ (tokens.map TokenEntry.userId).Nodup := by
  induction tokens generalizing seen with
  | nil => simp [validateTokens]
  | cons token rest ih =>
      have hfirst : validateTokens seen (token :: rest) = .ok () ↔
          (isDigest token.digest = true ∧ Role.ofName? token.role ≠ none ∧ token.userId ∉ seen) ∧
            validateTokens (token.userId :: seen) rest = .ok () := by
        rw [validateTokens]
        by_cases hdigest : isDigest token.digest <;> by_cases hrole : Role.ofName? token.role = none <;>
          by_cases hseen : token.userId ∈ seen <;> simp [hdigest, hrole, hseen]
      rw [hfirst, ih, List.forall_mem_cons, List.map_cons, List.nodup_cons, List.mem_map]
      simp only [List.mem_cons]
      grind

/-- A role has the name that it was found by. -/
theorem Role.name_of_ofName? {name : String} {role : Role} (h : ofName? name = some role) :
    role.name = name := by
  unfold ofName? at h
  split at h <;> cases h <;> rfl

namespace Registry

/-! ## Users by digests -/

/-- Setting the user of a digest changes what is found for this digest only. -/
theorem lookup_setUser (digest key : String) (user : User) (users : List (String × User)) :
    (setUser digest user users).lookup key =
      if key = digest then some user else users.lookup key := by
  induction users with
  | nil => rw [setUser, lookup_entry]
  | cons entry rest ih =>
      obtain ⟨other, kept⟩ := entry
      rw [setUser]
      by_cases hother : other = digest
      · rw [if_pos hother, lookup_entry, lookup_entry, hother]
        split <;> rfl
      · rw [if_neg hother, lookup_entry, lookup_entry, ih]
        by_cases hkey : key = digest
        · simp [hkey, Ne.symm hother]
        · simp [hkey]

/-- A digest is added at the end, unless it is there. -/
theorem keys_setUser (digest : String) (user : User) (users : List (String × User)) :
    (setUser digest user users).map Prod.fst =
      if digest ∈ users.map Prod.fst then users.map Prod.fst
      else users.map Prod.fst ++ [digest] := by
  induction users with
  | nil => rfl
  | cons entry rest ih =>
      obtain ⟨other, kept⟩ := entry
      rw [setUser]
      by_cases hother : other = digest
      · simp [hother]
      · simp only [if_neg hother, List.map_cons, ih, List.mem_cons, Ne.symm hother, false_or]
        split <;> rfl

/-- The users of entries, of which the last with a digest decides. -/
def ofEntries (entries : List (String × User)) : List (String × User) :=
  entries.foldl (fun users entry => setUser entry.1 entry.2 users) []

theorem ofEntries_append (entries : List (String × User)) (entry : String × User) :
    ofEntries (entries ++ [entry]) = setUser entry.1 entry.2 (ofEntries entries) := by
  rw [ofEntries, List.foldl_append]
  rfl

/-- What is found for a digest is the user of the last entry that has it. -/
theorem lookup_ofEntries (entries : List (String × User)) (digest : String) :
    (ofEntries entries).lookup digest = entries.reverse.lookup digest := by
  induction entries using List.reverseRecOn with
  | nil => rfl
  | append_singleton before entry ih =>
      rw [ofEntries_append, lookup_setUser, ih, List.reverse_append]
      exact (lookup_entry digest entry.1 entry.2 before.reverse).symm

/-- No digest has two users. -/
theorem nodup_ofEntries (entries : List (String × User)) :
    ((ofEntries entries).map Prod.fst).Nodup := by
  induction entries using List.reverseRecOn with
  | nil => exact List.nodup_nil
  | append_singleton before entry ih =>
      rw [ofEntries_append, keys_setUser]
      split
      · exact ih
      next hnew =>
        refine List.nodup_append.mpr ⟨ih, List.nodup_singleton _, ?_⟩
        intro digest hdigest other hother
        rw [List.mem_singleton.mp hother]
        rintro rfl
        exact hnew hdigest

/-- Every digest has one. -/
theorem mem_keys_ofEntries (entries : List (String × User)) (digest : String) :
    digest ∈ (ofEntries entries).map Prod.fst ↔ digest ∈ entries.map Prod.fst := by
  induction entries using List.reverseRecOn with
  | nil => rfl
  | append_singleton before entry ih =>
      rw [ofEntries_append, keys_setUser, List.map_append, List.mem_append, ← ih]
      split <;> simp
      grind

theorem length_ofEntries (entries : List (String × User)) :
    (ofEntries entries).length = (entries.map Prod.fst).dedup.length := by
  have hperm : ((ofEntries entries).map Prod.fst).Perm (entries.map Prod.fst).dedup := by
    rw [List.perm_ext_iff_of_nodup (nodup_ofEntries entries) (List.nodup_dedup _)]
    intro digest
    rw [mem_keys_ofEntries, List.mem_dedup]
  rw [← hperm.length_eq, List.length_map]

/-- What is found for a digest is what the list has for it. -/
theorem mem_iff_lookup {users : List (String × User)} (h : (users.map Prod.fst).Nodup)
    {digest : String} {user : User} :
    (digest, user) ∈ users ↔ users.lookup digest = some user := by
  induction users with
  | nil => simp
  | cons entry rest ih =>
      obtain ⟨other, kept⟩ := entry
      obtain ⟨hhead, htail⟩ := List.nodup_cons.mp h
      rw [lookup_entry, List.mem_cons]
      by_cases hdigest : digest = other
      · subst hdigest
        have hrest : (digest, user) ∉ rest := fun hmem =>
          hhead (List.mem_map.mpr ⟨(digest, user), hmem, rfl⟩)
        simp [hrest, eq_comm]
      · simp [hdigest, ih htail]

/-! ## Entries of settings -/

/-- What the registry keeps of an entry. -/
def entryOf? (token : TokenEntry) : Option (String × User) :=
  (userOf? token).map (lowercase token.digest, ·)

theorem users_ofTokens (tokens : List TokenEntry) :
    (ofTokens tokens).users = ofEntries (tokens.filterMap entryOf?) := by
  rw [ofEntries, List.foldl_filterMap]
  change tokens.foldl _ [] = tokens.foldl _ []
  congr 1
  funext users token
  rw [entryOf?]
  cases userOf? token <;> rfl

theorem nodup_ofTokens (tokens : List TokenEntry) :
    ((ofTokens tokens).users.map Prod.fst).Nodup := by
  rw [users_ofTokens]
  exact nodup_ofEntries _

/-- The user of an entry has its id, its name or else its id, and its role. -/
theorem userOf?_eq {token : TokenEntry} {role : Role} (h : Role.ofName? token.role = some role) :
    userOf? token =
      some { id := token.userId, name := token.name.getD token.userId, role := role } := by
  rw [userOf?, h]
  rfl

theorem id_of_userOf? {token : TokenEntry} {user : User} (h : userOf? token = some user) :
    user.id = token.userId := by
  obtain ⟨role, _, rfl⟩ := Option.map_eq_some_iff.mp h
  rfl

/-- The last entry with a digest, in lowercase. -/
def lastOf? (digest : String) (tokens : List TokenEntry) : Option TokenEntry :=
  tokens.reverse.find? fun token => lowercase token.digest == digest

theorem mem_of_lastOf? {digest : String} {tokens : List TokenEntry} {token : TokenEntry}
    (h : lastOf? digest tokens = some token) :
    token ∈ tokens ∧ lowercase token.digest = digest := by
  refine ⟨List.mem_reverse.mp (List.mem_of_find?_eq_some h), ?_⟩
  simpa using List.find?_some h

section KnownRoles

variable {tokens : List TokenEntry} (hroles : ∀ token ∈ tokens, Role.ofName? token.role ≠ none)
include hroles

theorem exists_userOf? {token : TokenEntry} (h : token ∈ tokens) :
    ∃ user, userOf? token = some user := by
  cases hrole : Role.ofName? token.role with
  | none => exact absurd hrole (hroles token h)
  | some role => exact ⟨_, userOf?_eq hrole⟩

theorem lookup_filterMap (digest : String) :
    (tokens.filterMap entryOf?).lookup digest =
      (tokens.find? fun token => lowercase token.digest == digest).bind userOf? := by
  induction tokens with
  | nil => rfl
  | cons token rest ih =>
      obtain ⟨user, huser⟩ := exists_userOf? hroles List.mem_cons_self
      have hentry : entryOf? token = some (lowercase token.digest, user) := by
        rw [entryOf?, huser, Option.map_some]
      rw [List.filterMap_cons_some hentry, lookup_entry, List.find?_cons,
        ih fun other hother => hroles other (List.mem_cons_of_mem token hother)]
      by_cases hdigest : digest = lowercase token.digest
      · simp [hdigest, huser]
      · rw [if_neg hdigest, beq_eq_false_iff_ne.mpr (Ne.symm hdigest)]

/-- What is found for a digest is the user of the last entry that has it. -/
theorem lookup_ofTokens (digest : String) :
    (ofTokens tokens).users.lookup digest = (lastOf? digest tokens).bind userOf? := by
  rw [users_ofTokens, lookup_ofEntries, ← List.filterMap_reverse]
  exact lookup_filterMap (fun token h => hroles token (List.mem_reverse.mp h)) digest

/-- There are as many users as digests. -/
theorem size_ofTokens :
    (ofTokens tokens).size = (tokens.map fun token => lowercase token.digest).dedup.length := by
  have hdigests : (tokens.filterMap entryOf?).map Prod.fst =
      tokens.map fun token => lowercase token.digest := by
    rw [List.map_filterMap, ← List.filterMap_eq_map]
    apply List.filterMap_congr
    intro token htoken
    obtain ⟨user, huser⟩ := exists_userOf? hroles htoken
    rw [entryOf?, huser]
    rfl
  rw [size, users_ofTokens, length_ofEntries, hdigests]

/-- A user of the registry is that of an entry, the last one with its digest. -/
theorem mem_ofTokens_iff {digest : String} {user : User} :
    (digest, user) ∈ (ofTokens tokens).users ↔
      ∃ token, lastOf? digest tokens = some token ∧ userOf? token = some user := by
  rw [mem_iff_lookup (nodup_ofTokens tokens), lookup_ofTokens hroles, Option.bind_eq_some_iff]

/-- If no user has two entries, no user is registered twice. -/
theorem distinctIds_ofTokens (husers : (tokens.map TokenEntry.userId).Nodup) :
    DistinctIds (fun entry => entry.2.id) (ofTokens tokens).users := by
  refine List.Nodup.map_on ?_ (List.Nodup.of_map Prod.fst (nodup_ofTokens tokens))
  rintro ⟨digest, user⟩ hmem ⟨digest', user'⟩ hmem' hid
  obtain ⟨token, hlast, huser⟩ := (mem_ofTokens_iff hroles).mp hmem
  obtain ⟨token', hlast', huser'⟩ := (mem_ofTokens_iff hroles).mp hmem'
  obtain ⟨hlisted, hdigest⟩ := mem_of_lastOf? hlast
  obtain ⟨hlisted', hdigest'⟩ := mem_of_lastOf? hlast'
  have htoken : token = token' := by
    apply List.inj_on_of_nodup_map husers
    · exact hlisted
    · exact hlisted'
    · rw [← id_of_userOf? huser, ← id_of_userOf? huser', hid]
  subst htoken
  rw [← hdigest, ← hdigest', Option.some.inj (huser.symm.trans huser')]

end KnownRoles

end Registry

/-! ## Entries that work -/

namespace TokenEntry

open Registry (lastOf? lowercase userOf?)

/--
Whoever has the secret of the entry is its user, with its name and role, and the
user is shown with them.
-/
structure Works (registry : Registry) (token : TokenEntry) : Prop where
  authenticated : ∃ role, Role.ofName? token.role = some role ∧
    ∀ secret, secretDigest secret = lowercase token.digest →
      registry.authenticate? secret =
        some { id := token.userId, name := token.name.getD token.userId, role := role }
  shown : registry.author? token.userId =
    some { id := token.userId, name := token.name.getD token.userId, role := token.role }

variable {before after : List TokenEntry} {token : TokenEntry}

/-- An entry is the last one with its digest if no later entry has it. -/
theorem lastOf?_iff (hafter : token ∉ after) :
    lastOf? (lowercase token.digest) (before ++ token :: after) = some token ↔
      ∀ other ∈ after, lowercase other.digest ≠ lowercase token.digest := by
  rw [lastOf?, List.reverse_append, List.reverse_cons, List.append_assoc, List.find?_append]
  cases hlater : after.reverse.find? fun other =>
      lowercase other.digest == lowercase token.digest with
  | none =>
      simp only [List.find?_eq_none, List.mem_reverse, beq_iff_eq] at hlater
      simp
      exact hlater
  | some other =>
      have hother : other ∈ after := List.mem_reverse.mp (List.mem_of_find?_eq_some hlater)
      have hdigest := List.find?_some hlater
      have hne : other ≠ token := fun heq => hafter (heq ▸ hother)
      simp only [Option.some_or, Option.some.injEq, hne, false_iff]
      intro h
      exact h other hother (beq_iff_eq.mp hdigest)

section Accepted

variable (hroles : ∀ other ∈ before ++ token :: after, Role.ofName? other.role ≠ none)
  (husers : ((before ++ token :: after).map userId).Nodup)
include hroles husers

/-- An entry that works is the last one with its digest. -/
theorem Works.last (h : token.Works (.ofTokens (before ++ token :: after))) :
    lastOf? (lowercase token.digest) (before ++ token :: after) = some token := by
  obtain ⟨⟨digest, user⟩, hfound, hauthor⟩ := Option.map_eq_some_iff.mp h.shown
  have hid : user.id = token.userId := congrArg Author.id hauthor
  obtain ⟨other, hlast, huser⟩ :=
    (Registry.mem_ofTokens_iff hroles).mp (List.mem_of_find?_eq_some hfound)
  -- The registry shows the user of some entry; users have one entry, so it is this one.
  obtain ⟨hlisted, hdigest⟩ := Registry.mem_of_lastOf? hlast
  have hsame : other = token := by
    apply List.inj_on_of_nodup_map husers hlisted
    · simp
    · rw [← Registry.id_of_userOf? huser, hid]
  subst hsame
  rwa [← hdigest] at hlast

/-- The last entry with a digest works. -/
theorem works_of_last
    (hlast : lastOf? (lowercase token.digest) (before ++ token :: after) = some token) :
    token.Works (.ofTokens (before ++ token :: after)) := by
  obtain ⟨role, hrole⟩ := Option.ne_none_iff_exists'.mp (hroles token (by simp))
  have hmem := (Registry.mem_ofTokens_iff hroles).mpr ⟨token, hlast, Registry.userOf?_eq hrole⟩
  refine ⟨⟨role, hrole, fun secret hsecret => ?_⟩, ?_⟩
  · rw [Registry.authenticate?, hsecret]
    exact (Registry.mem_iff_lookup (Registry.nodup_ofTokens _)).mp hmem
  · have hfind := ((Registry.distinctIds_ofTokens hroles husers).find?_eq_some_iff
      (fun entry hentry => beq_iff_eq.mp hentry)).mpr ⟨hmem, beq_self_eq_true _⟩
    rw [Registry.author?, hfind, Option.map_some, User.author, Role.name_of_ofName? hrole]

/-- An entry of accepted settings works exactly if no later entry has its digest. -/
theorem works_iff :
    token.Works (.ofTokens (before ++ token :: after)) ↔
      ∀ other ∈ after, lowercase other.digest ≠ lowercase token.digest := by
  have hafter : token ∉ after :=
    (List.nodup_cons.mp (List.nodup_append.mp (List.Nodup.of_map userId husers)).2.1).1
  rw [← @lastOf?_iff before after token hafter]
  exact ⟨fun h => h.last hroles husers, works_of_last hroles husers⟩

end Accepted

end TokenEntry

/-! ## Accepted settings -/

namespace Settings

/-- The digests of the entries, in lowercase. -/
def digests (settings : Settings) : List String :=
  settings.tokens.map fun token => Registry.lowercase token.digest

theorem validate_eq_ok_iff {settings : Settings} :
    settings.validate = .ok () ↔ 1 ≤ settings.pageSize ∧
      (∀ token ∈ settings.tokens,
        isDigest token.digest = true ∧ Role.ofName? token.role ≠ none) ∧
      (settings.tokens.map TokenEntry.userId).Nodup := by
  rw [validate]
  split
  next h => simp; omega
  next h =>
    rw [validateTokens_eq_ok_iff]
    simp
    omega

/--
Accepted settings do not rule out that entries share a digest.  The registry of
accepted settings has as many users as there are digests, a secret is that of the
last entry with its digest, and an entry works exactly if no later one has its
digest.  So all entries are registered and work exactly if no two share a digest.
-/
theorem tokens_work_iff {settings : Settings} (haccepted : settings.validate = .ok ()) :
    let registry := Registry.ofTokens settings.tokens
    registry.size = settings.digests.dedup.length ∧
      (∀ secret, registry.authenticate? secret =
        (Registry.lastOf? (secretDigest secret) settings.tokens).bind Registry.userOf?) ∧
      (∀ before token after, settings.tokens = before ++ token :: after →
        (token.Works registry ↔ ∀ other ∈ after,
          Registry.lowercase other.digest ≠ Registry.lowercase token.digest)) ∧
      ((registry.size = settings.tokens.length ∧ ∀ token ∈ settings.tokens, token.Works registry) ↔
        settings.digests.Nodup) := by
  obtain ⟨-, hsound, husers⟩ := validate_eq_ok_iff.mp haccepted
  have hroles : ∀ token ∈ settings.tokens, Role.ofName? token.role ≠ none :=
    fun token htoken => (hsound token htoken).2
  intro registry
  have hsize : registry.size = settings.digests.dedup.length := Registry.size_ofTokens hroles
  have hworks : ∀ before token after, settings.tokens = before ++ token :: after →
      (token.Works registry ↔ ∀ other ∈ after,
        Registry.lowercase other.digest ≠ Registry.lowercase token.digest) := by
    intro before token after htokens
    simp only [registry, htokens] at hroles husers ⊢
    exact TokenEntry.works_iff hroles husers
  refine ⟨hsize, fun secret => Registry.lookup_ofTokens hroles _, hworks, ?_⟩
  have hlength : settings.digests.length = settings.tokens.length := List.length_map _
  constructor
  · rintro ⟨hall, -⟩
    rw [← List.dedup_eq_self]
    exact (List.dedup_sublist _).eq_of_length (by omega)
  · intro hdigests
    refine ⟨by rw [hsize, List.dedup_eq_self.mpr hdigests, hlength], ?_⟩
    intro token htoken
    obtain ⟨before, after, htokens⟩ := List.append_of_mem htoken
    rw [hworks before token after htokens]
    intro other hother hsame
    rw [digests, htokens, List.map_append, List.map_cons] at hdigests
    apply (List.nodup_cons.mp (List.nodup_append.mp hdigests).2.1).1
    exact hsame ▸ List.mem_map_of_mem hother

section Shared

/-- An administrator and a user who have one secret, and its digest in two spellings. -/
def ann : TokenEntry where
  digest := "043a718774c572bd8a25adbeb1bfcd5c0256ae11cecf9f9c3f925d0e52beaf89"
  userId := "ann"
  name := none
  role := "admin"

@[inherit_doc ann]
def bob : TokenEntry where
  digest := "043A718774C572BD8A25ADBEB1BFCD5C0256AE11CECF9F9C3F925D0E52BEAF89"
  userId := "bob"
  name := none
  role := "user"

theorem tokens_work_iff_shared :
    let settings := { minimal with tokens := [ann, bob] }
    settings.validate = .ok () ∧ (Registry.ofTokens settings.tokens).size = 1 ∧
      ¬ ann.Works (.ofTokens settings.tokens) ∧ bob.Works (.ofTokens settings.tokens) := by
  intro settings
  have haccepted : settings.validate = .ok () := by decide +kernel
  obtain ⟨hsize, -, hworks, -⟩ := tokens_work_iff haccepted
  have hone : settings.digests.dedup.length = 1 := by decide +kernel
  refine ⟨haccepted, hsize.trans hone, ?_, ?_⟩
  · rw [hworks [] ann [bob] rfl]
    intro h
    exact h bob List.mem_cons_self (by decide +kernel)
  · rw [hworks [ann] bob [] rfl]
    intro other hother
    cases hother

end Shared

end Settings

end FeedbackBoard
