import AranesLms.Lib.Except
import AranesLms.Lib.PyStr

/-!
# Passwords

`verify_password` of `src/auth/passwords.py`.  A stored password is either an Argon2 hash, which the
hasher verifies, or a legacy text `pbkdf2_sha256$<n>$<salt>$<digest>`.  The parts of a legacy text
are read and the digest of the password computed inside a `try`, but the digests are compared after
it.  `totalAndExact_iff` says for which passwords and stored texts this still gives an answer.
-/

namespace AranesLms

/-- What the hashing libraries and the Unicode database compute. -/
structure PasswordLib where
  decimal : CodePoint → Option (Fin 10)
  maxStrDigits : ℕ
  pbkdf2 : (password salt : List UInt8) → (iterations : ℕ) → List UInt8
  /-- `PasswordHash.hash` with the salt it draws, unless it raises. -/
  argon2Hash : (salt : List UInt8) → PyStr → Option PyStr
  /-- `PasswordHash.verify`, unless it raises. -/
  argon2Verify : PyStr → PyStr → Option Bool
  argon2Hash_scheme : ∀ {salt password hash}, argon2Hash salt password = some hash →
    PyStr.ofString "$argon2" <+: hash

inductive PasswordError where
  | valueError
  | typeError
  | overflowError
  deriving DecidableEq

/-- `PBKDF2_SCHEME_NAME`. -/
def pbkdf2SchemeName : PyStr := PyStr.ofString "pbkdf2_sha256"

def dollar : CodePoint := PyStr.ofChar '$'

/-- `INT_MAX`, beyond which a `pbkdf2_hmac` of C cannot count. -/
def intMax : ℕ := 2147483647

/-- `hmac.compare_digest` of two texts. -/
def compareDigest (a b : PyStr) : Except PasswordError Bool :=
  if a.isAscii ∧ b.isAscii then .ok (a = b) else .error .typeError

variable (lib : PasswordLib)

/-- `int`. -/
def parseInt (s : PyStr) : Except PasswordError ℤ :=
  match s.int lib.decimal lib.maxStrDigits with
  | some n => .ok n
  | none => .error .valueError

/-- `str.encode`; a `UnicodeEncodeError` is a `ValueError`. -/
def encodeText (s : PyStr) : Except PasswordError (List UInt8) :=
  match s.encode with
  | some bytes => .ok bytes
  | none => .error .valueError

/-- `hashlib.pbkdf2_hmac`. -/
def pbkdf2Hmac (password salt : List UInt8) (iterations : ℤ) :
    Except PasswordError (List UInt8) :=
  if intMax < password.length then .error .overflowError
  else if intMax < salt.length then .error .overflowError
  else if iterations < 1 then .error .valueError
  else if intMax < iterations then .error .overflowError
  else .ok (lib.pbkdf2 password salt iterations.toNat)

/-- `_pbkdf2_hex_digest`. -/
def pbkdf2HexDigest (password salt : PyStr) (iterations : ℤ) : Except PasswordError PyStr := do
  let password ← encodeText password
  let salt ← encodeText salt
  let digest ← pbkdf2Hmac lib password salt iterations
  return PyStr.hex digest

/-- The body of the `try` of `_verify_legacy_pbkdf2_password`: the digests to compare, or nothing
where it returns `False`. -/
def legacyDigests (password storedHash : PyStr) :
    Except PasswordError (Option (PyStr × PyStr)) :=
  match storedHash.split dollar 3 with
  | [schemeName, iterationCountRaw, salt, expectedDigest] =>
    if schemeName ≠ pbkdf2SchemeName then .ok none
    else do
      let iterationCount ← parseInt lib iterationCountRaw
      if iterationCount < 1 then return none
      let candidateDigest ← pbkdf2HexDigest lib password salt iterationCount
      return some (candidateDigest, expectedDigest)
  | _ => .error .valueError

/-- `_verify_legacy_pbkdf2_password`. -/
def verifyLegacyPbkdf2Password (password storedHash : PyStr) : Except PasswordError Bool :=
  match legacyDigests lib password storedHash with
  | .error .valueError => .ok false
  | .error .typeError => .ok false
  | .error .overflowError => .error .overflowError
  | .ok none => .ok false
  | .ok (some (candidateDigest, expectedDigest)) => compareDigest candidateDigest expectedDigest

def verifyPassword (password storedHash : PyStr) : Except PasswordError Bool :=
  if (pbkdf2SchemeName ++ [dollar]).isPrefixOf storedHash then
    verifyLegacyPbkdf2Password lib password storedHash
  else
    match lib.argon2Verify password storedHash with
    | some verified => .ok verified
    | none => .ok false

/-! ## What a legacy text says -/

/-- A legacy text, and a password and salt that can be hashed. -/
structure LegacyHash (password storedHash : PyStr) where
  iterationCountRaw : PyStr
  salt : PyStr
  expectedDigest : PyStr
  iterationCount : ℤ
  passwordBytes : List UInt8
  saltBytes : List UInt8
  eq_append : storedHash = pbkdf2SchemeName ++ dollar :: (iterationCountRaw ++ dollar ::
    (salt ++ dollar :: expectedDigest))
  notMem_raw : dollar ∉ iterationCountRaw
  notMem_salt : dollar ∉ salt
  int_raw : iterationCountRaw.int lib.decimal lib.maxStrDigits = some iterationCount
  pos : 1 ≤ iterationCount
  encode_password : password.encode = some passwordBytes
  encode_salt : salt.encode = some saltBytes

namespace LegacyHash

variable {lib} {password storedHash : PyStr} (legacy : LegacyHash lib password storedHash)

/-- The digest of the password. -/
def digest : PyStr :=
  PyStr.hex (lib.pbkdf2 legacy.passwordBytes legacy.saltBytes legacy.iterationCount.toNat)

/-- The hashing function cannot count so far, or the digest cannot be compared. -/
def Raises : Prop :=
  intMax < legacy.passwordBytes.length ∨ intMax < legacy.saltBytes.length ∨
    (intMax : ℤ) < legacy.iterationCount ∨ legacy.expectedDigest.isAscii = false

theorem scheme_storedHash (legacy : LegacyHash lib password storedHash) :
    pbkdf2SchemeName ++ [dollar] <+: storedHash :=
  ⟨_, (List.append_assoc ..).trans legacy.eq_append.symm⟩

theorem split_storedHash : storedHash.split dollar 3 =
    [pbkdf2SchemeName, legacy.iterationCountRaw, legacy.salt, legacy.expectedDigest] := by
  have hscheme : dollar ∉ pbkdf2SchemeName := by decide
  refine (congrArg (PyStr.split dollar 3) legacy.eq_append).trans ?_
  rw [PyStr.split_append hscheme, PyStr.split_append legacy.notMem_raw,
    PyStr.split_append legacy.notMem_salt, PyStr.split]

theorem legacyDigests_eq : legacyDigests lib password storedHash =
    (pbkdf2Hmac lib legacy.passwordBytes legacy.saltBytes legacy.iterationCount).map fun digest =>
      some (PyStr.hex digest, legacy.expectedDigest) := by
  have hpos : ¬ legacy.iterationCount < 1 := not_lt.2 legacy.pos
  rw [legacyDigests, legacy.split_storedHash]
  dsimp only
  rw [if_neg (not_not.2 rfl), parseInt, legacy.int_raw, Except.ok_bind, if_neg hpos,
    pbkdf2HexDigest, encodeText, encodeText, legacy.encode_password, legacy.encode_salt,
    Except.ok_bind, Except.ok_bind]
  cases pbkdf2Hmac lib legacy.passwordBytes legacy.saltBytes legacy.iterationCount <;> rfl

end LegacyHash

/-! ## Answers -/

variable {lib} {password storedHash : PyStr}

theorem pbkdf2Hmac_eq {passwordBytes saltBytes : List UInt8} {iterations : ℤ}
    (hpos : 1 ≤ iterations) : pbkdf2Hmac lib passwordBytes saltBytes iterations =
      if intMax < passwordBytes.length ∨ intMax < saltBytes.length ∨ (intMax : ℤ) < iterations then
        .error .overflowError
      else .ok (lib.pbkdf2 passwordBytes saltBytes iterations.toNat) := by
  rw [pbkdf2Hmac, if_neg (not_lt.2 hpos)]
  split_ifs <;> first | rfl | omega

theorem verifyPassword_of_scheme (h : pbkdf2SchemeName ++ [dollar] <+: storedHash) :
    verifyPassword lib password storedHash =
      verifyLegacyPbkdf2Password lib password storedHash := by
  rw [verifyPassword, if_pos (List.isPrefixOf_iff_prefix.2 h)]

theorem verifyPassword_of_other_scheme (h : ¬ pbkdf2SchemeName ++ [dollar] <+: storedHash) :
    verifyPassword lib password storedHash =
      .ok ((lib.argon2Verify password storedHash).getD false) := by
  rw [verifyPassword, if_neg fun hlegacy => h (List.isPrefixOf_iff_prefix.1 hlegacy)]
  cases lib.argon2Verify password storedHash <;> rfl

theorem verifyPassword_of_raises (legacy : LegacyHash lib password storedHash)
    (h : legacy.Raises) : ∃ e, verifyPassword lib password storedHash = .error e := by
  rw [verifyPassword_of_scheme legacy.scheme_storedHash, verifyLegacyPbkdf2Password,
    legacy.legacyDigests_eq, pbkdf2Hmac_eq legacy.pos]
  by_cases hcount : intMax < legacy.passwordBytes.length ∨ intMax < legacy.saltBytes.length ∨
      (intMax : ℤ) < legacy.iterationCount
  · rw [if_pos hcount]
    exact ⟨.overflowError, rfl⟩
  · have hascii : ¬ legacy.expectedDigest.isAscii := by
      unfold LegacyHash.Raises at h
      simpa using (or_assoc.2 (or_assoc.2 h)).resolve_left (by rwa [or_assoc])
    rw [if_neg hcount]
    refine ⟨.typeError, ?_⟩
    exact if_neg fun h => hascii h.2

theorem verifyPassword_of_not_raises (legacy : LegacyHash lib password storedHash)
    (h : ¬ legacy.Raises) : verifyPassword lib password storedHash =
      .ok (legacy.digest = legacy.expectedDigest) := by
  unfold LegacyHash.Raises at h
  push Not at h
  obtain ⟨hpassword, hsalt, hcount, hascii⟩ := h
  rw [verifyPassword_of_scheme legacy.scheme_storedHash, verifyLegacyPbkdf2Password,
    legacy.legacyDigests_eq, pbkdf2Hmac_eq legacy.pos, if_neg (by omega)]
  exact if_pos ⟨PyStr.isAscii_hex _, by simpa using hascii⟩

/-- A text that only starts like a legacy one is refused. -/
theorem verifyPassword_of_isEmpty (hlegacy : pbkdf2SchemeName ++ [dollar] <+: storedHash)
    (h : IsEmpty (LegacyHash lib password storedHash)) :
    verifyPassword lib password storedHash = .ok false := by
  rw [verifyPassword_of_scheme hlegacy, verifyLegacyPbkdf2Password]
  obtain ⟨rest, rfl⟩ := hlegacy
  have hscheme : dollar ∉ pbkdf2SchemeName := by decide
  rw [List.append_assoc, List.singleton_append] at h ⊢
  rw [legacyDigests, PyStr.split_append hscheme]
  rcases @PyStr.split_succ_cases dollar rest 1 with hsplit | ⟨raw, rest, rfl, hraw, hsplit⟩
  · rw [hsplit]
  rw [hsplit]
  rcases @PyStr.split_succ_cases dollar rest 0 with hsplit | ⟨salt, digest, rfl, hsalt, hsplit⟩
  · rw [hsplit]
  rw [hsplit, PyStr.split]
  dsimp only
  rw [if_neg (not_not.2 rfl), parseInt]
  cases hint : raw.int lib.decimal lib.maxStrDigits with
  | none => rfl
  | some n =>
    rw [Except.ok_bind]
    by_cases hpos : n < 1
    · rw [if_pos hpos]
      rfl
    · rw [if_neg hpos, pbkdf2HexDigest, encodeText, encodeText]
      cases hpassword : password.encode with
      | none => rfl
      | some passwordBytes =>
        cases hsaltBytes : salt.encode with
        | none => rfl
        | some saltBytes =>
          exact h.elim ⟨raw, salt, digest, n, passwordBytes, saltBytes, rfl, hraw, hsalt, hint,
            not_lt.1 hpos, hpassword, hsaltBytes⟩

variable (lib password storedHash)

/-- An answer is given, and for a legacy text it is the right one. -/
def TotalAndExact : Prop :=
  ∃ verified, verifyPassword lib password storedHash = .ok verified ∧
    (pbkdf2SchemeName ++ [dollar] <+: storedHash →
      (verified = true ↔ ∃ legacy : LegacyHash lib password storedHash,
        legacy.expectedDigest = legacy.digest))

/-- It is so exactly for the texts that are no legacy text on which the hashing function or the
comparison raises. -/
theorem totalAndExact_iff : TotalAndExact lib password storedHash ↔
    ∀ legacy : LegacyHash lib password storedHash, ¬ legacy.Raises := by
  constructor
  · rintro ⟨verified, hok, -⟩ legacy hraises
    obtain ⟨e, herror⟩ := verifyPassword_of_raises legacy hraises
    rw [hok] at herror
    cases herror
  · intro h
    by_cases hlegacy : pbkdf2SchemeName ++ [dollar] <+: storedHash
    · rcases isEmpty_or_nonempty (LegacyHash lib password storedHash) with hnone | ⟨⟨legacy⟩⟩
      · refine ⟨false, verifyPassword_of_isEmpty hlegacy hnone, fun _ => ?_⟩
        exact iff_of_false Bool.false_ne_true fun ⟨legacy, _⟩ => hnone.false legacy
      · have hok := verifyPassword_of_not_raises legacy (h legacy)
        refine ⟨_, hok, fun _ => ⟨fun heq => ⟨legacy, (of_decide_eq_true heq).symm⟩, ?_⟩⟩
        rintro ⟨legacy', heq⟩
        have hok' := verifyPassword_of_not_raises legacy' (h legacy')
        rw [hok, Except.ok.injEq] at hok'
        rw [hok']
        exact decide_eq_true heq.symm
    · exact ⟨_, verifyPassword_of_other_scheme hlegacy, fun h => absurd h hlegacy⟩

/-- A library that hides nothing. -/
def plainLib : PasswordLib where
  decimal _ := none
  maxStrDigits := 4300
  pbkdf2 password salt _ := password ++ salt
  argon2Hash _ password := some (PyStr.ofString "$argon2" ++ password)
  argon2Verify password storedHash := some (storedHash = PyStr.ofString "$argon2" ++ password)
  argon2Hash_scheme h := ⟨_, Option.some.inj h⟩

/-- The digest has a letter that is not ASCII. -/
theorem not_totalAndExact_digest : ¬ TotalAndExact plainLib (PyStr.ofString "secret")
    (PyStr.ofString "pbkdf2_sha256$100000$testsalt$dé") := by
  have herror : verifyPassword plainLib (PyStr.ofString "secret")
      (PyStr.ofString "pbkdf2_sha256$100000$testsalt$dé") = .error .typeError := by
    decide +kernel
  rintro ⟨verified, hok, -⟩
  rw [herror] at hok
  cases hok

end AranesLms
