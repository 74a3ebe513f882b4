import AranesLms.Auth.Isolation
import AranesLms.Auth.Passwords

/-!
# Password work of a login

`login` of `src/auth/endpoints/auth.py`, with the number of password hashes that it verifies.  The
module hashes a password of its own (`_DUMMY_PASSWORD_HASH`) to be verified when the username does
not exist, but the condition has been decided before it comes to that: the work of a rejected login
tells whether the username exists (`work_eq_iff`).
-/

namespace AranesLms

namespace Login

variable (lib : PasswordLib)

/-- The password hashes that `verify_password` computes. -/
def passwordWork (password storedHash : PyStr) : ℕ :=
  if (pbkdf2SchemeName ++ [dollar]).isPrefixOf storedHash then
    match legacyDigests lib password storedHash with
    | .ok (some _) => 1
    | _ => 0
  else 1

inductive LoginError where
  | http (e : HttpException)
  | password (e : PasswordError)
  | token (detail : String)
  deriving DecidableEq

def invalidCredentials : LoginError := .http ⟨401, "Invalid credentials"⟩

/-- How a login ends, and the number of password hashes it has verified. -/
structure Attempt where
  outcome : Except LoginError TokenPayload
  work : ℕ

/-- `get_user_for_login`. -/
def getUserForLogin (users : UserTable) (username : String) : Option User := users.findBy? username

variable (dummyPasswordHash : PyStr)

/-- The condition of `login`, with the password hashes that are verified for it. -/
def rejects (user : Option User) (password : PyStr) : Except PasswordError Bool × ℕ :=
  -- `or` does not look at its second operand when there is no user.
  if user = none then (.ok true, 0)
  else
    let storedHash := (user.map fun user => PyStr.ofString user.password).getD dummyPasswordHash
    ((verifyPassword lib password storedHash).map not, passwordWork lib password storedHash)

def login (users : UserTable) (username password : String) : Attempt :=
  let user := getUserForLogin users username
  let condition := rejects lib dummyPasswordHash user (PyStr.ofString password)
  match condition.1, user with
  | .error e, _ => ⟨.error (.password e), condition.2⟩
  | .ok false, some user =>
    match issueAccessToken user.username (some user.id) with
    | .ok payload => ⟨.ok payload, condition.2⟩
    | .error detail => ⟨.error (.token detail), condition.2⟩
  | .ok _, _ => ⟨.error invalidCredentials, condition.2⟩

variable {lib dummyPasswordHash}

theorem login_work (users : UserTable) (username password : String) :
    (login lib dummyPasswordHash users username password).work =
      (rejects lib dummyPasswordHash (getUserForLogin users username)
        (PyStr.ofString password)).2 := by
  rw [login]
  split
  · rfl
  · split <;> rfl
  · rfl

/-- An Argon2 hash is verified once. -/
theorem passwordWork_argon2 {salt : List UInt8} {hashed storedHash : PyStr}
    (h : lib.argon2Hash salt hashed = some storedHash) (password : PyStr) :
    passwordWork lib password storedHash = 1 := by
  refine if_neg fun hlegacy => ?_
  obtain ⟨rest, rfl⟩ := lib.argon2Hash_scheme h
  obtain ⟨_, heq⟩ := List.isPrefixOf_iff_prefix.1 hlegacy
  have hhead := congrArg List.head? heq
  rw [List.append_assoc, List.head?_append_of_ne_nil _ (by decide),
    List.head?_append_of_ne_nil _ (by decide)] at hhead
  exact absurd hhead (by decide)

/-- The login is the event of the runs of tokens. -/
theorem map_tokens_step_login {s : TokenState} {username password : String} {verified : Bool}
    (h : ∀ user, s.db.users.findBy? username = some user →
      verifyPassword lib (PyStr.ofString password) (PyStr.ofString user.password) =
        .ok verified) :
    (s.step (.login username verified)).tokens.map Prod.fst =
      (login lib dummyPasswordHash s.db.users username password).outcome.toOption.toList ++
        s.tokens.map Prod.fst := by
  rw [TokenState.step, login, getUserForLogin]
  cases huser : s.db.users.findBy? username with
  | none => rfl
  | some user =>
    simp only [rejects, reduceCtorEq, if_false, Option.map_some, Option.getD_some, h user huser]
    cases verified with
    | false => rfl
    | true =>
      simp only [TokenState.issue, Except.map, Bool.not_true, if_true]
      cases issueAccessToken user.username (some user.id) <;> rfl

/-! ## Rejected logins -/

variable (lib dummyPasswordHash) in
/-- A login that is rejected, with a table that holds only what `hash_password` has returned. -/
structure Rejected where
  users : UserTable
  username : String
  password : String
  argon2 : ∀ user ∈ users, ∃ salt password,
    lib.argon2Hash salt password = some (PyStr.ofString user.password)
  rejected : (login lib dummyPasswordHash users username password).outcome =
    .error invalidCredentials

namespace Rejected

variable (r r' : Rejected lib dummyPasswordHash)

def work : ℕ := (login lib dummyPasswordHash r.users r.username r.password).work

def UsernameExists : Prop := ∃ user ∈ r.users, user.username = r.username

theorem work_of_usernameExists (h : r.UsernameExists) : r.work = 1 := by
  obtain ⟨user, huser, hname⟩ := h
  obtain ⟨salt, hashed, hhash⟩ := r.argon2 user huser
  have hfind : getUserForLogin r.users r.username = some user :=
    Table.findBy?_eq_some.2 ⟨huser, hname⟩
  rw [work, login_work, hfind]
  exact passwordWork_argon2 hhash _

theorem work_of_not_usernameExists (h : ¬ r.UsernameExists) : r.work = 0 := by
  have hfind : getUserForLogin r.users r.username = none :=
    Option.eq_none_iff_forall_ne_some.2 fun user hsome => h ⟨user, Table.findBy?_eq_some.1 hsome⟩
  rw [work, login_work, hfind]
  rfl

/-- Two rejected logins verify equally many password hashes exactly when both usernames exist or
neither does. -/
theorem work_eq_iff : r.work = r'.work ↔ (r.UsernameExists ↔ r'.UsernameExists) := by
  by_cases h : r.UsernameExists <;> by_cases h' : r'.UsernameExists <;>
    simp [h, h', work_of_usernameExists, work_of_not_usernameExists]

end Rejected

/-! ## Two wrong passwords -/

section

/-- A table with one user. -/
def aliceOnly : UserTable :=
  ⟨[⟨1, "alice", "$argon2alice123", 6, some ∅⟩], by decide, by decide⟩

theorem argon2_aliceOnly : ∀ user ∈ aliceOnly, ∃ salt password,
    plainLib.argon2Hash salt password = some (PyStr.ofString user.password) := by
  intro user huser
  obtain rfl := List.mem_singleton.1 huser
  exact ⟨[], PyStr.ofString "alice123", by decide⟩

def wrongPassword : Rejected plainLib (PyStr.ofString "$argon2__sentinel__") :=
  ⟨aliceOnly, "alice", "guess123", argon2_aliceOnly, by decide +kernel⟩

def wrongUsername : Rejected plainLib (PyStr.ofString "$argon2__sentinel__") :=
  ⟨aliceOnly, "mallory", "guess123", argon2_aliceOnly, by decide +kernel⟩

/-- A password hash is verified for alice, and none for a user that does not exist. -/
theorem work_wrongPassword_ne : wrongPassword.work ≠ wrongUsername.work := by
  decide +kernel

end

end Login

end AranesLms
