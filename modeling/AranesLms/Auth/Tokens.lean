import Mathlib.Data.Int.Basic
import Mathlib.Tactic.Common
import AranesLms.Lib.Except

/-!
# Access tokens

`issue_access_token` of `src/auth/tokens.py`.  A token is modelled by the claims it carries; its
signature, its times and its `jti` play no part in finding the account.
-/

namespace AranesLms

/-- The white space that `str.strip` removes. -/
def isSpace (c : Char) : Bool :=
  let n := c.toNat
  (9 ≤ n ∧ n ≤ 13) ∨ (28 ≤ n ∧ n ≤ 32) ∨ n = 0x85 ∨ n = 0xA0 ∨ n = 0x1680 ∨
    (0x2000 ≤ n ∧ n ≤ 0x200A) ∨ n = 0x2028 ∨ n = 0x2029 ∨ n = 0x202F ∨ n = 0x205F ∨ n = 0x3000

/-- `str.strip`. -/
def strip (s : String) : String :=
  String.ofList ((s.toList.dropWhile isSpace).reverse.dropWhile isSpace).reverse

/-- The value of a claim. -/
inductive Claim where
  | int (n : ℤ)
  | bool (b : Bool)
  | str (s : String)
  | other
  deriving DecidableEq

/-- The claims of an access token that identify its account. -/
structure TokenPayload where
  sub : Option Claim
  uid : Option Claim
  deriving DecidableEq

/-- `_normalize_token_subject`; the error is the text of the `ValueError`. -/
def normalizeTokenSubject (username : String) : Except String String :=
  let normalized := strip username
  if normalized = "" then .error "username must be a non-empty string" else .ok normalized

/-- `_normalize_token_user_id`. -/
def normalizeTokenUserId (userId : ℕ) : Except String ℕ :=
  if userId = 0 then .error "user_id must be a positive integer" else .ok userId

/-- `issue_access_token`. -/
def issueAccessToken (username : String) (userId : Option ℕ) : Except String TokenPayload := do
  let tokenSubject ← normalizeTokenSubject username
  match userId with
  | none => return ⟨some (.str tokenSubject), none⟩
  | some userId =>
    let uid ← normalizeTokenUserId userId
    return ⟨some (.str tokenSubject), some (.int uid)⟩

theorem issueAccessToken_ok {username : String} {userId : ℕ} {payload : TokenPayload}
    (h : issueAccessToken username (some userId) = .ok payload) :
    0 < userId ∧ payload.uid = some (.int userId) := by
  simp only [issueAccessToken, Except.bind_eq_ok] at h
  obtain ⟨subject, -, uid, huid, h⟩ := h
  cases h
  unfold normalizeTokenUserId at huid
  split_ifs at huid with h0
  cases huid
  exact ⟨Nat.pos_of_ne_zero h0, rfl⟩

end AranesLms
