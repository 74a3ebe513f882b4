import Mathlib.Order.Basic
import Mathlib.Tactic.Common

/-!
# UTF-8

`encode` writes characters as bytes.  The decoder is a machine that reads one byte at a time
(`step`); it gives a character for every complete sequence and an error for every maximal sequence
that begins one and is not continued.  `decode` replaces the errors by U+FFFD, `decodeStrict` stops
at them.  Decoding what was encoded gives it back (`decode_encode`), and for any bytes it keeps the
number of ASCII characters (`countP_decode`).
-/

namespace Utf8

def encodeChar (c : Char) : List UInt8 :=
  let n := c.toNat
  if n < 0x80 then [.ofNat n]
  else if n < 0x800 then [.ofNat (0xC0 + n / 64), .ofNat (0x80 + n % 64)]
  else if n < 0x10000 then
    [.ofNat (0xE0 + n / 4096), .ofNat (0x80 + n / 64 % 64), .ofNat (0x80 + n % 64)]
  else
    [.ofNat (0xF0 + n / 262144), .ofNat (0x80 + n / 4096 % 64), .ofNat (0x80 + n / 64 % 64),
      .ofNat (0x80 + n % 64)]

def encode (cs : List Char) : List UInt8 := cs.flatMap encodeChar

/-! ## The machine -/

/-- A sequence has begun: the next byte has to lie between the bounds, and is followed by `needed`
others. -/
structure Pending where
  needed : ℕ
  lower : ℕ
  upper : ℕ
  code : ℕ

/-- What a byte from 0x80 on begins. -/
def lead (b : ℕ) : Option Pending :=
  if 0xC2 ≤ b ∧ b < 0xE0 then some ⟨0, 0x80, 0xBF, b - 0xC0⟩
  else if 0xE0 ≤ b ∧ b < 0xF0 then
    some ⟨1, if b = 0xE0 then 0xA0 else 0x80, if b = 0xED then 0x9F else 0xBF, b - 0xE0⟩
  else if 0xF0 ≤ b ∧ b < 0xF5 then
    some ⟨2, if b = 0xF0 then 0x90 else 0x80, if b = 0xF4 then 0x8F else 0xBF, b - 0xF0⟩
  else none

/-- The character of a sequence of several bytes; the bounds leave nothing to refuse. -/
def charOf (n : ℕ) : Option Char :=
  if n.isValidChar ∧ 0x80 ≤ n then some (Char.ofNat n) else none

/-- A byte where no sequence has begun: the results, and what has begun then. -/
def first (b : UInt8) : List (Option Char) × Option Pending :=
  if b.toNat < 0x80 then ([some (Char.ofNat b.toNat)], none)
  else
    match lead b.toNat with
    | some p => ([], some p)
    | none => ([none], none)

def step : Option Pending → UInt8 → List (Option Char) × Option Pending
  | none, b => first b
  | some p, b =>
    if p.lower ≤ b.toNat ∧ b.toNat ≤ p.upper then
      let code := p.code * 64 + (b.toNat - 0x80)
      if p.needed = 0 then ([charOf code], none)
      else ([], some ⟨p.needed - 1, 0x80, 0xBF, code⟩)
    else (none :: (first b).1, (first b).2)

def decodeFrom : Option Pending → List UInt8 → List (Option Char)
  | none, [] => []
  | some _, [] => [none]
  | s, b :: bs => (step s b).1 ++ decodeFrom (step s b).2 bs

/-- With U+FFFD for every error. -/
def decode (bs : List UInt8) : List Char := (decodeFrom none bs).map fun c => c.getD '\uFFFD'

/-- Nothing if there is an error. -/
def decodeStrict (bs : List UInt8) : Option (List Char) := (decodeFrom none bs).mapM id

/-! ## Decoding what was encoded -/

theorem charOf_toNat {c : Char} (h : 0x80 ≤ c.toNat) : charOf c.toNat = some c := by
  rw [charOf, if_pos ⟨c.valid, h⟩, Char.ofNat_toNat]

theorem toNat_ofNat {n : ℕ} (h : n < 256) : (UInt8.ofNat n).toNat = n := by
  rw [UInt8.toNat_ofNat']
  exact Nat.mod_eq_of_lt h

theorem step_pending {p : Pending} {n : ℕ} (hn : n < 64) (hlower : p.lower ≤ 0x80 + n)
    (hupper : 0x80 + n ≤ p.upper) : step (some p) (.ofNat (0x80 + n)) =
      if p.needed = 0 then ([charOf (p.code * 64 + n)], none)
      else ([], some ⟨p.needed - 1, 0x80, 0xBF, p.code * 64 + n⟩) := by
  rw [step, toNat_ofNat (by omega), if_pos ⟨hlower, hupper⟩, Nat.add_sub_cancel_left]

theorem step_lead {b : ℕ} {p : Pending} (hb : 0x80 ≤ b) (hb' : b < 256) (h : lead b = some p) :
    step none (.ofNat b) = ([], some p) := by
  rw [step, first, toNat_ofNat hb', if_neg (Nat.not_lt.2 hb), h]

/-- The next byte of a sequence. -/
theorem decodeFrom_pending {needed lower upper code n : ℕ} (hn : n < 64)
    (hlower : lower ≤ 0x80 + n) (hupper : 0x80 + n ≤ upper) (bs : List UInt8) :
    decodeFrom (some ⟨needed + 1, lower, upper, code⟩) (.ofNat (0x80 + n) :: bs) =
      decodeFrom (some ⟨needed, 0x80, 0xBF, code * 64 + n⟩) bs := by
  rw [decodeFrom, step_pending hn hlower hupper]
  rfl

/-- The last byte of a sequence. -/
theorem decodeFrom_last {lower upper code n : ℕ} (hn : n < 64) (hlower : lower ≤ 0x80 + n)
    (hupper : 0x80 + n ≤ upper) (bs : List UInt8) :
    decodeFrom (some ⟨0, lower, upper, code⟩) (.ofNat (0x80 + n) :: bs) =
      charOf (code * 64 + n) :: decodeFrom none bs := by
  rw [decodeFrom, step_pending hn hlower hupper]
  rfl

theorem decodeFrom_lead {b : ℕ} {p : Pending} (hb : 0x80 ≤ b) (hb' : b < 256)
    (h : lead b = some p) (bs : List UInt8) :
    decodeFrom none (.ofNat b :: bs) = decodeFrom (some p) bs := by
  rw [decodeFrom, step_lead hb hb' h]
  rfl

theorem decodeFrom_encodeChar (c : Char) (bs : List UInt8) :
    decodeFrom none (encodeChar c ++ bs) = some c :: decodeFrom none bs := by
  have hvalid : c.toNat < 0xD800 ∨ 0xDFFF < c.toNat ∧ c.toNat < 0x110000 := c.valid
  have hchar : ∀ n, n = c.toNat → 0x80 ≤ n → charOf n = some c := by
    rintro n rfl h
    exact charOf_toNat h
  rw [encodeChar]
  split_ifs with h1 h2 h3
  · rw [List.singleton_append, decodeFrom, step, first, toNat_ofNat (by omega), if_pos h1,
      Char.ofNat_toNat]
    rfl
  · have hlead : lead (0xC0 + c.toNat / 64) = some ⟨0, 0x80, 0xBF, c.toNat / 64⟩ := by
      rw [lead, if_pos (by omega), Nat.add_sub_cancel_left]
    simp only [List.cons_append, List.nil_append]
    rw [decodeFrom_lead (by omega) (by omega) hlead,
      decodeFrom_last (by omega) (by omega) (by omega), hchar _ (by omega) (by omega)]
  · obtain ⟨lower, upper, hlead, hlower, hupper⟩ : ∃ lower upper,
        lead (0xE0 + c.toNat / 4096) = some ⟨1, lower, upper, c.toNat / 4096⟩ ∧
          lower ≤ 0x80 + c.toNat / 64 % 64 ∧ 0x80 + c.toNat / 64 % 64 ≤ upper := by
      refine ⟨_, _, by rw [lead, if_neg (by omega), if_pos (by omega), Nat.add_sub_cancel_left],
        ?_, ?_⟩ <;> split_ifs <;> omega
    simp only [List.cons_append, List.nil_append]
    rw [decodeFrom_lead (by omega) (by omega) hlead,
      decodeFrom_pending (by omega) hlower hupper,
      decodeFrom_last (by omega) (by omega) (by omega), hchar _ (by omega) (by omega)]
  · obtain ⟨lower, upper, hlead, hlower, hupper⟩ : ∃ lower upper,
        lead (0xF0 + c.toNat / 262144) = some ⟨2, lower, upper, c.toNat / 262144⟩ ∧
          lower ≤ 0x80 + c.toNat / 4096 % 64 ∧ 0x80 + c.toNat / 4096 % 64 ≤ upper := by
      refine ⟨_, _, by rw [lead, if_neg (by omega), if_neg (by omega), if_pos (by omega),
        Nat.add_sub_cancel_left], ?_, ?_⟩ <;> split_ifs <;> omega
    simp only [List.cons_append, List.nil_append]
    rw [decodeFrom_lead (by omega) (by omega) hlead,
      decodeFrom_pending (by omega) hlower hupper,
      decodeFrom_pending (by omega) (by omega) (by omega),
      decodeFrom_last (by omega) (by omega) (by omega), hchar _ (by omega) (by omega)]

theorem decodeFrom_encode (cs : List Char) : decodeFrom none (encode cs) = cs.map some := by
  induction cs with
  | nil => rfl
  | cons c cs ih =>
    rw [encode, List.flatMap_cons, decodeFrom_encodeChar, List.map_cons, ← ih]
    rfl

theorem decode_encode (cs : List Char) : decode (encode cs) = cs := by
  rw [decode, decodeFrom_encode, List.map_map]
  exact List.map_id cs

/-! ## ASCII characters -/

def isAscii (c : Char) : Bool := c.toNat < 0x80

/-- The number of ASCII characters among the results. -/
def countAscii (results : List (Option Char)) : ℕ :=
  results.countP fun c => (c.map isAscii).getD false

theorem isAscii_ofNat {n : ℕ} (h : n.isValidChar) :
    isAscii (Char.ofNat n) = decide (n < 0x80) := by
  have htoNat : (Char.ofNat n).toNat = n := by
    rw [Char.ofNat, dif_pos h]
    unfold Char.ofNatAux Char.toNat
    simp
  rw [isAscii, htoNat]

theorem lower_of_lead {b : ℕ} {p : Pending} (h : lead b = some p) : 0x80 ≤ p.lower := by
  rw [lead] at h
  split_ifs at h <;> cases h <;> simp

/-- Only an ASCII byte gives an ASCII character. -/
theorem countAscii_first (b : UInt8) :
    countAscii (first b).1 = if b.toNat < 0x80 then 1 else 0 := by
  rw [first]
  by_cases hb : b.toNat < 0x80
  · have hvalid : b.toNat.isValidChar := Or.inl (by omega)
    rw [if_pos hb, if_pos hb]
    simp [countAscii, isAscii_ofNat hvalid, hb]
  · rw [if_neg hb, if_neg hb]
    cases lead b.toNat <;> rfl

theorem lower_of_first {b : UInt8} {p : Pending} (h : (first b).2 = some p) : 0x80 ≤ p.lower := by
  rw [first] at h
  by_cases hb : b.toNat < 0x80
  · rw [if_pos hb] at h
    cases h
  · rw [if_neg hb] at h
    cases hlead : lead b.toNat with
    | none =>
      rw [hlead] at h
      cases h
    | some p' =>
      rw [hlead] at h
      cases h
      exact lower_of_lead hlead

theorem countAscii_charOf (n : ℕ) : countAscii [charOf n] = 0 := by
  rw [charOf]
  split_ifs with h
  · simp [countAscii, isAscii_ofNat h.1, h.2]
  · rfl

theorem countAscii_step {s : Option Pending} (hs : ∀ p, s = some p → 0x80 ≤ p.lower) (b : UInt8) :
    countAscii (step s b).1 = (if b.toNat < 0x80 then 1 else 0) ∧
      ∀ p, (step s b).2 = some p → 0x80 ≤ p.lower := by
  cases s with
  | none => exact ⟨countAscii_first b, fun p => lower_of_first⟩
  | some p =>
    have hp := hs p rfl
    rw [step]
    by_cases hb : p.lower ≤ b.toNat ∧ b.toNat ≤ p.upper
    · rw [if_pos hb, if_neg (show ¬ b.toNat < 0x80 by omega)]
      dsimp only
      split_ifs
      · exact ⟨countAscii_charOf _, nofun⟩
      · refine ⟨rfl, ?_⟩
        rintro _ ⟨⟩
        exact Nat.le_refl 0x80
    · rw [if_neg hb]
      exact ⟨countAscii_first b, fun p => lower_of_first⟩

/-- An ASCII byte ends what has begun, and nothing else depends on what stands before it. -/
theorem decodeFrom_append_ascii {s : Option Pending} (hs : ∀ p, s = some p → 0x80 ≤ p.lower)
    (bs : List UInt8) {b : UInt8} (hb : b.toNat < 0x80) (bs' : List UInt8) :
    decodeFrom s (bs ++ b :: bs') =
      decodeFrom s bs ++ some (Char.ofNat b.toNat) :: decodeFrom none bs' := by
  have hfirst : first b = ([some (Char.ofNat b.toNat)], none) := by rw [first, if_pos hb]
  induction bs generalizing s with
  | nil =>
    cases s with
    | none =>
      have hstep : step none b = _ := hfirst
      show (step none b).1 ++ decodeFrom (step none b).2 bs' = _
      rw [hstep]
      rfl
    | some p =>
      have hlower := hs p rfl
      have hstep : step (some p) b = ([none, some (Char.ofNat b.toNat)], none) := by
        rw [step, if_neg fun h => by omega, hfirst]
      show (step (some p) b).1 ++ decodeFrom (step (some p) b).2 bs' = _
      rw [hstep]
      rfl
  | cons b' bs ih =>
    rw [List.cons_append, decodeFrom, decodeFrom, ih (countAscii_step hs b').2, List.append_assoc]

theorem decode_append_ascii (bs : List UInt8) {c : Char} (hc : isAscii c) (bs' : List UInt8) :
    decode (bs ++ encodeChar c ++ bs') = decode bs ++ c :: decode bs' := by
  have hlt : c.toNat < 0x80 := of_decide_eq_true hc
  have hencode : encodeChar c = [.ofNat c.toNat] := by rw [encodeChar, if_pos hlt]
  have hbyte : (UInt8.ofNat c.toNat).toNat = c.toNat := toNat_ofNat (by omega)
  rw [decode, hencode, List.append_assoc, List.singleton_append,
    decodeFrom_append_ascii (fun _ h => absurd h (by simp)) bs (by omega), hbyte, Char.ofNat_toNat,
    List.map_append]
  rfl

theorem countAscii_decodeFrom {s : Option Pending} (hs : ∀ p, s = some p → 0x80 ≤ p.lower)
    (bs : List UInt8) :
    countAscii (decodeFrom s bs) = bs.countP fun b => b.toNat < 0x80 := by
  induction bs generalizing s with
  | nil => cases s <;> rfl
  | cons b bs ih =>
    obtain ⟨hcount, hnext⟩ := countAscii_step hs b
    have happend : countAscii ((step s b).1 ++ decodeFrom (step s b).2 bs) =
        countAscii (step s b).1 + countAscii (decodeFrom (step s b).2 bs) := List.countP_append
    rw [decodeFrom, happend, hcount, ih hnext, List.countP_cons, Nat.add_comm]
    simp

theorem countP_decode (bs : List UInt8) :
    (decode bs).countP isAscii = bs.countP fun b => b.toNat < 0x80 := by
  have hnone : ∀ p, (none : Option Pending) = some p → 0x80 ≤ p.lower := nofun
  rw [← countAscii_decodeFrom hnone, decode, List.countP_map, countAscii]
  refine List.countP_congr fun c _ => ?_
  cases c <;> simp [isAscii]

end Utf8
