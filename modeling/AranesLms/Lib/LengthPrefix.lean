import Mathlib.Data.List.Basic
import Mathlib.Data.Nat.Digits.Defs
import Mathlib.Tactic.Common

/-!
# Texts behind their lengths

A text is framed by writing the numeral of its length and a separator before it.  The text may hold
anything, separators and digits included: the frame says where it ends, so that a word that begins
with a frame determines both the text and what follows (`frame_append_inj`).
-/

/-- The numerals of a framing, which its separator does not occur in. -/
structure Framing (α : Type*) where
  numeral : ℕ → List α
  sep : α
  sep_notMem : ∀ n, sep ∉ numeral n
  numeral_injective : Function.Injective numeral

namespace Framing

variable {α : Type*} (F : Framing α)

def frame (s : List α) : List α := F.numeral s.length ++ F.sep :: s

/-- The first separator ends what stands before it. -/
theorem append_sep_inj {sep : α} {a b u v : List α} (ha : sep ∉ a) (hb : sep ∉ b)
    (h : a ++ sep :: u = b ++ sep :: v) : a = b ∧ u = v := by
  induction a generalizing b with
  | nil =>
    cases b with
    | nil => exact ⟨rfl, (List.cons.inj h).2⟩
    | cons c b => exact absurd ((List.cons.inj h).1 ▸ List.mem_cons_self) hb
  | cons d a ih =>
    cases b with
    | nil => exact absurd ((List.cons.inj h).1 ▸ List.mem_cons_self) ha
    | cons c b =>
      obtain ⟨rfl, hrest⟩ := List.cons.inj h
      obtain ⟨rfl, huv⟩ := ih (fun hc => ha (List.mem_cons_of_mem _ hc))
        (fun hc => hb (List.mem_cons_of_mem _ hc)) hrest
      exact ⟨rfl, huv⟩

variable {F}

theorem frame_append_inj {s t u v : List α} (h : F.frame s ++ u = F.frame t ++ v) :
    s = t ∧ u = v := by
  simp only [frame, List.append_assoc, List.cons_append] at h
  obtain ⟨hnumeral, htext⟩ := append_sep_inj (F.sep_notMem _) (F.sep_notMem _) h
  exact List.append_inj htext (F.numeral_injective hnumeral)

theorem frame_injective : Function.Injective F.frame := by
  intro s t h
  have happ : F.frame s ++ [] = F.frame t ++ [] := by rw [h]
  exact (frame_append_inj happ).1

/-! ## Decimal numerals -/

theorem toDigits_injective : Function.Injective (Nat.toDigits 10) := by
  have hleft : Function.LeftInverse (fun digits => Nat.ofDigitChars 10 digits 0)
      (Nat.toDigits 10) := fun _ => Nat.ofDigitChars_ten_toDigits
  exact hleft.injective

theorem notMem_toDigits {sep : Char} (hsep : sep.isDigit = false) (n : ℕ) :
    sep ∉ Nat.toDigits 10 n := by
  intro hmem
  have hdigit := Nat.isDigit_of_mem_toDigits (by decide) (le_refl 10) hmem
  rw [hsep] at hdigit
  cases hdigit

/-- A numeral and a separator before a text determine both. -/
theorem toString_append_inj {sep : Char} (hsep : sep.isDigit = false) {m n : ℕ} {u v : String}
    (h : toString m ++ String.singleton sep ++ u = toString n ++ String.singleton sep ++ v) :
    m = n ∧ u = v := by
  have hlist : Nat.toDigits 10 m ++ sep :: u.toList = Nat.toDigits 10 n ++ sep :: v.toList := by
    simpa [Nat.toString_eq_ofList_toDigits] using congrArg String.toList h
  obtain ⟨hnumeral, htext⟩ :=
    append_sep_inj (notMem_toDigits hsep m) (notMem_toDigits hsep n) hlist
  exact ⟨toDigits_injective hnumeral, String.toList_injective htext⟩

/-- The decimal numerals, with the digits and the separator written by `symbol`. -/
def decimal (symbol : Char → α) (hsymbol : Function.Injective symbol) (sep : Char)
    (hsep : sep.isDigit = false) : Framing α where
  numeral n := (Nat.toDigits 10 n).map symbol
  sep := symbol sep
  sep_notMem n hmem := by
    rw [List.mem_map_of_injective hsymbol] at hmem
    exact notMem_toDigits hsep n hmem
  numeral_injective m n h := toDigits_injective (hsymbol.list_map h)

/-- A decimal frame begins with a digit. -/
theorem exists_frame_decimal {symbol : Char → α} {hsymbol : Function.Injective symbol} {sep : Char}
    {hsep : sep.isDigit = false} (s : List α) :
    ∃ c rest, c.isDigit = true ∧ (decimal symbol hsymbol sep hsep).frame s = symbol c :: rest := by
  cases hdigits : Nat.toDigits 10 s.length with
  | nil => exact absurd hdigits Nat.toDigits_ne_nil
  | cons c digits =>
    have hmem : c ∈ Nat.toDigits 10 s.length := hdigits ▸ List.mem_cons_self
    refine ⟨c, digits.map symbol ++ symbol sep :: s,
      Nat.isDigit_of_mem_toDigits (by decide) (le_refl 10) hmem, ?_⟩
    show (Nat.toDigits 10 s.length).map symbol ++ symbol sep :: s = _
    rw [hdigits, List.map_cons, List.cons_append]

end Framing
