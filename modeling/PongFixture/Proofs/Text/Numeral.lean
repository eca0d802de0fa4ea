import Mathlib.Data.Nat.Basic
import PongFixture.Text.Numeral

/-!
# Written numbers read back

The digits of a number stand for it again (`value_digits`), are digits of their base, and begin with
a zero only where the number is zero. A reader that takes all the digits there are therefore takes
exactly the written number, as long as no further digit follows (`takeWhile_digits`).
-/

set_option autoImplicit false

namespace PongFixture.Numeral

/-- The character of a digit is read as that digit. -/
theorem digit?_digitChar : ∀ n < 16, digit? n.digitChar = some n := by
  decide

section Base

variable {base : Nat}

/-- A number is written as the digits of its quotient by the base and the digit of its remainder. -/
theorem digits_eq (hone : 1 < base) (n : Nat) :
    digits base n =
      if n < base then [n.digitChar] else digits base (n / base) ++ [(n % base).digitChar] :=
  Nat.toDigits_eq_if hone

/-- Every number has a digit. -/
theorem digits_ne_nil (n : Nat) : digits base n ≠ [] := Nat.toDigits_ne_nil

/-- Digits are counted from the front: those that come later start with the value of those before.
-/
theorem valueFrom_append (start : Nat) (first second : List Char) :
    valueFrom base start (first ++ second) = valueFrom base (valueFrom base start first) second :=
  List.foldl_append ..

/-- The digits of a number stand for it. -/
theorem value_digits (hone : 1 < base) (hbase : base ≤ 16) (n : Nat) :
    value base (digits base n) = n := by
  induction n using Nat.strong_induction_on with
  | h n ih =>
    rw [digits_eq hone]
    split
    · next small =>
      have hdigit : digit? n.digitChar = some n := digit?_digitChar n (by omega)
      show 0 * base + (digit? n.digitChar).getD 0 = n
      rw [hdigit, Option.getD_some]
      omega
    · next large =>
      have hless : n / base < n := Nat.div_lt_self (by omega) hone
      have hlast : n % base < base := Nat.mod_lt n (by omega)
      have hdigit : digit? (n % base).digitChar = some (n % base) := digit?_digitChar _ (by omega)
      have hfirst : valueFrom base 0 (digits base (n / base)) = n / base := ih (n / base) hless
      rw [value, valueFrom_append, hfirst]
      show n / base * base + (digit? (n % base).digitChar).getD 0 = n
      rw [hdigit, Option.getD_some, Nat.mul_comm, Nat.div_add_mod]

/-- The character of a digit below the base is a digit in that base. -/
theorem isDigit_digitChar (hbase : base ≤ 16) {n : Nat} (h : n < base) :
    isDigit base n.digitChar = true := by
  rw [isDigit, digit?_digitChar n (by omega)]
  exact decide_eq_true h

/-- A number is written in digits only. -/
theorem isDigit_of_mem_digits (hone : 1 < base) (hbase : base ≤ 16) (n : Nat) :
    ∀ c ∈ digits base n, isDigit base c = true := by
  induction n using Nat.strong_induction_on with
  | h n ih =>
    rw [digits_eq hone]
    split
    · next small =>
      intro c hc
      rw [List.mem_singleton.mp hc]
      exact isDigit_digitChar hbase small
    · next large =>
      have hless : n / base < n := Nat.div_lt_self (by omega) hone
      have hlast : n % base < base := Nat.mod_lt n (by omega)
      intro c hc
      rcases List.mem_append.mp hc with hfirst | hc
      · exact ih (n / base) hless c hfirst
      · rw [List.mem_singleton.mp hc]
        exact isDigit_digitChar hbase hlast

/-- Only the digit zero is written as one. -/
theorem digitChar_ne_zero : ∀ n < 16, n ≠ 0 → n.digitChar ≠ '0' := by
  decide

/-- Only zero itself begins with a zero. -/
theorem head?_digits (hone : 1 < base) (hbase : base ≤ 16) {n : Nat} (hn : n ≠ 0) :
    (digits base n).head? ≠ some '0' := by
  induction n using Nat.strong_induction_on with
  | h n ih =>
    rw [digits_eq hone]
    split
    · next small =>
      rw [List.head?_cons]
      exact fun same => digitChar_ne_zero n (by omega) hn (Option.some.inj same)
    · next large =>
      have hless : n / base < n := Nat.div_lt_self (by omega) hone
      have hpos : 0 < n / base := Nat.div_pos (by omega) (by omega)
      obtain ⟨c, later, hfirst⟩ := List.exists_cons_of_ne_nil
        (digits_ne_nil (n / base) : digits base (n / base) ≠ [])
      have hhead := ih (n / base) hless (by omega)
      rw [hfirst] at hhead ⊢
      exact hhead

/-- No digit comes next. -/
def EndsDigits (base : Nat) (rest : List Char) : Prop :=
  ∀ c ∈ rest.head?, isDigit base c = false

/-- No digit comes next where nothing does. -/
theorem endsDigits_nil : EndsDigits base [] := by
  rintro _ ⟨⟩

/-- No digit comes next where another character does. -/
theorem endsDigits_cons {c : Char} (h : isDigit base c = false) (rest : List Char) :
    EndsDigits base (c :: rest) := by
  rintro _ ⟨⟩
  exact h

/-- What is no digit of a base is none of a smaller one. -/
theorem EndsDigits.mono {rest : List Char} (h : EndsDigits base rest) {smaller : Nat}
    (hle : smaller ≤ base) : EndsDigits smaller rest := by
  intro c hc
  have hnone := h c hc
  unfold isDigit at hnone ⊢
  cases hdigit : digit? c with
  | none => rfl
  | some d =>
    simp only [hdigit, decide_eq_false_iff_not] at hnone ⊢
    omega

/-- The digits of a number are told from what follows them, if no digit does. -/
theorem takeWhile_digits (hone : 1 < base) (hbase : base ≤ 16) (n : Nat) {rest : List Char}
    (ends : EndsDigits base rest) :
    (digits base n ++ rest).takeWhile (isDigit base) = digits base n ∧
      (digits base n ++ rest).dropWhile (isDigit base) = rest := by
  have hall := isDigit_of_mem_digits hone hbase n
  have hnone : rest.takeWhile (isDigit base) = [] ∧ rest.dropWhile (isDigit base) = rest := by
    cases rest with
    | nil => exact ⟨rfl, rfl⟩
    | cons c rest =>
      have hc := ends c rfl
      simp [hc]
  rw [List.takeWhile_append_of_pos hall, List.dropWhile_append_of_pos hall, hnone.1, hnone.2,
    List.append_nil]
  exact ⟨rfl, rfl⟩

end Base

end PongFixture.Numeral
