/-! Decimal digits: the number that a run of them stands for, and the run that writes a number. -/
namespace Lifecycle.Decimal

abbrev tenTo (k : Nat) : Nat :=
  Nat.pow 10 k

abbrev twoTo (k : Nat) : Nat :=
  Nat.pow 2 k

def isDigit (c : Char) : Bool :=
  '0' ≤ c && c ≤ '9'

def digitValue (c : Char) : Nat :=
  c.toNat - '0'.toNat

def value (digits : List Char) : Nat :=
  digits.foldl (fun n c => 10 * n + digitValue c) 0

def digits (n : Nat) : List Char :=
  if n < 10 then [Nat.digitChar n] else digits (n / 10) ++ [Nat.digitChar (n % 10)]

def signed (n : Int) : List Char :=
  if n < 0 then '-' :: digits n.natAbs else digits n.natAbs

private theorem digitValue_digitChar {d : Nat} (h : d < 10) : digitValue (Nat.digitChar d) = d := by
  have : ∀ d < 10, digitValue (Nat.digitChar d) = d := by decide
  exact this d h

/-- The character of a digit is read as one. -/
theorem isDigit_digitChar {d : Nat} (h : d < 10) : isDigit (Nat.digitChar d) = true := by
  have : ∀ d < 10, isDigit (Nat.digitChar d) = true := by decide
  exact this d h

/-- One more digit makes ten times as much, and the digit. -/
theorem value_append_singleton (ds : List Char) (c : Char) :
    value (ds ++ [c]) = 10 * value ds + digitValue c := by
  simp [value, List.foldl_append]

/-- The digits of a number stand for it. -/
theorem value_digits (n : Nat) : value (digits n) = n := by
  induction n using digits.induct with
  | case1 n h => simp [digits, h, value, digitValue_digitChar h]
  | case2 n h ih =>
    rw [digits, if_neg h, value_append_singleton, ih, digitValue_digitChar (by omega)]
    omega

/-- Nothing but digits occurs in the digits of a number. -/
theorem isDigit_of_mem_digits {n : Nat} {c : Char} (h : c ∈ digits n) : isDigit c = true := by
  induction n using digits.induct with
  | case1 n hn =>
    rw [digits, if_pos hn, List.mem_singleton] at h
    exact h ▸ isDigit_digitChar hn
  | case2 n hn ih =>
    rw [digits, if_neg hn, List.mem_append, List.mem_singleton] at h
    rcases h with h | h
    · exact ih h
    · exact h ▸ isDigit_digitChar (by omega)

/-- Every number has a digit. -/
theorem digits_ne_nil (n : Nat) : digits n ≠ [] := by
  rw [digits]; split <;> simp

end Lifecycle.Decimal
