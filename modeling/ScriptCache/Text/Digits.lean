/-!
# Digits

Digits and the numbers they denote, and the size from which on a number is beyond the range of
floating-point numbers of 64 bits.
-/

namespace ScriptCache.Text

def isDigit (c : Char) : Bool := '0' ≤ c && c ≤ '9'

def hexValue? (c : Char) : Option Nat :=
  if '0' ≤ c ∧ c ≤ '9' then some (c.toNat - 48)
  else if 'a' ≤ c ∧ c ≤ 'f' then some (c.toNat - 87)
  else if 'A' ≤ c ∧ c ≤ 'F' then some (c.toNat - 55)
  else none

/-- The digit of a number up to fifteen, in upper case. -/
def hexDigit (n : Nat) : Char := (Nat.digitChar n).toUpper

/-- The number that digits to a base up to sixteen denote. -/
def number (base : Nat) (digits : List Char) : Nat :=
  digits.foldl (fun n c ↦ n * base + (hexValue? c).getD 0) 0

def decimal (digits : List Char) : Nat := number 10 digits

/-- Numbers from here on round to infinity. -/
def overflowBound : Nat := Nat.pow 2 1024 - Nat.pow 2 970

/-- Whether `n · 10 ^ e` rounds to infinity. -/
def overflows (n : Nat) (e : Int) : Bool :=
  if n = 0 then false
  else
    let magnitude : Int := (Nat.toDigits 10 n).length + e
    if magnitude < 309 then false
    else if magnitude > 309 then true
    else if 0 ≤ e then overflowBound ≤ n * Nat.pow 10 e.toNat
    else overflowBound * Nat.pow 10 (-e).toNat ≤ n

end ScriptCache.Text
