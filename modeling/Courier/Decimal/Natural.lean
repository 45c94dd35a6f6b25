/-!
# Whole numbers in base ten and sixteen

Digits of a number, most significant first, and the number that digits denote. Main statement:
`ofDigits_digits`, what is written reads back.
-/

namespace Courier.Decimal

def twoTo (n : Nat) : Nat := Nat.pow 2 n

def tenTo (n : Nat) : Nat := Nat.pow 10 n

def digitChar (d : Nat) : Char :=
  if d < 10 then Char.ofNat (48 + d) else Char.ofNat (87 + d)

/-- The digits of `n` in base ten, none for zero, before digits already written. -/
def digitsOnto (n : Nat) (done : List Char) : List Char :=
  if h : n < 10 then digitChar n :: done
  else digitsOnto (n / 10) (digitChar (n % 10) :: done)

def digits (n : Nat) : List Char := digitsOnto n []

def integer (i : Int) : List Char :=
  if i < 0 then '-' :: digits i.natAbs else digits i.natAbs

def numeral (n : Nat) : String := String.ofList (digits n)

def hexDigitsOnto (n : Nat) (done : List Char) : List Char :=
  if h : n < 16 then digitChar n :: done
  else hexDigitsOnto (n / 16) (digitChar (n % 16) :: done)

def hexDigits (n : Nat) : List Char := hexDigitsOnto n []

def digitValue? (c : Char) : Option Nat :=
  if '0' ≤ c ∧ c ≤ '9' then some (c.toNat - 48) else none

def hexValue? (c : Char) : Option Nat :=
  if '0' ≤ c ∧ c ≤ '9' then some (c.toNat - 48)
  else if 'a' ≤ c ∧ c ≤ 'f' then some (c.toNat - 87)
  else if 'A' ≤ c ∧ c ≤ 'F' then some (c.toNat - 55)
  else none

/-- The number that digits denote after a number already read; `none` if one is no digit. -/
def ofDigitsAfter? : Nat → List Char → Option Nat
  | n, [] => some n
  | n, c :: cs => (digitValue? c).bind fun d => ofDigitsAfter? (n * 10 + d) cs

def ofDigits? (cs : List Char) : Option Nat :=
  if cs.isEmpty then none else ofDigitsAfter? 0 cs

/-! ## What is written reads back -/

theorem digitValue?_digitChar {d : Nat} (h : d < 10) : digitValue? (digitChar d) = some d := by
  match d, h with
  | 0, _ | 1, _ | 2, _ | 3, _ | 4, _ | 5, _ | 6, _ | 7, _ | 8, _ | 9, _ => decide
  | _ + 10, h => exact absurd h (by omega)

theorem digitsOnto_ne_nil (n : Nat) (done : List Char) : digitsOnto n done ≠ [] := by
  fun_induction digitsOnto n done with
  | case1 => simp
  | case2 _ _ _ ih => exact ih

theorem digitsOnto_append (n : Nat) (done : List Char) :
    digitsOnto n done = digitsOnto n [] ++ done := by
  induction n using Nat.strongRecOn generalizing done with
  | _ n ih =>
    by_cases h : n < 10
    · rw [digitsOnto, dif_pos h, digitsOnto, dif_pos h]; rfl
    · have hstep : ∀ done', digitsOnto n done'
          = digitsOnto (n / 10) [] ++ digitChar (n % 10) :: done' := fun done' => by
        rw [digitsOnto, dif_neg h, ih (n / 10) (by omega)]
      rw [hstep, hstep]
      simp

theorem ofDigitsAfter?_append (n : Nat) (cs ds : List Char) :
    ofDigitsAfter? n (cs ++ ds) = (ofDigitsAfter? n cs).bind (ofDigitsAfter? · ds) := by
  induction cs generalizing n with
  | nil => simp [ofDigitsAfter?]
  | cons c cs ih =>
      simp only [List.cons_append, ofDigitsAfter?, ih]
      cases digitValue? c <;> simp

theorem ofDigitsAfter?_digits (n : Nat) : ofDigitsAfter? 0 (digits n) = some n := by
  unfold digits
  induction n using Nat.strongRecOn with
  | _ n ih =>
    by_cases h : n < 10
    · rw [digitsOnto, dif_pos h]
      simp [ofDigitsAfter?, digitValue?_digitChar h]
    · rw [digitsOnto, dif_neg h, digitsOnto_append, ofDigitsAfter?_append,
        ih (n / 10) (by omega)]
      have hd : n % 10 < 10 := by omega
      simp only [Option.bind_some, ofDigitsAfter?, digitValue?_digitChar hd, Option.some.injEq]
      omega

theorem ofDigits_digits (n : Nat) : ofDigits? (digits n) = some n := by
  have h : (digits n).isEmpty = false := by
    simpa [digits] using digitsOnto_ne_nil n []
  simp [ofDigits?, h, ofDigitsAfter?_digits]

end Courier.Decimal
