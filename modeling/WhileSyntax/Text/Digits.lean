namespace WhileSyntax.Text

/-! # Numbers in digits

Listings name handles by decimal numbers, quoted texts and TOML give code points by hexadecimal
ones, and TOML has numbers in several bases. One reading of digits serves them all. A number that
`Nat.toDigits` wrote is read as it was (`hexNumber?_toDigits`, `numberOf_toDigits`), and no other
character is among its digits.
-/

/-- The number that a hexadecimal digit stands for. -/
def hexDigit? (c : Char) : Option Nat :=
  if c.isDigit then some (c.toNat - '0'.toNat)
  else if 'a' ≤ c && c ≤ 'f' then some (c.toNat - 'a'.toNat + 10)
  else if 'A' ≤ c && c ≤ 'F' then some (c.toNat - 'A'.toNat + 10)
  else none

def hexNumber? (digits : List Char) : Option Nat :=
  digits.foldlM (fun n c => (hexDigit? c).map (16 * n + ·)) 0

/-- Whether the character is a digit in the given base. -/
def isDigitOf (base : Nat) (c : Char) : Bool :=
  match hexDigit? c with
  | some n => n < base
  | none => false

/-- The number written by digits in the given base. -/
def numberOf (base : Nat) (digits : List Char) : Nat :=
  digits.foldl (fun n c => base * n + (hexDigit? c).getD 0) 0

/-! ## Hexadecimal numbers read back -/

/-- Each digit is read as the number that it was written for. -/
theorem hexDigit?_digitChar : ∀ d < 16, hexDigit? (Nat.digitChar d) = some d := by
  decide

/-- A number is read as it was written. -/
theorem hexNumber?_toDigits (n : Nat) : hexNumber? (Nat.toDigits 16 n) = some n := by
  induction n using Nat.strongRecOn with
  | ind n ih =>
    by_cases hn : n < 16
    · rw [Nat.toDigits_of_lt_base hn]
      simp [hexNumber?, hexDigit?_digitChar n hn]
    · -- all digits but the last are those of the quotient
      have hshorter : n / 16 < n := by omega
      have hlast : n % 16 < 16 := Nat.mod_lt n (by decide)
      have hread := ih (n / 16) hshorter
      unfold hexNumber? at hread ⊢
      rw [Nat.toDigits_of_base_le (by decide) (Nat.le_of_not_lt hn), List.foldlM_append, hread]
      simp [hexDigit?_digitChar _ hlast, Nat.div_add_mod]

theorem hexDigit?_isSome_of_mem_toDigits {n : Nat} {c : Char} (hc : c ∈ Nat.toDigits 16 n) :
    (hexDigit? c).isSome := by
  induction n using Nat.strongRecOn with
  | ind n ih =>
    by_cases hn : n < 16
    · rw [Nat.toDigits_of_lt_base hn, List.mem_singleton] at hc
      rw [hc, hexDigit?_digitChar n hn]
      rfl
    · rw [Nat.toDigits_of_base_le (by decide) (Nat.le_of_not_lt hn), List.mem_append,
        List.mem_singleton] at hc
      rcases hc with hc | rfl
      · exact ih (n / 16) (by omega) hc
      · rw [hexDigit?_digitChar _ (Nat.mod_lt n (by decide))]
        rfl

/-! ## Decimal numbers read back -/

theorem hexDigit?_of_isDigit {c : Char} (h : c.isDigit = true) :
    hexDigit? c = some (c.toNat - '0'.toNat) := by
  rw [hexDigit?, if_pos h]

theorem isDigit_of_mem_toDigits {n : Nat} {c : Char} (hc : c ∈ Nat.toDigits 10 n) :
    c.isDigit = true :=
  Nat.isDigit_of_mem_toDigits (by decide) (by decide) hc

theorem notMem_toDigits {n : Nat} {c : Char} (h : c.isDigit = false) :
    c ∉ Nat.toDigits 10 n := by
  intro hmem
  rw [isDigit_of_mem_toDigits hmem] at h
  cases h

theorem numberOf_toDigits (n : Nat) : numberOf 10 (Nat.toDigits 10 n) = n := by
  -- on decimal digits this is the library's reading, with any number read before
  have hfold : ∀ (cs : List Char) (m : Nat), (∀ c ∈ cs, c.isDigit = true) →
      cs.foldl (fun n c => 10 * n + (hexDigit? c).getD 0) m = Nat.ofDigitChars 10 cs m := by
    intro cs
    induction cs with
    | nil => exact fun m _ => rfl
    | cons c cs ih =>
      intro m hcs
      rw [List.forall_mem_cons] at hcs
      rw [List.foldl_cons, ih _ hcs.2, hexDigit?_of_isDigit hcs.1]
      rfl
  rw [numberOf, hfold _ _ (fun c hc => isDigit_of_mem_toDigits hc)]
  exact Nat.ofDigitChars_toDigits (by decide) (by decide)

end WhileSyntax.Text
