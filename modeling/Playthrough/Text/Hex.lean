/-!
# Hexadecimal digits

Numbers written with a fixed count of lower case hexadecimal digits, and read back
in either case.
-/

namespace Playthrough.Text.Hex

def digit (n : Nat) : Char := Nat.digitChar (n % 16)

def digits : Nat → Nat → List Char
  | 0, _ => []
  | width + 1, n => digits width (n / 16) ++ [digit n]

def value? (c : Char) : Option Nat :=
  if '0' ≤ c ∧ c ≤ '9' then some (c.toNat - '0'.toNat)
  else if 'a' ≤ c ∧ c ≤ 'f' then some (c.toNat - 'a'.toNat + 10)
  else if 'A' ≤ c ∧ c ≤ 'F' then some (c.toNat - 'A'.toNat + 10)
  else none

def read? (cs : List Char) : Option Nat :=
  cs.foldlM (fun n c => (value? c).map (16 * n + ·)) 0

theorem value?_digit (n : Nat) : value? (digit n) = some (n % 16) := by
  have h : n % 16 < 16 := Nat.mod_lt _ (by omega)
  have hall : ∀ k : Fin 16, value? (Nat.digitChar k.1) = some k.1 := by decide
  exact hall ⟨n % 16, h⟩

@[simp] theorem read?_digits_zero (n : Nat) : read? (digits 0 n) = some 0 := rfl

@[simp] theorem read?_digits_succ (width n : Nat) :
    read? (digits (width + 1) n) =
      (read? (digits width (n / 16))).map fun high => 16 * high + n % 16 := by
  unfold read?
  rw [digits, List.foldlM_append]
  simp only [List.foldlM_cons, List.foldlM_nil, value?_digit, Option.map_some]
  cases List.foldlM (fun n c => (value? c).map (16 * n + ·)) 0 (digits width (n / 16)) <;> rfl

end Playthrough.Text.Hex
