/-!
# Hexadecimal text

Fixed-width lowercase hexadecimal, as identifiers and tags are printed, and its reader, which takes
either case.

Main statement: `ofDigits?_digits`, reading fixed-width digits back gives the number modulo the
width.
-/

namespace Vswitch.Hex

/-- The lowercase digit of a value below sixteen. -/
def digit (n : Nat) : Char :=
  if n < 10 then Char.ofNat (48 + n) else Char.ofNat (87 + n)

/-- The value of a digit of either case. -/
def value? (c : Char) : Option Nat :=
  if '0' ≤ c ∧ c ≤ '9' then some (c.toNat - 48)
  else if 'a' ≤ c ∧ c ≤ 'f' then some (c.toNat - 87)
  else if 'A' ≤ c ∧ c ≤ 'F' then some (c.toNat - 55)
  else none

/-- The last `width` hexadecimal digits of `n`, most significant first. -/
def digits : (width n : Nat) → List Char
  | 0, _ => []
  | width + 1, n => digits width (n / 16) ++ [digit (n % 16)]

/-- Appends one digit to a number read so far. -/
def push? (n : Nat) (c : Char) : Option Nat :=
  (value? c).map (16 * n + ·)

/-- The number that a string of digits spells. -/
def ofDigits? (cs : List Char) : Option Nat :=
  cs.foldlM push? 0

/-- The last `width` hexadecimal digits of `n` as text. -/
def text (width n : Nat) : String :=
  String.ofList (digits width n)

/-- How many numbers `width` digits can spell. -/
def capacity : (width : Nat) → Nat
  | 0 => 1
  | width + 1 => 16 * capacity width

@[simp] theorem length_digits (width n : Nat) : (digits width n).length = width := by
  induction width generalizing n with
  | zero => rfl
  | succ width ih => simp [digits, ih]

theorem value?_digit {n : Nat} (h : n < 16) : value? (digit n) = some n := by
  have all : ∀ k : Fin 16, value? (digit k) = some k.val := by decide
  exact all ⟨n, h⟩

/-- Reading the digits of a number gives it back modulo the capacity of `width` digits. -/
theorem ofDigits?_digits (width n : Nat) :
    ofDigits? (digits width n) = some (n % capacity width) := by
  induction width generalizing n with
  | zero => simp [digits, ofDigits?, capacity, Nat.mod_one]
  | succ width ih =>
    have hd : n % 16 < 16 := Nat.mod_lt _ (by decide)
    simp only [ofDigits?] at ih
    simp only [ofDigits?, digits, List.foldlM_append, ih, Option.bind_eq_bind, Option.bind_some,
      List.foldlM_cons, List.foldlM_nil, push?, value?_digit hd, Option.map_some,
      Option.pure_def, capacity, Nat.mod_mul]
    congr 1
    omega

end Vswitch.Hex
