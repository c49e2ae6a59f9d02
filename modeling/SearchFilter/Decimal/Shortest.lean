import SearchFilter.Text.Basic

/-! # Shortest decimals

A binary floating-point number stands for all the reals that round to it.  Its shortest decimal
is the multiple of a power of ten, for the greatest power possible, among these reals; of two
multiples the nearer one, and of two equally near ones the even one.  All comparisons are between
natural numbers, so nothing is rounded on the way. -/

namespace SearchFilter

/-- The number `digits * 10 ^ exponent`. -/
structure Decimal where
  digits : Nat
  exponent : Int
  deriving DecidableEq, Repr

/-- A positive binary number `mantissa * 2 ^ exponent`. -/
structure BinaryNumber where
  mantissa : Nat
  exponent : Int
  /-- The next smaller number is half as far away as the next greater one. -/
  narrowBelow : Bool

namespace BinaryNumber

/-- The size of a finite number in the 64-bit format. -/
def ofFloat (x : Float) : BinaryNumber :=
  let bits := x.toBits.toNat
  let exponent : Nat := bits / Nat.pow 2 52 % Nat.pow 2 11
  let fraction := bits % Nat.pow 2 52
  if exponent = 0 then ⟨fraction, -1074, false⟩
  else ⟨Nat.pow 2 52 + fraction, (exponent : Int) - 1075, fraction = 0 && 1 < exponent⟩

/-- A multiple of `10 ^ grid` that rounds to the number, if one of the two next to it does. -/
def onGrid? (x : BinaryNumber) (grid : Int) : Option Decimal :=
  -- In quarters of the last binary place, both sides scaled to whole numbers.
  let left := Nat.pow 2 (x.exponent - 2).toNat * Nat.pow 10 (-grid).toNat
  let right := Nat.pow 2 (2 - x.exponent).toNat * Nat.pow 10 grid.toNat
  let value := 4 * x.mantissa * left
  let least := (4 * x.mantissa - if x.narrowBelow then 1 else 2) * left
  let greatest := (4 * x.mantissa + 2) * left
  let reads (d : Nat) : Bool :=
    if x.mantissa % 2 = 0 then least ≤ d * right && d * right ≤ greatest
    else least < d * right && d * right < greatest
  let below := value / right
  let above := below + 1
  match reads below, reads above with
  | false, false => none
  | true, false => some ⟨below, grid⟩
  | false, true => some ⟨above, grid⟩
  | true, true =>
    match compare (2 * value) ((below + above) * right) with
    | .lt => some ⟨below, grid⟩
    | .gt => some ⟨above, grid⟩
    | .eq => some ⟨if below % 2 = 0 then below else above, grid⟩

/-- The shortest decimal that rounds to the number.  No number of the format reaches `10 ^ 309`,
and the least one, about `5 * 10 ^ -324`, is found on the last grid. -/
def shortest (x : BinaryNumber) : Decimal :=
  ((List.range 634).findSome? fun (i : Nat) => x.onGrid? (309 - i)).getD ⟨0, 0⟩

end BinaryNumber
end SearchFilter
