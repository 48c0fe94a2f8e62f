/-!
# Binary64 numbers

Double-precision numbers as exact data, with the arithmetic that rounds every exact result to the
nearest number and sends a tie to the even neighbour.

A *grain* is `2 ^ -1074`, the least positive magnitude. Every finite number is a whole number of
grains, so sums, products and remainders are computed on integers and rounded once. The finite
magnitudes are numbered upward from zero by their *rank*; the rank is also the low 63 bits of the
interchange encoding.
-/

namespace CssColor

/-- A binary64 number. All NaNs are one value, and the two zeros are the two signs of rank zero. -/
inductive Binary64 where
  /-- Not a number. -/
  | nan
  /-- An infinity. -/
  | infinite (negative : Bool)
  /-- A finite number, by its sign and the rank of its magnitude. -/
  | finite (negative : Bool) (rank : Fin (2047 * Nat.pow 2 52))
  deriving DecidableEq, Repr

/-- Whether the number is neither an infinity nor NaN. -/
def Binary64.isFinite : Binary64 → Bool
  | finite _ _ => true
  | _ => false

/-- The quotient `n / d` rounded to the nearest integer, a tie going to the even neighbour. -/
def nearestQuotient (n d : Nat) : Nat :=
  let q := n / d
  let r := n % d
  if 2 * r < d ∨ (2 * r = d ∧ q % 2 = 0) then q else q + 1

/-- The rounded quotient lies at most one half above the exact one. -/
theorem two_mul_nearestQuotient_le (n d : Nat) :
    2 * (d * nearestQuotient n d) ≤ 2 * n + d := by
  have hn := Nat.div_add_mod n d
  unfold nearestQuotient
  dsimp only
  split
  · omega
  · rw [Nat.mul_add]
    omega

/-- The rounded quotient lies at most one half below the exact one. -/
theorem two_mul_le_nearestQuotient (n : Nat) {d : Nat} (hd : 0 < d) :
    2 * n ≤ 2 * (d * nearestQuotient n d) + d := by
  have hn := Nat.div_add_mod n d
  have hr := Nat.mod_lt n hd
  unfold nearestQuotient
  dsimp only
  split
  · omega
  · rw [Nat.mul_add]
    omega

/-- An integer is its own rounded quotient by one. -/
@[simp] theorem nearestQuotient_one (n : Nat) : nearestQuotient n 1 = n := by
  simp [nearestQuotient, Nat.mod_one]

namespace Binary64

/-- The number of grains in the number one. -/
@[irreducible] def grainsPerOne : Nat := Nat.pow 2 1074

/-- The magnitude of the given rank, in grains. The first `2 ^ 52` ranks lie one grain apart; from
then on the spacing doubles every `2 ^ 52` ranks. -/
def grainsOfRank (rank : Nat) : Nat :=
  if rank < Nat.pow 2 52 then rank
  else (Nat.pow 2 52 + rank % Nat.pow 2 52) * Nat.pow 2 (rank / Nat.pow 2 52 - 1)

/-- The rank nearest to `n / d` grains, a tie going to the even rank. Ranks beyond the largest
finite one stand for overflow. -/
def nearestRank (n d : Nat) : Nat :=
  let e := (n / d).log2 - 52
  e * Nat.pow 2 52 + nearestQuotient n (d * Nat.pow 2 e)

/-- The number nearest to a magnitude of `n / d` grains under the given sign. -/
def ofGrainRatio (negative : Bool) (n d : Nat) : Binary64 :=
  let rank := nearestRank n d
  if h : rank < 2047 * Nat.pow 2 52 then finite negative ⟨rank, h⟩ else infinite negative

/-- The number nearest to `n / d` under the given sign. -/
def ofRatio (negative : Bool) (n d : Nat) : Binary64 :=
  ofGrainRatio negative (n * grainsPerOne) d

/-- The zero of the given sign. -/
def zero (negative : Bool) : Binary64 := finite negative ⟨0, by decide⟩

/-- The number nearest to a signed count of grains; a count of zero takes the given sign. -/
def ofGrains (zeroNegative : Bool) (grains : Int) : Binary64 :=
  if grains = 0 then zero zeroNegative else ofGrainRatio (decide (grains < 0)) grains.natAbs 1

/-- The number nearest to an integer, infinite when the integer is too large. -/
def ofInt (n : Int) : Binary64 := ofRatio (decide (n < 0)) n.natAbs 1

/-- One half. -/
def half : Binary64 := ofRatio false 1 2

/-- The signed count of grains of the number with the given sign and rank. -/
def signedGrains (negative : Bool) (rank : Nat) : Int :=
  if negative then -(grainsOfRank rank : Int) else grainsOfRank rank

/-- Whether the number is one of the two zeros. -/
def isZero : Binary64 → Bool
  | finite _ rank => rank.val == 0
  | _ => false

/-- The number with the opposite sign. -/
def neg : Binary64 → Binary64
  | nan => nan
  | infinite s => infinite (!s)
  | finite s rank => finite (!s) rank

@[simp] theorem neg_neg (x : Binary64) : neg (neg x) = x := by
  cases x <;> simp [neg]

/-- The rounded sum. Opposite infinities have no sum, and an exact zero is negative only when both
summands are negative zeros. -/
def add : Binary64 → Binary64 → Binary64
  | nan, _ => nan
  | _, nan => nan
  | infinite s, infinite t => if s = t then infinite s else nan
  | infinite s, finite _ _ => infinite s
  | finite _ _, infinite t => infinite t
  | finite s a, finite t b => ofGrains (s && t) (signedGrains s a + signedGrains t b)

/-- The rounded difference. -/
def sub (x y : Binary64) : Binary64 := add x (neg y)

/-- The rounded product. A zero and an infinity have no product. -/
def mul : Binary64 → Binary64 → Binary64
  | nan, _ => nan
  | _, nan => nan
  | infinite s, infinite t => infinite (s ^^ t)
  | infinite s, finite t b => if b.val = 0 then nan else infinite (s ^^ t)
  | finite s a, infinite t => if a.val = 0 then nan else infinite (s ^^ t)
  | finite s a, finite t b =>
    ofGrainRatio (s ^^ t) (grainsOfRank a * grainsOfRank b) grainsPerOne

/-- The rounded quotient. Two zeros or two infinities have no quotient, and a zero divisor makes
any other quotient infinite. -/
def div : Binary64 → Binary64 → Binary64
  | nan, _ => nan
  | _, nan => nan
  | infinite _, infinite _ => nan
  | infinite s, finite t _ => infinite (s ^^ t)
  | finite s _, infinite t => zero (s ^^ t)
  | finite s a, finite t b =>
    if b.val = 0 then
      if a.val = 0 then nan else infinite (s ^^ t)
    else ofRatio (s ^^ t) (grainsOfRank a) (grainsOfRank b)

/-- The remainder modulo a positive integer, from zero up to the modulus. An exact remainder of a
negative number may round up to the modulus itself. -/
def mod (x : Binary64) (modulus : Nat) : Binary64 :=
  match x with
  | finite negative rank =>
    ofGrains false (signedGrains negative rank % (modulus * grainsPerOne : Nat))
  | _ => nan

/-- The 64-bit interchange encoding; a NaN has no encoding of its own. -/
def bits? : Binary64 → Option Nat
  | nan => none
  | infinite negative => some (negative.toNat * Nat.pow 2 63 + 2047 * Nat.pow 2 52)
  | finite negative rank => some (negative.toNat * Nat.pow 2 63 + rank)

end Binary64

end CssColor
