import CssColor.Number.Binary64

/-!
# Numbers

A number is an exact integer of any size or a binary64 number. Integers stay exact among
themselves; next to a binary64 number they are first rounded to the nearest one. Comparison never
rounds.

* `Number.compare?` compares exact values and is `none` on a NaN.
* `Number.clamp` keeps the chosen number as it is, integer or binary64.
* `Number.roundHalfUp` is the floor of the number plus one half.
-/

namespace CssColor

/-- Why a numeric computation has no result. -/
inductive NumericError where
  /-- A text is no numeral of the expected form. -/
  | malformedNumeral
  /-- An integer is asked of a NaN. -/
  | notANumber
  /-- An integer is asked of an infinity, or a number is too large for binary64. -/
  | overflow
  /-- A divisor is zero. -/
  | divisionByZero
  deriving DecidableEq, Repr

/-- An exact integer or a binary64 number. -/
inductive Number where
  /-- An exact integer. -/
  | int (value : Int)
  /-- A binary64 number. -/
  | float (value : Binary64)
  deriving DecidableEq, Repr

/-- A place on the number line with both infinities, measured in grains. -/
inductive Place where
  /-- Below every finite number. -/
  | bottom
  /-- A finite number of grains. -/
  | point (grains : Int)
  /-- Above every finite number. -/
  | top
  deriving DecidableEq, Repr

/-- The order of two places. -/
def Place.compare : Place → Place → Ordering
  | bottom, bottom => .eq
  | bottom, _ => .lt
  | _, bottom => .gt
  | top, top => .eq
  | top, _ => .gt
  | _, top => .lt
  | point a, point b => Ord.compare a b

namespace Number

/-- Numerals stand for exact integers. -/
instance instOfNat (n : Nat) : OfNat Number n := ⟨int n⟩

/-- Where the exact value of a number lies; a NaN lies nowhere. -/
def place? : Number → Option Place
  | int n => some (.point (n * Binary64.grainsPerOne))
  | float .nan => none
  | float (.infinite negative) => some (if negative then .bottom else .top)
  | float (.finite negative rank) => some (.point (Binary64.signedGrains negative rank))

/-- The order of the exact values of two numbers, unless one is a NaN. -/
def compare? (x y : Number) : Option Ordering := do
  return (← x.place?).compare (← y.place?)

/-- Whether the first number is smaller than the second. -/
def lt (x y : Number) : Bool := x.compare? y == some .lt

/-- Whether the first number is at most the second. -/
def le (x y : Number) : Bool := x.compare? y == some .lt || x.compare? y == some .eq

/-- Whether two numbers have the same value. Both zeros have the same value; a NaN has none. -/
def sameValue (x y : Number) : Bool := x.compare? y == some .eq

/-- The smaller of two numbers, the first one unless the second is smaller. -/
def min (x y : Number) : Number := if y.lt x then y else x

/-- The larger of two numbers, the first one unless the second is larger. -/
def max (x y : Number) : Number := if x.lt y then y else x

/-- The number moved between two bounds. A NaN is moved to the upper bound. -/
def clamp (x lo hi : Number) : Number := lo.max (hi.min x)

/-- A finite or NaN result of an integer operation, an overflow when it became infinite. -/
def fromRounding : Binary64 → Except NumericError Binary64
  | .infinite _ => throw .overflow
  | x => pure x

/-- The number as a binary64 number; an integer goes to the nearest one unless it is too large. -/
def toBinary64 : Number → Except NumericError Binary64
  | int n => fromRounding (Binary64.ofInt n)
  | float x => pure x

/-- An operation that is exact on two integers and rounds otherwise. -/
def combine (exact : Int → Int → Int) (rounded : Binary64 → Binary64 → Binary64) :
    Number → Number → Except NumericError Number
  | int a, int b => pure (int (exact a b))
  | x, y => do
    let a ← x.toBinary64
    let b ← y.toBinary64
    return float (rounded a b)

/-- The sum. -/
def add : Number → Number → Except NumericError Number := combine (· + ·) Binary64.add

/-- The difference. -/
def sub : Number → Number → Except NumericError Number := combine (· - ·) Binary64.sub

/-- The product. -/
def mul : Number → Number → Except NumericError Number := combine (· * ·) Binary64.mul

/-- The quotient, always binary64. Two integers give the number nearest to their exact quotient. -/
def div : Number → Number → Except NumericError Binary64
  | int a, int b =>
    if b = 0 then throw .divisionByZero
    else fromRounding (Binary64.ofRatio (decide (a < 0) ^^ decide (b < 0)) a.natAbs b.natAbs)
  | x, y => do
    let a ← x.toBinary64
    let b ← y.toBinary64
    if b.isZero then throw .divisionByZero else return a.div b

/-- The remainder modulo a positive integer, never negative. -/
def mod (x : Number) (modulus : Nat) : Number :=
  match x with
  | int n => int (n % modulus)
  | float f => float (f.mod modulus)

/-- The greatest integer that is at most the number. -/
def floor : Number → Except NumericError Int
  | int n => pure n
  | float .nan => throw .notANumber
  | float (.infinite _) => throw .overflow
  | float (.finite negative rank) =>
    pure ((Binary64.signedGrains negative rank).fdiv Binary64.grainsPerOne)

/-- The integer part of the number, rounded toward zero. -/
def truncate : Number → Except NumericError Int
  | int n => pure n
  | float .nan => throw .notANumber
  | float (.infinite _) => throw .overflow
  | float (.finite negative rank) =>
    pure ((Binary64.signedGrains negative rank).tdiv Binary64.grainsPerOne)

/-- The floor of the number plus one half. The sum is rounded to binary64 before its floor is
taken. -/
def roundHalfUp (x : Number) : Except NumericError Int := do
  (← x.add (float Binary64.half)).floor

end Number

end CssColor
