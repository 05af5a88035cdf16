/-! # Binary floating point numbers

Numbers with a binary fraction of 53 bits. A finite one is its sign with a natural number that
orders the magnitudes: the multiples of 2⁵² in it count the binary exponent, the remainder is the
fraction. `ofRatio` rounds a fraction to the nearest of them, a tie to the even one.
-/
namespace TypedApi

/-- A number with a binary fraction of 53 bits. -/
inductive Binary64 where
  /-- The finite number of the given sign and magnitude code. -/
  | finite (negative : Bool) (code : Nat)
  /-- A number beyond every finite one. -/
  | infinite (negative : Bool)
  /-- The result of an operation that has none. -/
  | nan
deriving DecidableEq, Repr

namespace Binary64

/-- A power of two. -/
def twoTo (n : Nat) : Nat := Nat.pow 2 n

/-- A power of ten. -/
def tenTo (n : Nat) : Nat := Nat.pow 10 n

/-- The magnitude code from which on a number is infinite. -/
def codeLimit : Nat := 2047 * twoTo 52

/-- `num / den` as `m * 2 ^ q` with a natural `m`: the pair of `m` and `q`. -/
def significand (code : Nat) : Nat × Int :=
  if code < twoTo 52 then (code, -1074)
  else (twoTo 52 + code % twoTo 52, (code / twoTo 52 : Nat) - 1075)

/-- The magnitude of a code as a fraction. -/
def ratio (code : Nat) : Nat × Nat :=
  let (m, q) := significand code
  if 0 ≤ q then (m * twoTo q.toNat, 1) else (m, twoTo (-q).toNat)

/-- The nearest integer to `num / den`; the even one of two. -/
def roundHalfEven (num den : Nat) : Nat :=
  let floor := num / den
  let rest := 2 * (num % den)
  if rest < den || (rest == den && floor % 2 == 0) then floor else floor + 1

/-- The magnitude code nearest to `num / den`. -/
def codeOfRatio (num den : Nat) : Nat :=
  if num == 0 then 0 else
    let low : Int := (num.log2 : Int) - den.log2 - 53
    let above : Bool :=
      if 0 ≤ low then twoTo 53 * twoTo low.toNat * den ≤ num
      else twoTo 53 * den ≤ num * twoTo (-low).toNat
    let q := max (-1074) (if above then low + 1 else low)
    let m :=
      if 0 ≤ q then roundHalfEven num (den * twoTo q.toNat)
      else roundHalfEven (num * twoTo (-q).toNat) den
    (q + 1074).toNat * twoTo 52 + m

/-- The number of the given sign nearest to `num / den`. -/
def ofRatio (negative : Bool) (num den : Nat) : Binary64 :=
  let code := codeOfRatio num den
  if code < codeLimit then finite negative code else infinite negative

/-- The count of decimal digits of a positive number. -/
def decimalLength (n : Nat) : Nat :=
  (Nat.toDigits 10 n).length

/-- The number of the given sign nearest to `digits * 10 ^ exponent`. -/
def ofDecimal (negative : Bool) (digits : Nat) (exponent : Int) : Binary64 :=
  if digits == 0 then finite negative 0
  else
    let size : Int := exponent + decimalLength digits
    if 400 < size then infinite negative
    else if size < -400 then finite negative 0
    else if 0 ≤ exponent then ofRatio negative (digits * tenTo exponent.toNat) 1
    else ofRatio negative digits (tenTo (-exponent).toNat)

/-- The number nearest to an integer. -/
def ofInt (n : Int) : Binary64 :=
  ofRatio (n < 0) n.natAbs 1

/-- The number with the other sign. -/
def negate : Binary64 → Binary64
  | finite negative code => finite (!negative) code
  | infinite negative => infinite (!negative)
  | nan => nan

/-- The product of two numbers, rounded. -/
def times : Binary64 → Binary64 → Binary64
  | finite s a, finite t b =>
    let (n, d) := ratio a
    let (n', d') := ratio b
    ofRatio (s != t) (n * n') (d * d')
  | infinite s, infinite t => infinite (s != t)
  | infinite s, finite t b => if b == 0 then nan else infinite (s != t)
  | finite s a, infinite t => if a == 0 then nan else infinite (s != t)
  | _, _ => nan

/-- The sum of two numbers, rounded. -/
def plus : Binary64 → Binary64 → Binary64
  | finite s a, finite t b =>
    let (n, d) := ratio a
    let (n', d') := ratio b
    let sum := (if s then -(n : Int) else n) * d' + (if t then -(n' : Int) else n') * d
    ofRatio (if sum == 0 then s && t else sum < 0) sum.natAbs (d * d')
  | infinite s, infinite t => if s == t then infinite s else nan
  | infinite s, finite _ _ => infinite s
  | finite _ _, infinite t => infinite t
  | _, _ => nan

/-- The integer that a number equals. -/
def toInt? : Binary64 → Option Int
  | finite negative code =>
    let (num, den) := ratio code
    if num % den == 0 then
      some (if negative then -((num / den : Nat) : Int) else ((num / den : Nat) : Int))
    else none
  | _ => none

/-- Equality of numbers: both zeros are equal, and `nan` equals nothing. -/
def same : Binary64 → Binary64 → Bool
  | finite s a, finite t b => a == b && (s == t || a == 0)
  | infinite s, infinite t => s == t
  | _, _ => false

/-- Whether a number is a zero of either sign. -/
def isZero : Binary64 → Bool
  | finite _ code => code == 0
  | _ => false

end Binary64
end TypedApi
