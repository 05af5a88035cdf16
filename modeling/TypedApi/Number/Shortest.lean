import TypedApi.Number.Binary64

/-! # The shortest decimal of a number

The fewest digits that read back as the number, and of the decimals with that many digits the
nearest. A candidate for `n` digits is one of the two neighbours of the number on the grid of
decimals with `n` digits, so that only those are tested.
-/
namespace TypedApi.Binary64

/-- The `k` with `10 ^ (k - 1) ≤ num / den < 10 ^ k`, of a positive fraction. -/
def decimalPoint (num den : Nat) : Int :=
  if den ≤ num then decimalLength (num / den)
  else
    let size := decimalLength (den / num)
    if num * tenTo (size - 1) == den then 2 - size else 1 - size

/-- The decimal with `n` digits that reads back as `code`, if there is one. -/
def decimalWith? (code n : Nat) : Option (Nat × Int) :=
  let (num, den) := ratio code
  let exponent := decimalPoint num den - n
  let scaledNum := if 0 ≤ exponent then num else num * tenTo (-exponent).toNat
  let scaledDen := if 0 ≤ exponent then den * tenTo exponent.toNat else den
  let below := scaledNum / scaledDen
  let readsBack (digits : Nat) : Bool :=
    ofDecimal false digits exponent == finite false code
  if readsBack below && readsBack (below + 1) then
    some (roundHalfEven scaledNum scaledDen, exponent)
  else if readsBack below then some (below, exponent)
  else if readsBack (below + 1) then some (below + 1, exponent)
  else none

/-- Digits and exponent of the shortest decimal of a positive magnitude code. -/
def shortest (code : Nat) : Nat × Int :=
  ((List.range 17).findSome? fun n => decimalWith? code (n + 1)).getD (0, 0)

/-- `digits` without the zeros at its end, each of which raises the exponent. -/
def dropZeros (digits : List Char) (exponent : Int) : List Char × Int :=
  let zeros := digits.reverse.takeWhile (· == '0')
  (digits.take (digits.length - zeros.length), exponent + zeros.length)

/-- A magnitude in decimal: positional from 10⁻⁴ below 10¹⁶ with at least one digit after the
point, else with an exponent of at least two digits. -/
def magnitudeText (code : Nat) : List Char :=
  if code == 0 then ['0', '.', '0'] else
    let (value, scale) := shortest code
    let (digits, exponent) := dropZeros (Nat.toDigits 10 value) scale
    let size : Int := digits.length
    let point := exponent + size
    if -4 < point && point ≤ 16 then
      if point ≤ 0 then '0' :: '.' :: (List.replicate (-point).toNat '0' ++ digits)
      else if point < size then
        digits.take point.toNat ++ '.' :: digits.drop point.toNat
      else digits ++ List.replicate (point - size).toNat '0' ++ ['.', '0']
    else
      let lead := digits.take 1
      let fraction := digits.drop 1
      let power := point - 1
      let powerDigits := Nat.toDigits 10 power.natAbs
      lead ++ (if fraction.isEmpty then [] else '.' :: fraction)
        ++ 'e' :: (if power < 0 then '-' else '+')
        :: (List.replicate (2 - powerDigits.length) '0' ++ powerDigits)

/-- A number in decimal. -/
def text : Binary64 → String
  | finite negative code => .ofList (if negative then '-' :: magnitudeText code else magnitudeText code)
  | infinite false => "inf"
  | infinite true => "-inf"
  | nan => "nan"

end TypedApi.Binary64
