import MetadataIndex.Decimal.Shortest

/-!
# Whole numbers among the doubles

A finite double is an integer multiple of a power of two, so its integral part is found exactly.
-/

set_option autoImplicit false

namespace MetadataIndex.Decimal

def isNegative (x : Float) : Bool := Nat.pow 2 63 ≤ x.toBits.toNat

/-- The integral part of the magnitude of a finite double. -/
def wholeMagnitude (x : Float) : Nat :=
  let b := Binary.ofFloat x
  b.mantissa * Binary.above 2 b.exponent / Binary.below 2 b.exponent

def truncate (x : Float) : Int :=
  if isNegative x then -(wholeMagnitude x : Int) else wholeMagnitude x

def isWhole (x : Float) : Bool :=
  let b := Binary.ofFloat x
  !x.isNaN && !x.isInf
    && b.mantissa * Binary.above 2 b.exponent % Binary.below 2 b.exponent == 0

/-- The remainder of a division toward zero, with the sign of the dividend. It is a multiple of the
lesser power of two of the two numbers, so it is found exactly. -/
def remainder (x y : Float) : Float :=
  if y == 0.0 || y.isNaN || x.isInf || x.isNaN then 0.0 / 0.0
  else if y.isInf then x
  else
    let a := Binary.ofFloat x
    let b := Binary.ofFloat y
    let unit := min a.exponent b.exponent
    let rest := (a.mantissa * Binary.above 2 (a.exponent - unit))
      % (b.mantissa * Binary.above 2 (b.exponent - unit))
    let magnitude := Float.scaleB (Float.ofNat rest) unit
    if isNegative x then -magnitude else magnitude

end MetadataIndex.Decimal
