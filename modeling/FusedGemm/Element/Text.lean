import FusedGemm.Element
import FusedGemm.Numeric.Decimal

/-!
# Elements as text
-/

namespace FusedGemm

/-- The lower-case hexadecimal digits of a number, at least `width` of them. -/
def hexText (width n : Nat) : String :=
  let digits := Nat.toDigits 16 n
  String.ofList (List.replicate (width - digits.length) '0' ++ digits)

namespace ElementType

/-- The hexadecimal code of a real number, or `nan` for a code that stands for none. -/
def partCodeText (t : ElementType) (code : Nat) : String :=
  if t.decodePart code = .nan then "nan" else hexText (t.partBits / 4) code

/-- The hexadecimal code of an element; the two parts of a complex one stand on either side of a
comma. -/
def codeText (t : ElementType) (code : Code t) : String :=
  if t.isComplex then
    t.partCodeText (code.toNat % 2 ^ t.partBits) ++ "," ++
      t.partCodeText (code.toNat / 2 ^ t.partBits)
  else t.partCodeText code.toNat

/-- The text of a real number stored as the given code. -/
def valueText (t : ElementType) (code : Nat) : String := plainText (t.decodePart code).toFloat

/-- The text of a real number with the code it is stored as. -/
def describe (t : ElementType) (code : Nat) : String :=
  t.name ++ "(0x" ++ hexText (t.partBits / 4) code ++ " = " ++ t.valueText code ++ ")"

end ElementType

end FusedGemm
