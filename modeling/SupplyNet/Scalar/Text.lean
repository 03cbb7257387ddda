import SupplyNet.Decimal.Rounded
import SupplyNet.Decimal.Shortest

/-!
The texts of scalars in messages and listings.
-/
set_option autoImplicit false

namespace SupplyNet

/-- `plain` has as many digits as tell the number apart, `sixPlaces` six after the point. With
`signedSixPlaces` a sign stands also before numbers that are not negative. -/
class ScalarText (K : Type) where
  plain : K → String
  sixPlaces : K → String
  signedSixPlaces : K → String

namespace Binary

/-- The text of the magnitude, behind `positive` or a minus. What is neither finite nor infinite
has no sign. -/
def textWith (positive : String) (magnitude : Parts → Decimal) (x : Float) : String :=
  if x == x then
    let sign := if isNegative x then "-" else positive
    match parts? x with
    | some p => sign ++ (magnitude p).positional
    | none => sign ++ "inf"
  else "NaN"

def sixPlacesOf (p : Parts) : Decimal := .places 6 p.fraction.1 p.fraction.2

end Binary

instance : ScalarText Float where
  plain := Binary.textWith "" .shortest
  sixPlaces := Binary.textWith "" Binary.sixPlacesOf
  signedSixPlaces := Binary.textWith "+" Binary.sixPlacesOf

end SupplyNet
