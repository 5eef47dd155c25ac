/-!
# Powers

The powers of two and of ten that numbers and their digits are measured by.
-/

set_option autoImplicit false

namespace Uplift

abbrev twoTo (exponent : Nat) : Nat := Nat.pow 2 exponent

abbrev tenTo (exponent : Nat) : Nat := Nat.pow 10 exponent

end Uplift
