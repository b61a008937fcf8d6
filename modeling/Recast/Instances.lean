/-
  Instances.lean --- the instances that powers, the order of lists and the equality of byte arrays
  stand for, whatever else is imported.
-/

set_option autoImplicit false

attribute [instance (2000)] instPowNat List.instLE ByteArray.instDecidableEq

attribute [default_instance 20000] instPowNat

namespace Recast

instance instLawfulOrderLTPlace : Std.LawfulOrderLT (List String) := inferInstance

end Recast
