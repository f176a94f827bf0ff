import LibraFlow.Core.Values

/-! The exceptions the services raise, with what their messages name. -/

set_option autoImplicit false

namespace LibraFlow.Core

inductive Error where
  | bookNotFound (isbn : String)
  | userNotFound (userId : String)
  | copyNotFound (copyId : String)
  | branchNotFound (branchId : String)
  | duplicateUser (userId : String)
  | invalidStateTransition (detail : String)
  | copyUnavailable (copyId status : String)
  | userNotEligible (userId reason : String)
  | insufficientInput (detail : String)
  | valueError (detail : String)
  | keyError (key : String)
  | overflowError
  deriving DecidableEq, Repr

end LibraFlow.Core
