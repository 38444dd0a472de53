import LabOS.Core.Errors

/-!
# Error responses

The exception handlers of the application. What none of them handles is not answered with an error
response: it leaves the application, and the server answers with a bare status 500.
-/

namespace LabOS

structure ErrorResponse where
  detail : String
  resource : Option String := none
  deriving DecidableEq, Repr

namespace App

/-- `resource_not_found_handler`, `conflict_error_handler`, `validation_exception_handler`, and the handler
of `HTTPException`: the status and the body of a response. -/
def errorResponse : Exc → Option (ℕ × ErrorResponse)
  | .resourceNotFound resource => some (404, { detail := "resource_not_found", resource := resource })
  | .conflict detail resource => some (409, { detail := detail, resource := resource })
  | .http status detail => some (status, { detail := detail })
  | .requestValidation => some (422, { detail := "validation_error" })
  | _ => none

end App

end LabOS
