/-
Row-level security, as the migrations of the services set it up: every table with a
`tenant_id` has the policy `tenant_isolation`.
-/
import Sutram.Core.Uuid

namespace Sutram.Core

/-- Whether the role of the service is subject to the policies. -/
inductive RowSecurity where
  | forced | bypassed
deriving DecidableEq, Repr

/-- The policy `tenant_isolation`: whether a row of `tenantId` is seen with this
`app.current_tenant_id`. -/
def RowSecurity.sees (security : RowSecurity) (context : Option Uuid) (tenantId : Uuid) : Bool :=
  match security with
  | .forced => context = some tenantId
  | .bypassed => true

end Sutram.Core
