import Mathlib.Init

/-!
# Status codes

The `NTSTATUS` values that the modelled functions return.
-/

namespace XenBus

/-- `NTSTATUS`. -/
inductive Status
  | success
  | unsuccessful
  | invalidParameter
  | insufficientResources
  | noMemory
  | notSupported
  | retry
  | objectNameNotFound
  deriving DecidableEq, Repr

/-- `NT_SUCCESS`. -/
def Status.ntSuccess : Status → Bool
  | .success => true
  | _ => false

end XenBus
