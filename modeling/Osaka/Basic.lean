set_option autoImplicit false

namespace Osaka

/-- What a future answers to a poll. -/
inductive Poll (α : Type) where
  | ready (value : α)
  | pending
  deriving DecidableEq

end Osaka
