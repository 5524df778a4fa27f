set_option autoImplicit false

/-! # Where a call stops

`revng_assert` aborts the process when its condition is false; the message is the assertion's own
text, or its condition when it has none. A dereference of an `end()` iterator is undefined
behaviour in the source; the model stops there as well, so that a theorem can say the code gets
there. -/

namespace Revng

/-- Where a call stops instead of returning. -/
inductive Fault where
  /-- `revng_assert` failed: the process aborts with this message. -/
  | assertion (msg : String)
  /-- An `end()` iterator was dereferenced. -/
  | outOfRange
deriving DecidableEq, Repr

end Revng
