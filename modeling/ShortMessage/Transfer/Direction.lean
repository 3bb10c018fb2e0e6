/-!
# Which way a message travels
-/

namespace ShortMessage

/-- The way of a message between the mobile station and the service centre. -/
inductive Direction where
  /-- From the mobile station to the service centre. -/
  | toCentre
  /-- From the service centre to the mobile station. -/
  | toMobile
  deriving DecidableEq, Repr

/-- The other way. -/
def Direction.reverse : Direction → Direction
  | .toCentre => .toMobile
  | .toMobile => .toCentre

@[simp] theorem Direction.reverse_reverse (d : Direction) : d.reverse.reverse = d := by
  cases d <;> rfl

end ShortMessage
