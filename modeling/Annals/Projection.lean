/-!
# Projections

A projection folds events into a read model. Folding is pure, so a read model can be thrown away and
built again from the log.
-/

namespace Annals

class Projection (π : Type) (ε ν : outParam Type) where
  initial : π
  handle : π → ε → π
  /-- What readers are shown. -/
  view : π → ν

end Annals
