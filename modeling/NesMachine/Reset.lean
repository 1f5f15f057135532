/-!
# Resets
-/

namespace NesMachine

/-- The two ways to start a machine over. -/
inductive Reset
  /-- Power comes on: registers take their initial values and working memory is cleared. -/
  | powerOn
  /-- The reset button: memory and most registers keep their values. -/
  | soft
  deriving DecidableEq, Repr

end NesMachine
