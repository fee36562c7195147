/-!
# Calls

What a watch tells about its collection, one call for each change.
-/

namespace BufferLedger

inductive Call (α : Type)
  | add (object : α)
  | update (old new : α)
  /-- The deletion is stale if it was inferred from a list and not watched. -/
  | delete (object : α) (stale : Bool)
  deriving DecidableEq

end BufferLedger
