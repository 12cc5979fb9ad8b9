/-! What can be wrong with a document. -/

namespace ModuleAtlas

/-- The first problem met on reading a document from left to right: the text `ended` early, it is
`malformed`, or it is well formed and does not say what is wanted there (`mistyped`). -/
inductive Fault where
  | ended
  | malformed
  | mistyped
  deriving DecidableEq, Repr

end ModuleAtlas
