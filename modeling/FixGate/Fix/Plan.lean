/-!
# Plans

A plan is the ordered steps of an intended edit, in plain words.

* `Plan.format` : the steps, numbered
-/

namespace FixGate

/-- The steps of an intended edit. -/
structure Plan where
  steps : List String
  deriving DecidableEq, Repr, Inhabited

/-- Lines numbered from a given number on. -/
def numberedFrom (n : Nat) : List String → List String
  | [] => []
  | s :: rest => s!"  {n}. {s}" :: numberedFrom (n + 1) rest

/-- The steps of a plan, numbered. -/
def Plan.format (p : Plan) : String :=
  if p.steps.isEmpty then "  (no plan)" else "\n".intercalate (numberedFrom 1 p.steps)

end FixGate
