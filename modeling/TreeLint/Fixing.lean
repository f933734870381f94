import TreeLint.Registry

namespace TreeLint

inductive FixError where
  | unknownRule (id : String)
  | rule (cause : RuleError)
  | substitution (cause : SubstitutionError)
deriving DecidableEq, Repr

def FixError.message : FixError → String
  | unknownRule id => "unknown rule '" ++ id ++ "'"
  | rule cause => cause.message
  | substitution cause => cause.message

/-- A fixed tree, with what became of each finding. -/
structure Outcome where
  tree : Node
  applied : List Finding
  deferred : List Finding
  failed : List (Finding × RuleError)
deriving DecidableEq, Repr

/-- The decisions on the findings of a batch, each list in the order of the batch. -/
structure Batch where
  applied : List (Finding × Replacement)
  deferred : List Finding
  failed : List (Finding × RuleError)
deriving DecidableEq, Repr

namespace Registry

variable (registry : Registry)

def ruleFor (f : Finding) : Except FixError Rule :=
  match registry.find? f.ruleId with
  | some r => .ok r
  | none => .error (.unknownRule f.ruleId)

/-- The node that a rule is to replace for a finding. -/
def targetOf (tree : Node) (r : Rule) (f : Finding) : Except FixError Node :=
  (tree.locate f.span r.targetKind).mapError .substitution

/-- Fixes a single finding, whose node is located again by its span. -/
def applyFix (tree : Node) (f : Finding) : Except FixError Node := do
  let r ← registry.ruleFor f
  let target ← targetOf tree r f
  let replacement ← (r.synthesize target).mapError .rule
  (tree.substitute target replacement).mapError .substitution

/-- Decides on findings in order, each replacement built against the same tree. A finding that
starts before the end of the last applied one is deferred. -/
def decideAll (tree : Node) (claimed : Option UInt32) : List Finding → Except FixError Batch
  | [] => .ok ⟨[], [], []⟩
  | f :: fs =>
    if claimed.any fun stop => f.span.start < stop then do
      let batch ← decideAll tree claimed fs
      return { batch with deferred := f :: batch.deferred }
    else do
      let r ← registry.ruleFor f
      let target ← targetOf tree r f
      match r.synthesize target with
      | .ok node => do
        let batch ← decideAll tree (some f.span.stop) fs
        return { batch with applied := (f, ⟨f.span, r.targetKind, node⟩) :: batch.applied }
      | .error cause => do
        let batch ← decideAll tree claimed fs
        return { batch with failed := (f, cause) :: batch.failed }

/-- Fixes several findings of one tree at once, outer findings before the ones inside them. -/
def applyAll (tree : Node) (findings : List Finding) : Except FixError Outcome := do
  let batch ← registry.decideAll tree none
    (findings.mergeSort fun f g => f.span.outerLe g.span)
  let fixed ← (tree.applyReplacements (batch.applied.map Prod.snd)).mapError .substitution
  return ⟨fixed, batch.applied.map Prod.fst, batch.deferred, batch.failed⟩

/-- The findings of a tree whose fix has not failed before. -/
def pending (oracle : TypeOracle) (tree : Node) (failed : List (Finding × RuleError)) :
    List Finding :=
  (registry.report oracle tree).filter fun f => !failed.any fun g => g.1 == f

/-- Scans and fixes for at most so many passes. -/
def fixPasses (oracle : TypeOracle) :
    Nat → Node → List Finding → List (Finding × RuleError) → Except FixError Outcome
  | 0, tree, applied, failed =>
    .ok ⟨tree, applied, registry.pending oracle tree failed, failed⟩
  | passes + 1, tree, applied, failed =>
    match registry.pending oracle tree failed with
    | [] => .ok ⟨tree, applied, [], failed⟩
    | findings => do
      let outcome ← registry.applyAll tree findings
      fixPasses oracle passes outcome.tree (applied ++ outcome.applied) (failed ++ outcome.failed)

/-- The number of passes after which fixing gives up. -/
def maxPasses : Nat := 16

/-- Scans and fixes until no finding is left that can be fixed. -/
def fixAll (oracle : TypeOracle) (tree : Node) : Except FixError Outcome :=
  registry.fixPasses oracle maxPasses tree [] []

end Registry

end TreeLint
