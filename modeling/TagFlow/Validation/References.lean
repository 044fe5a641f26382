import TagFlow.Graph.Context
import TagFlow.Validation.Finding

/-!
# What a graph refers to

A definition is referenced if a function runs it, directly or as a step of a referenced pipe. A
value is referenced if it is an argument of a function, an absolute value read by a step of a
referenced pipe, or the condition of a cond definition. Rows and definitions that are not
referenced give a warning each.

The referenced definitions are collected by a search that expands every pipe definition once, so
that it ends on pipes that contain themselves.
-/

namespace TagFlow.Context

/-- The definitions that the steps of a pipe definition run. -/
def stepDefinitions (d : PipeDefinition) : List DefinitionId := d.steps.map (·.body.definition)

/-- The absolute values that the steps of a pipe definition read. -/
def stepValues (d : PipeDefinition) : List ValueId :=
  d.steps.flatMap fun step => step.args.filterMap fun arg =>
    match arg.2 with
    | .value id => some id
    | _ => none

/-- The definitions that are reached from those in `work`. Pipes in `unexpanded` have not been
looked into yet; `reached` is what has been found so far. -/
def reach (c : Context) (unexpanded : List PipeId) (work reached : List DefinitionId) :
    List DefinitionId :=
  match work with
  | [] => reached
  | .pipe id :: rest =>
    if _new : id ∈ unexpanded then
      let steps := (c.pipes[id]?.map stepDefinitions).getD []
      c.reach (unexpanded.erase id) (steps ++ rest) (.pipe id :: reached)
    else c.reach unexpanded rest (.pipe id :: reached)
  | definition :: rest => c.reach unexpanded rest (definition :: reached)
termination_by (unexpanded.length, work.length)
decreasing_by
  · simp only [List.length_erase_of_mem _new]
    exact Prod.Lex.left _ _ (Nat.sub_lt (List.length_pos_of_mem _new) Nat.one_pos)
  · exact Prod.Lex.right _ (Nat.lt_succ_self _)
  · exact Prod.Lex.right _ (Nat.lt_succ_self _)

/-- The definitions that functions run themselves. -/
def entryDefinitions (c : Context) : List DefinitionId := c.functions.values.map (·.definition)

/-- The definitions that are referenced; one may be listed more than once. -/
def referencedDefinitions (c : Context) : List DefinitionId :=
  c.reach c.pipes.keys c.entryDefinitions []

/-- The values that are referenced; one may be listed more than once. -/
def referencedValues (c : Context) : List ValueId :=
  c.functions.values.flatMap (·.args.values) ++
    c.referencedDefinitions.flatMap (fun definition =>
      match definition with
      | .pipe id => (c.pipes[id]?.map stepValues).getD []
      | _ => []) ++
    c.conds.values.filterMap (·.condition.asValue?)

/-- A warning for each row and each definition that is not referenced. -/
def referenceWarnings (c : Context) : List ValidationWarning :=
  let values := c.referencedValues
  let definitions := c.referencedDefinitions
  (c.values.keys.filter (! values.contains ·)).map .unreferencedValue ++
    (c.definitionIds.filter (! definitions.contains ·)).map .unreferencedDefinition

end TagFlow.Context
