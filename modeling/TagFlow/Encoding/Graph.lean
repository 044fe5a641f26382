import TagFlow.Encoding.Document
import TagFlow.Graph.Context

/-!
# Saving and loading graphs

Each part of a graph has a writer, `toDocument`, and a reader, `ofDocument?`, side by side. A graph
is saved with all its tables and its index of producers. Loading takes the index as it is given and
does not compare it with the function table.

Numbers are written as numbers if they are finite; the others have no form of their own, are
written as null, and cannot be read back.
-/

namespace TagFlow

/-! ### Values -/

namespace BaseType

/-- The name of a base type in documents. -/
def documentName : BaseType → String
  | number => "Number"
  | string => "String"
  | boolean => "Boolean"
  | array => "Array"
  | null => "Null"

def toDocument (ty : BaseType) : Document := .string ty.documentName

def ofDocument? (d : Document) : Option BaseType := do
  let name ← d.bareChoice?
  all.find? (·.documentName == name)

/-- An element type that may be missing. -/
def elementToDocument : Option BaseType → Document
  | some ty => ty.toDocument
  | none => .null

def elementOfDocument? : Document → Option (Option BaseType)
  | .null => some none
  | d => (ofDocument? d).map some

end BaseType

namespace Raw

mutual

def toDocument : Raw → Document
  | number n => .choice "Number" (.ofFloat n)
  | string s => .choice "String" (.string s)
  | boolean b => .choice "Boolean" (.bool b)
  | array items => .choice "Array" (.array (toDocuments items))
  | null => .string "Null"

def toDocuments : List Raw → List Document
  | [] => []
  | item :: rest => toDocument item :: toDocuments rest

end

mutual

def ofDocument? : Document → Option Raw
  | .string name => if name = "Null" then some null else none
  | .object [(name, .array items)] =>
    if name = "Array" then (ofDocuments? items).map array else none
  | .object [(name, content)] =>
    if name = "Number" then content.number?.map number
    else if name = "String" then content.string?.map string
    else if name = "Boolean" then content.bool?.map boolean
    else
      match content with
      | .null => if name = "Null" then some null else none
      | _ => none
  | _ => none

def ofDocuments? : List Document → Option (List Raw)
  | [] => some []
  | item :: rest => do
    let item ← ofDocument? item
    let rest ← ofDocuments? rest
    return item :: rest

end

end Raw

namespace Value

def toDocument (v : Value) : Document :=
  .object
    [ ("raw", v.raw.toDocument)
    , ("element", BaseType.elementToDocument v.element)
    , ("tags", .array (v.tags.toList.map .string)) ]

def tagsOfDocument? (d : Document) : Option TagSet :=
  (d.list? Document.string?).map fun tags => tags.foldl (·.insert ·) ∅

/-- The parts of a value; in an object the element type may be left out. -/
def parts? : Document → Option (Document × Document × Document)
  | .array [raw, element, tags] => some (raw, element, tags)
  | .object fields => do
    let raw ← fields.lookup "raw"
    let tags ← fields.lookup "tags"
    return (raw, (fields.lookup "element").getD .null, tags)
  | _ => none

def ofDocument? (d : Document) : Option Value := do
  let (raw, element, tags) ← parts? d
  let raw ← Raw.ofDocument? raw
  let element ← BaseType.elementOfDocument? element
  let tags ← tagsOfDocument? tags
  return ⟨raw, element, tags⟩

end Value

namespace ValueTable

def toDocument (table : ValueTable) : Document :=
  .object [("entries", .ofTable Value.toDocument table)]

def ofDocument? (d : Document) : Option ValueTable :=
  match d.record? ["entries"] with
  | some [entries] => entries.table? .value Value.ofDocument?
  | _ => none

end ValueTable

/-! ### Functions -/

namespace ArgMap

def toDocument (args : ArgMap) : Document :=
  .array (args.entries.map fun entry => .ofPair (.string entry.1) (.ofId entry.2))

def ofDocument? (d : Document) : Option ArgMap :=
  (d.list? (Document.pair? Document.string? (Document.id? .value))).map .mk

end ArgMap

namespace FunctionEntry

def toDocument : FunctionEntry → Document
  | combine definition args returns =>
    .choice "Combine" (.object
      [ ("def", .ofId definition), ("args", args.toDocument), ("return_id", .ofId returns) ])
  | pipe definition args returns =>
    .choice "Pipe" (.object
      [ ("def", .ofId definition), ("args", args.toDocument), ("return_id", .ofId returns) ])
  | cond definition returns =>
    .choice "Cond" (.object [("def", .ofId definition), ("return_id", .ofId returns)])

def ofDocument? (d : Document) : Option FunctionEntry :=
  match d.choice? with
  | some (name, some content) =>
    if name = "Combine" then
      match content.fields? ["def", "args", "return_id"] with
      | some [definition, args, returns] => do
        let definition ← definition.id? .combine
        let args ← ArgMap.ofDocument? args
        let returns ← returns.id? .value
        return combine definition args returns
      | _ => none
    else if name = "Pipe" then
      match content.fields? ["def", "args", "return_id"] with
      | some [definition, args, returns] => do
        let definition ← definition.id? .pipe
        let args ← ArgMap.ofDocument? args
        let returns ← returns.id? .value
        return pipe definition args returns
      | _ => none
    else if name = "Cond" then
      match content.fields? ["def", "return_id"] with
      | some [definition, returns] => do
        let definition ← definition.id? .cond
        let returns ← returns.id? .value
        return cond definition returns
      | _ => none
    else none
  | _ => none

end FunctionEntry

/-! ### Definitions -/

namespace CombineSlot

def toDocument (s : CombineSlot) : Document :=
  .object [("slot", .ofId s.slot), ("adapter", .string s.adapter)]

def ofDocument? (d : Document) : Option CombineSlot :=
  match d.record? ["slot", "adapter"] with
  | some [slot, adapter] => do
    let slot ← slot.id? .value
    let adapter ← adapter.string?
    return ⟨slot, adapter⟩
  | _ => none

end CombineSlot

namespace CombineDefinition

def toDocument (d : CombineDefinition) : Document :=
  .object
    [ ("operation", .string d.operation)
    , ("slots", .ofPair d.first.toDocument d.second.toDocument) ]

def ofDocument? (d : Document) : Option CombineDefinition :=
  match d.record? ["operation", "slots"] with
  | some [operation, slots] => do
    let operation ← operation.string?
    let (first, second) ← slots.pair? CombineSlot.ofDocument? CombineSlot.ofDocument?
    return ⟨operation, first, second⟩
  | _ => none

end CombineDefinition

namespace Source

def toDocument : Source → Document
  | input name => .choice "Input" (.string name)
  | step index => .choice "Step" (.natural index)
  | value id => .choice "Value" (.ofId id)

def ofDocument? (d : Document) : Option Source :=
  match d.choice? with
  | some (name, some content) =>
    if name = "Input" then content.string?.map input
    else if name = "Step" then content.natural?.map step
    else if name = "Value" then (content.id? .value).map value
    else none
  | _ => none

end Source

namespace StepBody

def toDocument : StepBody → Document
  | combine id => .choice "Combine" (.ofId id)
  | pipe id => .choice "Pipe" (.ofId id)

def ofDocument? (d : Document) : Option StepBody :=
  match d.choice? with
  | some (name, some content) =>
    if name = "Combine" then (content.id? .combine).map combine
    else if name = "Pipe" then (content.id? .pipe).map pipe
    else none
  | _ => none

end StepBody

namespace PipeStep

def toDocument (s : PipeStep) : Document :=
  .object
    [ ("def", s.body.toDocument)
    , ("args", .array (s.args.map fun arg => .ofPair (.string arg.1) arg.2.toDocument))
    , ("output", .ofId s.output) ]

def ofDocument? (d : Document) : Option PipeStep :=
  match d.record? ["def", "args", "output"] with
  | some [body, args, output] => do
    let body ← StepBody.ofDocument? body
    let args ← args.list? (Document.pair? Document.string? Source.ofDocument?)
    let output ← output.id? .value
    return ⟨body, args, output⟩
  | _ => none

end PipeStep

namespace PipeInput

def toDocument (i : PipeInput) : Document :=
  .object [("name", .string i.name), ("slot", .ofId i.slot)]

def ofDocument? (d : Document) : Option PipeInput :=
  match d.record? ["name", "slot"] with
  | some [name, slot] => do
    let name ← name.string?
    let slot ← slot.id? .value
    return ⟨name, slot⟩
  | _ => none

end PipeInput

namespace PipeDefinition

def toDocument (d : PipeDefinition) : Document :=
  .object
    [ ("inputs", .array (d.inputs.map (·.toDocument)))
    , ("steps", .array (d.steps.map (·.toDocument))) ]

def ofDocument? (d : Document) : Option PipeDefinition :=
  match d.record? ["inputs", "steps"] with
  | some [inputs, steps] => do
    let inputs ← inputs.list? PipeInput.ofDocument?
    let steps ← steps.list? PipeStep.ofDocument?
    return ⟨inputs, steps⟩
  | _ => none

end PipeDefinition

namespace Node

def toDocument : Node → Document
  | value id => .choice "Value" (.ofId id)
  | function id => .choice "Function" (.ofId id)

def ofDocument? (d : Document) : Option Node :=
  match d.choice? with
  | some (name, some content) =>
    if name = "Value" then (content.id? .value).map value
    else if name = "Function" then (content.id? .function).map function
    else none
  | _ => none

end Node

namespace CondDefinition

def toDocument (d : CondDefinition) : Document :=
  .object
    [ ("condition", d.condition.toDocument)
    , ("then_branch", .ofId d.thenBranch)
    , ("else_branch", .ofId d.elseBranch) ]

def ofDocument? (d : Document) : Option CondDefinition :=
  match d.record? ["condition", "then_branch", "else_branch"] with
  | some [condition, thenBranch, elseBranch] => do
    let condition ← Node.ofDocument? condition
    let thenBranch ← thenBranch.id? .function
    let elseBranch ← elseBranch.id? .function
    return ⟨condition, thenBranch, elseBranch⟩
  | _ => none

end CondDefinition

/-! ### Graphs -/

namespace Context

/-- Save a graph. -/
def toDocument (c : Context) : Document :=
  .object
    [ ("values", ValueTable.toDocument c.values)
    , ("functions", .ofTable FunctionEntry.toDocument c.functions)
    , ("combine_defs", .ofTable CombineDefinition.toDocument c.combines)
    , ("pipe_defs", .ofTable PipeDefinition.toDocument c.pipes)
    , ("cond_defs", .ofTable CondDefinition.toDocument c.conds)
    , ("producers", .ofTable Document.ofId c.producers) ]

/-- Load a graph. -/
def ofDocument? (d : Document) : Option Context :=
  match d.record?
    ["values", "functions", "combine_defs", "pipe_defs", "cond_defs", "producers"] with
  | some [values, functions, combines, pipes, conds, producers] => do
    let values ← ValueTable.ofDocument? values
    let functions ← functions.table? .function FunctionEntry.ofDocument?
    let combines ← combines.table? .combine CombineDefinition.ofDocument?
    let pipes ← pipes.table? .pipe PipeDefinition.ofDocument?
    let conds ← conds.table? .cond CondDefinition.ofDocument?
    let producers ← producers.table? .value (Document.id? .function)
    return ⟨values, functions, combines, pipes, conds, producers⟩
  | _ => none

end Context

end TagFlow
