import TagFlow.Value.Basic
import TagFlow.Id

/-!
# Minting identifiers

A mint issues fresh identifiers and remembers what each one was issued for. An identifier reads
`<mark>:<label>#<session>.<serial>`: the mark hints at its kind, the label is whatever name the
caller gives, the session number (in hexadecimal) tells mints apart and the serial number counts
the identifiers of one mint from 1. The label is cosmetic; what is known about an identifier stands
in a record kept by its text.
-/

namespace TagFlow

/-- What an identifier was issued for. -/
inductive Origin where
  /-- A literal row of the value table. -/
  | literal
  /-- An entry of the function table. -/
  | function
  /-- The output of a function. -/
  | functionReturn
  /-- An argument slot of a combine definition. -/
  | combineSlot
  /-- A named input of a pipe definition. -/
  | pipeInput
  /-- The output of one step of a pipe. -/
  | pipeStep
  /-- A combine, pipe or cond definition. -/
  | definition
  /-- A short-lived identifier. -/
  | scratch
deriving DecidableEq

namespace Origin

/-- All origins. -/
def all : List Origin :=
  [ literal, function, functionReturn, combineSlot, pipeInput, pipeStep, definition, scratch ]

/-- The name of an origin in listings. -/
def name : Origin → String
  | literal => "Literal"
  | function => "Function"
  | functionReturn => "FunctionReturn"
  | combineSlot => "CombineSlot"
  | pipeInput => "PipeInput"
  | pipeStep => "PipeStep"
  | definition => "Definition"
  | scratch => "Scratch"

/-- The origin of a name. -/
def ofName? (text : String) : Option Origin := all.find? (·.name == text)

@[simp] theorem ofName?_name (origin : Origin) : ofName? origin.name = some origin := by
  cases origin <;> decide

end Origin

/-- What a mint knows about one of its identifiers. -/
structure IdRecord where
  label : String
  origin : Origin
  /-- The static type, where it is known. -/
  inferred : Option BaseType
deriving DecidableEq

/-- A source of fresh identifiers. -/
structure Mint where
  session : Nat
  /-- How many identifiers have been issued. -/
  issued : Nat
  records : Std.ExtTreeMap String IdRecord

namespace IdKind

/-- The first part of the identifiers of this kind. -/
def mark : IdKind → String
  | value => "v"
  | function => "f"
  | combine => "cd"
  | pipe => "pd"
  | cond => "kd"

end IdKind

namespace Mint

/-- A mint that has issued nothing. -/
def new (session : Nat) : Mint := ⟨session, 0, ∅⟩

/-- The digits of a number in lower-case hexadecimal. -/
def hexadecimal (n : Nat) : List Char := Nat.toDigits 16 n

/-- The text of the identifier with this kind, label, session and serial number. -/
def idText (kind : IdKind) (label : String) (session serial : Nat) : String :=
  kind.mark ++ ":" ++ label ++ "#" ++ String.ofList (hexadecimal session) ++ "." ++
    String.ofList (Nat.toDigits 10 serial)

theorem idText_ne (kind : IdKind) (label : String) (session serial : Nat) :
    idText kind label session serial ≠ "" := by
  intro h
  have := congrArg String.toList h
  simp [idText] at this

/-- Issue an identifier. -/
def issue (kind : IdKind) (label : String) (origin : Origin) (mint : Mint) : Id kind × Mint :=
  let serial := mint.issued + 1
  let id : Id kind :=
    ⟨idText kind label mint.session serial, idText_ne kind label mint.session serial⟩
  (id, { mint with issued := serial, records := mint.records.insert id.text ⟨label, origin, none⟩ })

/-- Issue an identifier for a definition. -/
def issueDefinition (kind : IdKind) (label : String) (mint : Mint) : Id kind × Mint :=
  mint.issue kind label .definition

/-- What the mint knows about an identifier, if it has issued it. -/
def record? {kind : IdKind} (mint : Mint) (id : Id kind) : Option IdRecord := mint.records[id.text]?

/-- The static type recorded for an identifier. -/
def inferred? {kind : IdKind} (mint : Mint) (id : Id kind) : Option BaseType :=
  (mint.record? id).bind (·.inferred)

/-- Whether the mint has issued an identifier. -/
def knows {kind : IdKind} (mint : Mint) (id : Id kind) : Bool := (mint.record? id).isSome

/-- Record the static type of an identifier; nothing happens for one of another mint. -/
def recordType {kind : IdKind} (mint : Mint) (id : Id kind) (ty : BaseType) : Mint :=
  match mint.record? id with
  | some known =>
    { mint with records := mint.records.insert id.text { known with inferred := some ty } }
  | none => mint

/-- Record the static type of an identifier where it is known. -/
def recordType? {kind : IdKind} (mint : Mint) (id : Id kind) : Option BaseType → Mint
  | some ty => mint.recordType id ty
  | none => mint

/-- The number of identifiers with a record. -/
def size (mint : Mint) : Nat := mint.records.size

end Mint

end TagFlow
