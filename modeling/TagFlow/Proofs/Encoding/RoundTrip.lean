import TagFlow.Encoding.Graph
import TagFlow.Proofs.Table

/-!
# Saved graphs load again

Loading a graph that was saved gives the same graph if all its numbers are finite, and nothing
otherwise (`Context.load_saved`). The other numbers have no form in a document.

Each part has a writer and a reader, related by one law (`Document.Restores`): reading what was written
gives back what is fit to be saved, and nothing else. Lists and tables hand the law on from what they
are made of, and only payloads are not always fit.
-/

namespace TagFlow

variable {α : Type}

/-! ### What is fit to be saved -/

namespace Raw

mutual

/-- All numbers in the payload are finite. -/
def finite : Raw → Bool
  | number n => n.isFinite
  | array items => allFinite items
  | _ => true

/-- All numbers in the payloads are finite. -/
def allFinite : List Raw → Bool
  | [] => true
  | item :: rest => item.finite && allFinite rest

end

end Raw

/-- All numbers of the rows are finite. -/
def Context.Finite (c : Context) : Prop :=
  ∀ (id : ValueId) (value : Value), c.values[id]? = some value → value.raw.finite = true

/-! ### Readers and writers -/

namespace Document

/-- Reading what was written gives it back if it is fit to be saved, and nothing otherwise. -/
def Restores (write : α → Document) (read : Document → Option α) (fit : α → Bool) : Prop :=
  ∀ a, read (write a) = if fit a then some a else none

variable {write : α → Document} {read : Document → Option α} {fit : α → Bool}

/-- Items that are read one by one are restored if all are. -/
theorem mapM_of_restores {δ : Type} {write : α → δ} {read : δ → Option α}
    (restores : ∀ a, read (write a) = if fit a then some a else none) : ∀ items : List α,
      (items.map write).mapM read = if items.all fit then some items else none
  | [] => rfl
  | item :: rest => by
    rw [List.map_cons, List.mapM_cons, restores item, mapM_of_restores restores rest, List.all_cons]
    cases fit item <;> cases rest.all fit <;> rfl

theorem Restores.list (restores : Restores write read fit) :
    Restores (fun items => array (items.map write)) (list? read) (·.all fit) :=
  mapM_of_restores restores

/-- A table is restored if all that stands in it is. -/
theorem Restores.table {kind : IdKind} (restores : Restores write read fit) :
    Restores (ofTable write) (table? kind read) (·.toList.all fun row => fit row.2) := by
  have row : ∀ row : Id kind × α, row? kind read (row.1.text, write row.2) =
      if fit row.2 then some row else none := by
    intro row
    unfold row?
    rw [Id.ofString?_text, restores row.2]
    cases fit row.2 <;> rfl
  intro table
  show ((table.toList.map fun row => (row.1.text, write row.2)).mapM (row? kind read)).map tableOf =
    if table.toList.all (fun row => fit row.2) then some table else none
  rw [mapM_of_restores row]
  split
  · rw [Option.map_some]
    exact congrArg some (Table.foldl_insert_toList table)
  · rfl

/-- What is always restored is restored in a list. -/
theorem list?_map (always : ∀ a, read (write a) = some a) (items : List α) :
    (array (items.map write)).list? read = some items := by
  have restores : Restores write read fun _ => true := always
  exact (restores.list items).trans (by simp)

/-- What is always restored is restored in a table. -/
theorem table?_ofTable {kind : IdKind} (always : ∀ a, read (write a) = some a)
    (table : Std.ExtTreeMap (Id kind) α) : (ofTable write table).table? kind read = some table := by
  have restores : Restores write read fun _ => true := always
  exact (restores.table table).trans (by simp)

@[simp] theorem id?_ofId {kind : IdKind} (id : Id kind) : (ofId id).id? kind = some id :=
  Id.ofString?_text id

@[simp] theorem string?_string (text : String) : (string text).string? = some text := rfl

@[simp] theorem choice?_choice (name : String) (content : Document) :
    (choice name content).choice? = some (name, some content) := rfl

@[simp] theorem pair?_ofPair {β : Type} (first : Document → Option α) (second : Document → Option β)
    (a b : Document) : (ofPair a b).pair? first second = (do
      let a ← first a
      let b ← second b
      return (a, b)) := rfl

end Document

open Document

/-! ### Values -/

namespace BaseType

@[simp] theorem ofDocument?_toDocument (ty : BaseType) : ofDocument? ty.toDocument = some ty := by
  cases ty <;> rfl

@[simp] theorem elementOfDocument?_elementToDocument (element : Option BaseType) :
    elementOfDocument? (elementToDocument element) = some element := by
  cases element with
  | none => rfl
  | some ty => cases ty <;> rfl

end BaseType

namespace Raw

theorem ofDocument?_number (n : Float) :
    ofDocument? (toDocument (number n)) = if n.isFinite then some (number n) else none := by
  rw [toDocument, ofFloat]
  split <;> simp [choice, ofDocument?, number?]

mutual

/-- A payload is restored if its numbers are finite. -/
theorem ofDocument?_toDocument : ∀ raw : Raw,
    ofDocument? raw.toDocument = if raw.finite then some raw else none
  | number n => ofDocument?_number n
  | string text => by simp [toDocument, choice, ofDocument?, finite]
  | boolean b => by simp [toDocument, choice, ofDocument?, finite, bool?]
  | array items => by
    rw [toDocument, choice, ofDocument?, if_pos rfl, ofDocuments?_toDocuments items, finite]
    by_cases all : allFinite items = true <;> simp [all]
  | null => by simp [toDocument, ofDocument?, finite]

theorem ofDocuments?_toDocuments : ∀ items : List Raw,
    ofDocuments? (toDocuments items) = if allFinite items then some items else none
  | [] => rfl
  | item :: rest => by
    rw [toDocuments, ofDocuments?, ofDocument?_toDocument item, ofDocuments?_toDocuments rest,
      allFinite]
    cases item.finite <;> cases allFinite rest <;> rfl

end

end Raw

namespace Value

theorem mem_foldl_insert {tag : Tag} : ∀ {listed : List Tag} {tags : TagSet},
    tag ∈ listed.foldl (·.insert ·) tags ↔ tag ∈ listed ∨ tag ∈ tags
  | [], _ => by simp
  | first :: rest, tags => by
    rw [List.foldl_cons, mem_foldl_insert, Std.ExtTreeSet.mem_insert, List.mem_cons,
      Std.LawfulEqCmp.compare_eq_iff_eq, eq_comm, or_assoc]
    exact or_left_comm

@[simp] theorem tagsOfDocument?_toDocument (tags : TagSet) :
    tagsOfDocument? (.array (tags.toList.map .string)) = some tags := by
  unfold tagsOfDocument?
  rw [list?_map string?_string, Option.map_some]
  congr 1
  ext tag
  simp [mem_foldl_insert]

/-- A value is restored if its numbers are finite. -/
theorem ofDocument?_toDocument : Restores toDocument ofDocument? fun value => value.raw.finite := by
  rintro ⟨raw, element, tags⟩
  have parts : parts? (toDocument ⟨raw, element, tags⟩) = some (raw.toDocument,
      BaseType.elementToDocument element, .array (tags.toList.map .string)) := by
    simp [parts?, toDocument, List.lookup_cons]
  unfold ofDocument?
  rw [parts]
  simp only [Option.bind_eq_bind, Option.bind_some, Raw.ofDocument?_toDocument,
    BaseType.elementOfDocument?_elementToDocument, tagsOfDocument?_toDocument]
  split <;> rfl

end Value

/-- A value table is restored if the numbers of all its rows are finite. -/
theorem ValueTable.ofDocument?_toDocument : Restores toDocument ofDocument?
    fun table => table.toList.all (·.2.raw.finite) := by
  intro table
  have record : (toDocument table).record? ["entries"] = some [.ofTable Value.toDocument table] := by
    simp [toDocument, record?, List.lookup_cons]
  unfold ofDocument?
  rw [record]
  exact Value.ofDocument?_toDocument.table table

/-! ### Functions -/

@[simp] theorem ArgMap.ofDocument?_toDocument (args : ArgMap) :
    ofDocument? args.toDocument = some args := by
  unfold ofDocument? toDocument
  rw [list?_map (by simp)]
  rfl

@[simp] theorem FunctionEntry.ofDocument?_toDocument (entry : FunctionEntry) :
    ofDocument? entry.toDocument = some entry := by
  cases entry <;> simp [ofDocument?, toDocument, fields?, List.lookup_cons]

/-! ### Definitions -/

@[simp] theorem CombineSlot.ofDocument?_toDocument (slot : CombineSlot) :
    ofDocument? slot.toDocument = some slot := by
  simp [ofDocument?, toDocument, record?, List.lookup_cons]

@[simp] theorem CombineDefinition.ofDocument?_toDocument (d : CombineDefinition) :
    ofDocument? d.toDocument = some d := by
  simp [ofDocument?, toDocument, record?, List.lookup_cons]

@[simp] theorem Source.ofDocument?_toDocument (source : Source) :
    ofDocument? source.toDocument = some source := by
  cases source <;> simp [ofDocument?, toDocument, natural?]

@[simp] theorem StepBody.ofDocument?_toDocument (body : StepBody) :
    ofDocument? body.toDocument = some body := by
  cases body <;> simp [ofDocument?, toDocument]

@[simp] theorem PipeStep.ofDocument?_toDocument (step : PipeStep) :
    ofDocument? step.toDocument = some step := by
  simp [ofDocument?, toDocument, record?, List.lookup_cons, list?_map]

@[simp] theorem PipeInput.ofDocument?_toDocument (input : PipeInput) :
    ofDocument? input.toDocument = some input := by
  simp [ofDocument?, toDocument, record?, List.lookup_cons]

@[simp] theorem PipeDefinition.ofDocument?_toDocument (d : PipeDefinition) :
    ofDocument? d.toDocument = some d := by
  simp [ofDocument?, toDocument, record?, List.lookup_cons, list?_map]

@[simp] theorem Node.ofDocument?_toDocument (node : Node) :
    ofDocument? node.toDocument = some node := by
  cases node <;> simp [ofDocument?, toDocument]

@[simp] theorem CondDefinition.ofDocument?_toDocument (d : CondDefinition) :
    ofDocument? d.toDocument = some d := by
  simp [ofDocument?, toDocument, record?, List.lookup_cons]

/-! ### Graphs -/

namespace Context

/-- A saved graph is restored if the numbers of all its rows are finite. -/
theorem ofDocument?_toDocument :
    Restores toDocument ofDocument? fun c => c.values.toList.all (·.2.raw.finite) := by
  intro c
  have record : c.toDocument.record?
      ["values", "functions", "combine_defs", "pipe_defs", "cond_defs", "producers"] =
      some [ValueTable.toDocument c.values, .ofTable FunctionEntry.toDocument c.functions,
        .ofTable CombineDefinition.toDocument c.combines,
        .ofTable PipeDefinition.toDocument c.pipes, .ofTable CondDefinition.toDocument c.conds,
        .ofTable ofId c.producers] := by
    simp [toDocument, record?, List.lookup_cons]
  have functions := table?_ofTable FunctionEntry.ofDocument?_toDocument c.functions
  have combines := table?_ofTable CombineDefinition.ofDocument?_toDocument c.combines
  have pipes := table?_ofTable PipeDefinition.ofDocument?_toDocument c.pipes
  have conds := table?_ofTable CondDefinition.ofDocument?_toDocument c.conds
  have producers := table?_ofTable id?_ofId c.producers
  unfold ofDocument?
  simp only [record, ValueTable.ofDocument?_toDocument c.values, functions, combines, pipes, conds,
    producers, Option.bind_eq_bind, Option.bind_some]
  split <;> rfl

/-- Loading a saved graph gives just that graph, with the same rows, functions, definitions and index,
if all its numbers are finite. Otherwise it gives nothing. -/
theorem load_saved (c : Context) :
    (ofDocument? c.toDocument = some c ↔ c.Finite) ∧
      (ofDocument? c.toDocument = none ↔ ¬ c.Finite) := by
  have finite : c.values.toList.all (·.2.raw.finite) = true ↔ c.Finite := by
    unfold Finite
    simp only [List.all_eq_true, Prod.forall, Table.mem_toList_iff]
  rw [ofDocument?_toDocument c, ← finite]
  split
  · next fit => simp [fit]
  · next unfit => simp [unfit]

end Context

end TagFlow
