import TagFlow.Proofs.Encoding.RoundTrip
import TagFlow.Proofs.Graph.Histories

/-!
# The index of a loaded graph

Loading takes the index of producers from its own field and compares it with nothing. So a document may
give any index at all (`index_is_loaded_as_given`), and the graph has a history just if the index happens
to be exact. Documents that saving has written are on the safe side: they give the graph that was saved,
index and all.
-/

namespace TagFlow.Context

open Document

/-- The fields of a saved graph, the index last. -/
def savedFields : List String :=
  ["values", "functions", "combine_defs", "pipe_defs", "cond_defs", "producers"]

/-- What a graph was loaded from: a part for each table, and one for the index. -/
theorem exists_parts {d : Document} {c : Context} (loads : ofDocument? d = some c) :
    ∃ values functions combines pipes conds producers,
      d.record? savedFields = some [values, functions, combines, pipes, conds, producers] ∧
      ValueTable.ofDocument? values = some c.values ∧
      functions.table? .function FunctionEntry.ofDocument? = some c.functions ∧
      combines.table? .combine CombineDefinition.ofDocument? = some c.combines ∧
      pipes.table? .pipe PipeDefinition.ofDocument? = some c.pipes ∧
      conds.table? .cond CondDefinition.ofDocument? = some c.conds ∧
      producers.table? .value (id? .function) = some c.producers := by
  unfold ofDocument? at loads
  split at loads
  · next values functions combines pipes conds producers parts =>
    simp only [Option.bind_eq_bind, Option.bind_eq_some_iff, Option.pure_def, Option.some.injEq] at loads
    obtain ⟨_, v, _, f, _, k, _, p, _, q, _, i, rfl⟩ := loads
    exact ⟨_, _, _, _, _, _, parts, v, f, k, p, q, i⟩
  · cases loads

/-- The index of a loaded graph is the one that the document gives, and it may give any other one
instead. So the graph need not be one that the operations lead to: it is just if its index is exact, as
it is in what was saved of such a graph. -/
theorem index_is_loaded_as_given {d : Document} {c : Context} (loads : ofDocument? d = some c) :
    (∃ tables given, d.record? savedFields = some (tables ++ [given]) ∧
      given.table? .value (id? .function) = some c.producers ∧
      ∀ index : Std.ExtTreeMap ValueId FunctionId,
        ofDocument? (.array (tables ++ [ofTable ofId index])) = some { c with producers := index }) ∧
    (c.Reachable ↔ c.IndexExact) ∧
    ∀ saved : Context, saved.Reachable → d = saved.toDocument → c.IndexExact := by
  refine ⟨?_, reachable_iff_indexExact, ?_⟩
  · obtain ⟨values, functions, combines, pipes, conds, producers, parts, v, f, k, p, q, i⟩ :=
      exists_parts loads
    refine ⟨[values, functions, combines, pipes, conds], producers, parts, i, fun index => ?_⟩
    simp [ofDocument?, record?, v, f, k, p, q, table?_ofTable id?_ofId index]
  · rintro saved reached rfl
    rw [ofDocument?_toDocument saved] at loads
    split at loads
    · cases loads
      exact reached.indexExact
    · cases loads

/-! ### An instance -/

namespace Forged

def ghost : FunctionId := ⟨"f:a", by decide⟩
def output : ValueId := ⟨"v:a", by decide⟩

/-- There is nothing in the graph but an index. -/
def context : Context := ⟨∅, ∅, ∅, ∅, ∅, (∅ : Std.ExtTreeMap ValueId FunctionId).insert output ghost⟩

theorem producerOf?_output : context.producerOf? output = some ghost := Table.getElem?_insert_self

theorem functions_eq_none (function : FunctionId) : context.functions[function]? = none :=
  Std.ExtTreeMap.getElem?_empty

end Forged

/-- A document with an index and no functions. -/
def forged : Document :=
  .object
    [ ("values", .object [("entries", .object [])]), ("functions", .object [])
    , ("combine_defs", .object []), ("pipe_defs", .object []), ("cond_defs", .object [])
    , ("producers", .object [("v:a", .string "f:a")]) ]

open Forged in
/-- The forged graph has no history; with another index it has. -/
theorem index_is_loaded_as_given_forged :
    ofDocument? forged = some context ∧ ¬ context.Reachable ∧
      ∃ mended, ofDocument? mended = some empty ∧ empty.Reachable := by
  have loads : ofDocument? forged = some context := rfl
  obtain ⟨⟨tables, given, -, -, any⟩, history, -⟩ := index_is_loaded_as_given loads
  refine ⟨loads, fun reached => ?_, _, any ∅, .empty⟩
  obtain ⟨entry, known, -⟩ := (history.1 reached).writes producerOf?_output
  cases (functions_eq_none ghost).symm.trans known

open Forged in
/-- A graph can be loaded whose index names a function that it does not have. -/
theorem forged_names_no_function : ofDocument? forged = some context ∧
    context.producerOf? output = some ghost ∧ context.functions[ghost]? = none :=
  ⟨rfl, producerOf?_output, functions_eq_none ghost⟩

end TagFlow.Context
