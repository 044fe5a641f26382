import TagFlow.Proofs.Evaluation.Sessions
import TagFlow.Proofs.Spec.Built

/-!
# Writing results back

An evaluation gives back the table of the graph with a row for every function it has run, and the
graph may go on with that table. Later evaluations do not notice: a function is run again before its
row is read, whatever the row holds. The rows only ever hold what the functions mean
(`Evaluator.Truthful`), so one evaluation adds to the table what it would add to that of the graph
(`Context.writeBack_spec`). In the end there are the rows of the graph and those of each evaluation on
its own (`Context.writeBackAll_spec`), and the order does not matter.

Each evaluation has a session of its own for scratch identifiers. As these are fresh, all of them might as
well be in one session.
-/

namespace TagFlow

namespace Context

/-- What an evaluation gives besides the table: a value and counts, or why it stopped. -/
def outcome (c : Context) (registry : Registry) (root : Node) (session : Nat) :
    Except Halt (Value × Stats) :=
  (c.evaluate registry root session).map fun evaluation => (evaluation.value, evaluation.stats)

/-- Evaluate a node and go on with the table of the result; without a result, with the same table. -/
def writeBack (c : Context) (registry : Registry) (root : Node) (session : Nat) : Context :=
  match c.evaluate registry root session with
  | .ok evaluation => c.setValues evaluation.values
  | .error _ => c

/-- The graph after nodes have been evaluated one after the other, in these sessions, each on the table
that was there. -/
def writeBackAll (c : Context) (registry : Registry) (runs : List (Node × Nat)) : Context :=
  runs.foldl (fun c run => c.writeBack registry run.1 run.2) c

/-- What these evaluations give, in order. -/
def outcomes (c : Context) (registry : Registry) : List (Node × Nat) → List (Except Halt (Value × Stats))
  | [] => []
  | (root, session) :: rest =>
    c.outcome registry root session :: (c.writeBack registry root session).outcomes registry rest

/-- The rows of the graph are no outputs of functions. -/
def RowsUnwritten (c : Context) : Prop :=
  ∀ (id : ValueId) (value : Value), c.values[id]? = some value → ∀ function, ¬ c.Writes function id

/-- Rows play no part in what evaluation rests on. -/
theorem Orderly.setValues {c : Context} (orderly : c.Orderly) (values : ValueTable) :
    (c.setValues values).Orderly where
  exact := ⟨orderly.exact.writes, orderly.exact.indexed⟩
  distinct := orderly.distinct
  acyclic := orderly.acyclic
  slots := orderly.slots
  apart := orderly.apart

end Context

namespace Evaluator

variable {m : Evaluator} {root : Node} {session : Nat} {values : ValueTable}

/-- A table that evaluations of the graph may have left: the outputs of functions hold what the
functions mean, where they have a row, and all other rows are those of the graph. -/
structure Truthful (m : Evaluator) (values : ValueTable) : Prop where
  unwritten : ∀ {id}, (∀ function, ¬ m.context.Writes function id) →
    values[id]? = m.context.values[id]?
  written : ∀ {function id value}, m.context.Writes function id → values[id]? = some value →
    (m.denote (.function function)).run = some (.ok value)

theorem Truthful.start (rows : m.context.RowsUnwritten) : Truthful m m.context.values where
  unwritten _ := rfl
  written writes row := absurd writes (rows _ _ row _)

section ends

variable {evaluation evaluation' : Evaluation} {p p' : Progress} {id : ValueId} {value : Value}

/-- The row of a function that has run holds what the function means. -/
theorem Ends.row (ends : m.Ends root session evaluation p) (orderly : m.context.Orderly)
    (fresh : m.context.FreshIn session) {function : FunctionId} (done : function ∈ p.completed)
    (writes : m.context.Writes function id) :
    ∃ value, (m.denote (.function function)).run = some (.ok value) ∧ p.table[id]? = some value := by
  obtain ⟨entry, value, known, denotes, row⟩ := (ends.tracks orderly fresh).completed done
  obtain ⟨entry', known', rfl⟩ := writes
  cases known.symm.trans known'
  exact ⟨value, denotes, row⟩

/-- An evaluation on the table of the graph leaves a truthful one. -/
theorem Ends.truthful (ends : m.Ends root session evaluation p) (orderly : m.context.Orderly)
    (fresh : m.context.FreshIn session) (rows : m.context.RowsUnwritten) : Truthful m p.table where
  unwritten none := (ends.tracks orderly fresh).others fun function _ => none function
  written {function id value} writes row := by
    by_cases done : function ∈ p.completed
    · obtain ⟨value', denotes, row'⟩ := ends.row orderly fresh done writes
      cases row.symm.trans row'
      exact denotes
    · -- nobody else writes the row, so it would be one of the graph
      have old : p.table[id]? = m.context.values[id]? :=
        (ends.tracks orderly fresh).others fun other done' writes' =>
          done (orderly.distinct writes writes' ▸ done')
      exact absurd writes (rows id value (old.symm.trans row) function)

/-- An evaluation on a truthful table leaves the rows that were there and those that the same
evaluation leaves on the table of the graph. -/
theorem Truthful.getElem?_iff (truthful : Truthful m values) (orderly : m.context.Orderly)
    (fresh : m.context.FreshIn session) (rows : m.context.RowsUnwritten)
    (ends : m.Ends root session evaluation p) (ends' : (m.onTable values).Ends root session evaluation' p')
    (alike : Alike .same m.context p p') :
    p'.table[id]? = some value ↔ values[id]? = some value ∨ p.table[id]? = some value := by
  by_cases ran : ∃ function ∈ p.completed, m.context.Writes function id
  · rw [← Coupling.rows_same.1 (alike.rows (.inr ran))]
    obtain ⟨function, done, writes⟩ := ran
    obtain ⟨value', denotes, row⟩ := ends.row orderly fresh done writes
    refine ⟨.inr, ?_⟩
    rintro (old | here)
    · cases denotes.symm.trans (truthful.written writes old)
      exact row
    · exact here
  · have none : ∀ function ∈ p.completed, ¬ m.context.Writes function id :=
      fun function done writes => ran ⟨function, done, writes⟩
    have kept : p'.table[id]? = values[id]? :=
      (ends'.tracks (orderly.setValues values) (fresh.setValues values)).others fun function done =>
        none function (alike.completed ▸ done)
    rw [kept, (ends.tracks orderly fresh).others none]
    refine ⟨.inl, ?_⟩
    rintro (old | row)
    · exact old
    · exact (truthful.unwritten (rows id value row)).trans row

end ends

/-- What an evaluation gives on a truthful table, compared to the same evaluation on the table of the
graph. -/
structure Repeats (m : Evaluator) (values : ValueTable) (first again : Evaluation) : Prop where
  value : again.value = first.value
  stats : again.stats = first.stats
  truthful : Truthful m again.values
  rows : ∀ {id : ValueId} {value : Value}, again.values[id]? = some value ↔
    values[id]? = some value ∨ first.values[id]? = some value

theorem Truthful.evaluate (truthful : Truthful m values) (orderly : m.context.Orderly)
    (fresh : m.context.FreshIn session) (rows : m.context.RowsUnwritten) :
    Coupling.same.Results (Repeats m values) (m.evaluate root session)
      ((m.onTable values).evaluate root session) := by
  have surrounds : Surrounds .same m.context m.context.values values :=
    fun _ unwritten => Coupling.rows_same.2 (truthful.unwritten unwritten).symm
  refine (evaluate_couples (respects_same m) orderly.exact orderly.apart surrounds
    fun _ _ _ same => same).mono ?_
  rintro e e' ⟨same, p, p', ends, ends', alike⟩
  have gained : ∀ {id : ValueId} {value : Value}, e'.values[id]? = some value ↔
      values[id]? = some value ∨ e.values[id]? = some value := by
    intro id value
    rw [ends.values, ends'.values]
    exact truthful.getElem?_iff orderly fresh rows ends ends' alike
  have left : Truthful m e.values := by
    rw [ends.values]
    exact ends.truthful orderly fresh rows
  refine ⟨same.symm, by rw [ends.stats, ends'.stats, alike.stats], ⟨?_, ?_⟩, gained⟩
  · intro id unwritten
    rw [ends'.values, ← Coupling.rows_same.1 (alike.rows (.inl unwritten)), ← ends.values]
    exact left.unwritten unwritten
  · intro function id value writes row
    exact (gained.1 row).elim (truthful.written writes) (left.written writes)

end Evaluator

namespace Context

variable {c : Context} {registry : Registry} {scratch : Nat} {values : ValueTable}

/-- An evaluation gives this row. -/
def Leaves (c : Context) (registry : Registry) (root : Node) (session : Nat) (id : ValueId)
    (value : Value) : Prop :=
  ∃ evaluation, c.evaluate registry root session = .ok evaluation ∧ evaluation.values[id]? = some value

/-- Evaluating a node on a truthful table gives what it gives on the table of the graph, and leaves a
truthful table with the rows of both. -/
theorem writeBack_spec (root : Node) {session : Nat} (orderly : c.Orderly) (fresh : c.FreshIn scratch)
    (fresh' : c.FreshIn session) (rows : c.RowsUnwritten)
    (truthful : Evaluator.Truthful ⟨c, registry, false⟩ values) :
    (c.setValues values).outcome registry root session = c.outcome registry root scratch ∧
      ∃ after, (c.setValues values).writeBack registry root session = c.setValues after ∧
        Evaluator.Truthful ⟨c, registry, false⟩ after ∧ ∀ {id : ValueId} {value : Value},
          after[id]? = some value ↔ values[id]? = some value ∨ c.Leaves registry root scratch id value := by
  have repeats : Coupling.same.Results (Evaluator.Repeats ⟨c, registry, false⟩ values)
    (c.evaluate registry root scratch) ((c.setValues values).evaluate registry root scratch) :=
    truthful.evaluate orderly fresh rows
  unfold outcome writeBack Leaves
  rw [evaluate_session (fresh.setValues values) (fresh'.setValues values)]
  match ran : c.evaluate registry root scratch,
    ran' : (c.setValues values).evaluate registry root scratch with
  | .ok e, .ok e' =>
    rw [ran, ran'] at repeats
    refine ⟨?_, e'.values, rfl, repeats.truthful, fun {id value} => ?_⟩
    · show Except.ok (e'.value, e'.stats) = Except.ok (e.value, e.stats)
      rw [repeats.value, repeats.stats]
    · rw [repeats.rows]
      simp
  | .error halt, .error halt' =>
    rw [ran, ran'] at repeats
    refine ⟨?_, values, rfl, truthful, fun {id value} => ?_⟩
    · cases repeats trivial
      rfl
    · simp
  | .ok _, .error _ | .error _, .ok _ =>
    rw [ran, ran'] at repeats
    exact absurd trivial repeats

/-- Evaluations one after the other give what each of them gives on the table of the graph, and leave
the rows of all of them. -/
theorem writeBackAll_spec (orderly : c.Orderly) (fresh : c.FreshIn scratch) (rows : c.RowsUnwritten) :
    ∀ (runs : List (Node × Nat)), (∀ run ∈ runs, c.FreshIn run.2) → ∀ {values : ValueTable},
    Evaluator.Truthful ⟨c, registry, false⟩ values →
    (c.setValues values).outcomes registry runs =
        runs.map (fun run => c.outcome registry run.1 scratch) ∧
      ∃ after, (c.setValues values).writeBackAll registry runs = c.setValues after ∧
        ∀ {id : ValueId} {value : Value}, after[id]? = some value ↔
          values[id]? = some value ∨ ∃ root ∈ runs.map (·.1), c.Leaves registry root scratch id value
  | [], _, values, _ => ⟨rfl, values, rfl, by simp⟩
  | (root, session) :: rest, all, values, truthful => by
    obtain ⟨fresh', all⟩ := List.forall_mem_cons.1 all
    obtain ⟨outcome, between, wrote, truthful, gained⟩ :=
      writeBack_spec root orderly fresh fresh' rows truthful
    obtain ⟨outcomes, after, wroteAll, gainedAll⟩ :=
      writeBackAll_spec orderly fresh rows rest all truthful
    refine ⟨?_, after, ?_, fun {id value} => ?_⟩
    · rw [Context.outcomes, outcome, wrote, outcomes, List.map_cons]
    · unfold writeBackAll at wroteAll ⊢
      rw [List.foldl_cons, wrote, wroteAll]
    · rw [gainedAll, gained]
      simp [or_assoc]

/-- Which nodes have been evaluated decides what table there is in the end. -/
theorem writeBackAll_congr (orderly : c.Orderly) (rows : c.RowsUnwritten) {runs others : List (Node × Nat)}
    (fresh : ∀ run ∈ runs, c.FreshIn run.2) (fresh' : ∀ run ∈ others, c.FreshIn run.2)
    (members : ∀ root, root ∈ others.map (·.1) ↔ root ∈ runs.map (·.1)) :
    c.writeBackAll registry others = c.writeBackAll registry runs := by
  have start : Evaluator.Truthful ⟨c, registry, false⟩ c.values := .start rows
  -- the rows that are left are compared in the session of one of the evaluations
  cases runs with
  | nil =>
    have none : others = [] := by simpa [List.eq_nil_iff_forall_not_mem] using members
    rw [none]
  | cons run rest =>
    have scratch := fresh run List.mem_cons_self
    obtain ⟨-, left, wrote, gained⟩ := writeBackAll_spec orderly scratch rows others fresh' start
    obtain ⟨-, left', wrote', gained'⟩ := writeBackAll_spec orderly scratch rows _ fresh start
    have same : left = left' := by
      refine Std.ExtTreeMap.ext_getElem? fun id => Option.ext fun value => ?_
      rw [gained, gained']
      simp only [members]
    exact wrote.trans (same ▸ wrote'.symm)

end Context

namespace Spec

/-- Writing tables back does not change later evaluations: however many nodes are evaluated one after
the other, each of them gives what it gives on the graph as it was built. In the end there is the same
graph for the same nodes in another order. -/
theorem evaluations_unaffected_by_write_back {spec : Spec} {session scratch : Nat} {built : Built}
    (run : spec.build session = .ok built) (apart : scratch ≠ session) (registry : Registry)
    (runs : List (Node × Nat)) (sessions : ∀ run ∈ runs, run.2 ≠ session) :
    built.context.outcomes registry runs =
        runs.map (fun run => built.context.outcome registry run.1 scratch) ∧
      ∀ others : List (Node × Nat), (∀ run ∈ others, run.2 ≠ session) →
        (∀ root, root ∈ others.map (·.1) ↔ root ∈ runs.map (·.1)) →
        built.context.writeBackAll registry others = built.context.writeBackAll registry runs := by
  have compiled := compiled_of_build run
  have rows : built.context.RowsUnwritten := fun _ _ row => compiled.not_writes_row row
  have fresh : ∀ runs : List (Node × Nat), (∀ run ∈ runs, run.2 ≠ session) →
      ∀ run ∈ runs, built.context.FreshIn run.2 :=
    fun runs sessions other isRun => freshIn_of_build run (sessions other isRun)
  exact ⟨(Context.writeBackAll_spec compiled.orderly (freshIn_of_build run apart) rows runs
      (fresh runs sessions) (.start rows)).1,
    fun others sessions' members => Context.writeBackAll_congr compiled.orderly rows
      (fresh runs sessions) (fresh others sessions') members⟩

/-- Two entries that draw on a third one, in both orders. -/
theorem evaluations_unaffected_by_write_back_greeting :
    ∃ (built : Built) (choose greet : Node) (first second : Value × Stats),
      (greeting.build 7 = .ok built ∧ (8 : Nat) ≠ 7 ∧
        ∀ run ∈ [(choose, 9), (greet, 10)], run.2 ≠ 7) ∧
      built.node? "choose" = some choose ∧ built.node? "greet" = some greet ∧
      first.1.asString? = some "AdaAdaAdaAdaAda" ∧ second.1.asString? = first.1.asString? ∧
      second.2.functionsEvaluated < first.2.functionsEvaluated ∧
      built.context.outcomes .standard [(choose, 9), (greet, 10)] = [.ok first, .ok second] ∧
      built.context.writeBackAll .standard [(greet, 9), (choose, 10)] =
        built.context.writeBackAll .standard [(choose, 9), (greet, 10)] := by
  have holds : ((greeting.build 7).toOption.any fun built =>
      (built.node? "choose").any fun choose => (built.node? "greet").any fun greet =>
      (built.context.outcome .standard choose 8).toOption.any fun first =>
      (built.context.outcome .standard greet 8).toOption.any fun second =>
        decide (first.1.asString? = some "AdaAdaAdaAdaAda" ∧ second.1.asString? = first.1.asString? ∧
          second.2.functionsEvaluated < first.2.functionsEvaluated)) = true := by
    decide +kernel
  obtain ⟨built, builds, holds⟩ := (Option.any_eq_true _ _).1 holds
  obtain ⟨choose, isChoose, holds⟩ := (Option.any_eq_true _ _).1 holds
  obtain ⟨greet, isGreet, holds⟩ := (Option.any_eq_true _ _).1 holds
  obtain ⟨first, gives, holds⟩ := (Option.any_eq_true _ _).1 holds
  obtain ⟨second, gives', holds⟩ := (Option.any_eq_true _ _).1 holds
  obtain ⟨text, same, counts⟩ := of_decide_eq_true holds
  have builds := Result.eq_ok_of_toOption builds
  have apart : (8 : Nat) ≠ 7 := by decide
  have sessions : ∀ run ∈ [(choose, 9), (greet, 10)], run.2 ≠ 7 := by simp
  obtain ⟨outcomes, ordered⟩ := evaluations_unaffected_by_write_back builds apart .standard
    [(choose, 9), (greet, 10)] sessions
  refine ⟨built, choose, greet, first, second, ⟨builds, apart, sessions⟩, isChoose, isGreet, text, same,
    counts, ?_, ordered [(greet, 9), (choose, 10)] (by simp) (by simp [or_comm])⟩
  rw [outcomes, List.map_cons, List.map_cons, List.map_nil, Result.eq_ok_of_toOption gives,
    Result.eq_ok_of_toOption gives']

end Spec

end TagFlow
