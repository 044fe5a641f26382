import TagFlow.Proofs.Evaluation.PipeAgreement
import TagFlow.Proofs.Evaluation.Unfolding
import TagFlow.Operation.Library

/-!
# Evaluation agrees with meaning

An evaluation runs each function once, notes it as completed, and reads results back from the one
table that is passed along. What ties the two together is an invariant of the progress (`Tracks`):
the row of each completed function holds what the function means, and all other rows are those of
the graph. With it, running a plan succeeds with what the root means, or fails with the error that
the meaning fails with (`runTree_spec`, `evaluate_eq_denote`).
-/

namespace TagFlow

/-- What the agreement rests on: an exact index, one writer for each value, and pipes whose nesting
ends and whose names do not clash. -/
structure Context.Orderly (c : Context) : Prop where
  exact : c.IndexExact
  distinct : c.DistinctReturns
  acyclic : c.NestingAcyclic
  slots : c.DistinctSlots
  apart : c.AbsoluteApart

namespace Evaluator

variable {m : Evaluator} {p p' : Progress} {tree : Tree}

/-! ### What a node means -/

theorem denote_supplier (node : Node) : m.denote (m.context.supplier node) = m.denote node := by
  cases node with
  | function id => rfl
  | value id =>
    cases produced : m.context.producerOf? id with
    | none => rw [Context.supplier_of_unproduced produced]
    | some producer =>
      rw [Context.supplier_of_producerOf? produced]
      conv_rhs => rw [denote]
      simp only [produced]

/-- What a combine or pipe makes of the values of its arguments. -/
def denoteBody (m : Evaluator) (id : FunctionId) (entry : FunctionEntry) (values : List Value) :
    Meaning Value :=
  match entry with
  | .combine definition _ _ => liftM (m.denoteCombine id definition .combineArity values)
  | .pipe definition args _ => m.denotePipe id definition (args.names.zip values)
  | .cond _ _ => liftM (invalid id .condEntry : Except Halt Value)

theorem denote_function {id : FunctionId} {entry : FunctionEntry}
    (known : m.context.functions[id]? = some entry) (isArgs : entry.kind ≠ .cond) :
    m.denote (.function id) =
      (entry.args.values.mapM fun value => m.denote (.value value)) >>= m.denoteBody id entry := by
  rw [denote]
  simp only [known]
  cases entry with
  | combine => rfl
  | pipe => rfl
  | cond => exact absurd rfl isArgs

/-- What a cond makes of the value of its condition. -/
def denoteChoice (m : Evaluator) (id : FunctionId) (d : CondDefinition) (flag : Value) :
    Meaning Value :=
  match flag.asBool? with
  | none => throw (.failed (.functionExecution id (.typeMismatch "cond" .boolean flag.baseType)))
  | some true => m.denote (.function d.thenBranch)
  | some false => m.denote (.function d.elseBranch)

theorem denote_cond {id : FunctionId} {definition : CondId} {returns : ValueId} {d : CondDefinition}
    (known : m.context.functions[id]? = some (.cond definition returns))
    (found : m.context.conds[definition]? = some d) :
    m.denote (.function id) = m.denote d.condition >>= m.denoteChoice id d := by
  rw [denote]
  simp only [known, found]
  rfl

/-! ### Progress -/

/-- The node has its value: a row of the graph, or a function that was run. -/
def Settled (c : Context) (p : Progress) : Node → Prop
  | .value id => ∃ value, c.values[id]? = some value
  | .function id => id ∈ p.completed

/-- The rows of completed functions hold what the functions mean; all others are those of the
graph. Scratch identifiers are fresh. -/
structure Tracks (m : Evaluator) (p : Progress) : Prop where
  fresh : m.context.FreshIn p.session
  completed : ∀ {function}, function ∈ p.completed →
    ∃ entry value, m.context.functions[function]? = some entry ∧
      (m.denote (.function function)).run = some (.ok value) ∧
      p.table[entry.returns]? = some value
  others : ∀ {id}, (∀ function ∈ p.completed, ¬ m.context.Writes function id) →
    p.table[id]? = m.context.values[id]?

theorem Settled.mono {c : Context} {node : Node} (more : ∀ f ∈ p.completed, f ∈ p'.completed)
    (settled : Settled c p node) : Settled c p' node := by
  cases node with
  | value => exact settled
  | function id => exact more id settled

theorem Tracks.start {session : Nat} (fresh : m.context.FreshIn session) :
    Tracks m (.start session m.context.values) where
  fresh := fresh
  completed h := absurd h Std.ExtTreeSet.not_mem_empty
  others _ := rfl

theorem Tracks.showsUnwritten (tracks : Tracks m p) : ShowsUnwritten m.context p.table :=
  fun _ unwritten => tracks.others fun function _ => unwritten function

theorem Tracks.readValue (tracks : Tracks m p) : Tracks m p.readValue :=
  ⟨tracks.fresh, tracks.completed, tracks.others⟩

theorem Tracks.countSteps (tracks : Tracks m p) (steps : Nat) : Tracks m (p.countSteps steps) :=
  ⟨tracks.fresh, tracks.completed, tracks.others⟩

theorem mem_completed_complete {function other : FunctionId} {returns : ValueId} {value : Value} :
    other ∈ (p.complete function returns value).completed ↔
      other = function ∨ other ∈ p.completed := by
  show other ∈ p.completed.insert function ↔ _
  rw [Std.ExtTreeSet.mem_insert, Std.LawfulEqCmp.compare_eq_iff_eq]
  exact or_congr_left eq_comm

/-- A function that has run keeps the invariant, since no other function writes its row. -/
theorem Tracks.complete (tracks : Tracks m p) (distinct : m.context.DistinctReturns)
    {function : FunctionId} {entry : FunctionEntry} {value : Value}
    (known : m.context.functions[function]? = some entry)
    (means : (m.denote (.function function)).run = some (.ok value)) :
    Tracks m (p.complete function entry.returns value) where
  fresh := tracks.fresh
  completed {other} h := by
    rcases mem_completed_complete.1 h with rfl | h
    · exact ⟨entry, value, known, means, Table.getElem?_insert_self⟩
    · obtain ⟨otherEntry, otherValue, otherKnown, otherMeans, row⟩ := tracks.completed h
      -- functions write different rows, so a row is overwritten only by its own function
      by_cases same : entry.returns = otherEntry.returns
      · have := distinct (Context.writes_of_getElem? known)
          (same ▸ Context.writes_of_getElem? otherKnown)
        subst this
        exact ⟨entry, value, known, means, Table.getElem?_insert_self⟩
      · exact ⟨otherEntry, otherValue, otherKnown, otherMeans,
          (Table.getElem?_insert_of_ne same).trans row⟩
  others {id} unwritten := by
    have different : entry.returns ≠ id := by
      rintro rfl
      exact unwritten function (mem_completed_complete.2 (.inl rfl))
        (Context.writes_of_getElem? known)
    refine (Table.getElem?_insert_of_ne different).trans (tracks.others fun other h => ?_)
    exact unwritten other (mem_completed_complete.2 (.inr h))

/-- A settled node has what it means in the row of its tree. -/
theorem Tracks.row (tracks : Tracks m p) (orderly : m.context.Orderly)
    (unfolds : tree.Unfolds m.context) (settled : Settled m.context p tree.node) :
    ∃ value, (m.denote tree.node).run = some (.ok value) ∧
      p.table[tree.output]? = some value := by
  cases unfolds with
  | @value id unproduced =>
    obtain ⟨value, row⟩ := settled
    refine ⟨value, ?_, ?_⟩
    · show (m.denote (.value id)).run = _
      rw [denote]
      simp only [unproduced, readRow, row]
      rfl
    · exact (tracks.others fun f _ => orderly.exact.not_writes unproduced).trans row
  | function known =>
    obtain ⟨entry, value, known', means, row⟩ := tracks.completed settled
    rw [known] at known'
    cases known'
    exact ⟨value, means, row⟩
  | cond known =>
    obtain ⟨entry, value, known', means, row⟩ := tracks.completed settled
    rw [known] at known'
    cases known'
    exact ⟨value, means, row⟩

/-- What running a tree from a progress should give: it settles the node, or fails as the meaning
of the node does. -/
def Agrees (m : Evaluator) (node : Node) (p : Progress) (result : Except Halt Progress) : Prop :=
  match result with
  | .ok p' => Tracks m p' ∧ (∀ f ∈ p.completed, f ∈ p'.completed) ∧ Settled m.context p' node
  | .error halt => (m.denote node).run = some (.error halt)

theorem getElem?_of_readRow {table : ValueTable} {row : ValueId} {value : Value}
    (read : readRow table row = .ok value) : table[row]? = some value := by
  unfold readRow at read
  split at read
  · next found =>
    cases read
    exact found
  · cases read

/-! ### Running a node -/

section node

variable {id : FunctionId}

/-- A function that has run is not run again. -/
theorem runTree_of_done (isNode : tree.node = .function id) (done : id ∈ p.completed) :
    m.runTree tree p = .ok p := by
  cases tree with
  | value => cases isNode
  | function id entry children =>
    cases isNode
    rw [runTree]
    exact if_pos done
  | cond id returns condition thenBranch elseBranch =>
    cases isNode
    rw [runTree]
    exact if_pos done

/-- A function that is new is run after what is below it. -/
theorem runTree_function_of_new {entry : FunctionEntry} {children : List Tree} (new : id ∉ p.completed) :
    m.runTree (.function id entry children) p =
      m.runTrees children p >>= fun p => m.runFunction id entry p := by
  rw [runTree]
  exact if_neg new

/-- Run the branch of a cond that has been chosen, and hand on its value. -/
def runChosen (m : Evaluator) (id : FunctionId) (returns : ValueId) (branch : Tree) (p : Progress) :
    Except Halt Progress := do
  let q ← m.runTree branch p
  let value ← readRow q.table branch.output
  return q.complete id returns value

/-- A cond that is new is run after its condition, and runs one of its branches. -/
theorem runTree_cond_of_new {returns : ValueId} {condition thenBranch elseBranch : Tree}
    (new : id ∉ p.completed) :
    m.runTree (.cond id returns condition thenBranch elseBranch) p = (do
      let p ← m.runTree condition p
      let flag ← readRow p.table condition.output
      match flag.asBool? with
      | none => fail (.functionExecution id (.typeMismatch "cond" .boolean flag.baseType))
      | some choice => m.runChosen id returns (if choice then thenBranch else elseBranch) p) := by
  rw [runTree]
  refine (if_neg new).trans ?_
  congr 1
  funext p
  congr 1
  funext flag
  cases flag.asBool? with
  | none => rfl
  | some choice => cases choice <;> rfl

end node

/-! ### Running the arguments of a function -/

/-- Running trees one after the other settles them all, or fails as the first meaning that fails. -/
theorem runTrees_spec : ∀ (trees : List Tree) (p : Progress), Tracks m p →
    (∀ tree ∈ trees, ∀ p, Tracks m p → Agrees m tree.node p (m.runTree tree p)) →
    match m.runTrees trees p with
    | .ok p' => Tracks m p' ∧ (∀ f ∈ p.completed, f ∈ p'.completed) ∧
        ∀ tree ∈ trees, Settled m.context p' tree.node
    | .error halt => (∀ tree ∈ trees, tree.Unfolds m.context) → m.context.Orderly →
        ((trees.map Tree.node).mapM m.denote).run = some (.error halt)
  | [], p, tracks, _ => ⟨tracks, fun _ h => h, by simp⟩
  | tree :: rest, p, tracks, agrees => by
    have head := agrees tree List.mem_cons_self p tracks
    rw [runTrees]
    cases ran : m.runTree tree p with
    | error halt =>
      rw [ran] at head
      intro _ _
      rw [List.map_cons, List.mapM_cons, Meaning.run_bind_error head]
    | ok p₁ =>
      rw [ran] at head
      obtain ⟨tracks₁, more, settled⟩ := head
      have tail := runTrees_spec rest p₁ tracks₁
        fun tree m => agrees tree (List.mem_cons_of_mem _ m)
      show match m.runTrees rest p₁ with
        | .ok p' => _
        | .error halt => _
      cases ranRest : m.runTrees rest p₁ with
      | error halt =>
        rw [ranRest] at tail
        intro unfolds orderly
        -- the head has its value, so the first meaning that fails is one of the rest
        obtain ⟨value, means, -⟩ := tracks₁.row orderly (unfolds tree List.mem_cons_self) settled
        have fails := tail (fun tree m => unfolds tree (List.mem_cons_of_mem _ m)) orderly
        rw [List.map_cons, List.mapM_cons, Meaning.run_bind_ok means,
          Meaning.run_bind_error fails]
      | ok p₂ =>
        rw [ranRest] at tail
        obtain ⟨tracks₂, more₂, settled₂⟩ := tail
        refine ⟨tracks₂, fun f h => more₂ f (more f h), fun other m => ?_⟩
        rcases List.mem_cons.1 m with rfl | m
        · exact settled.mono more₂
        · exact settled₂ other m

/-- The arguments of a function whose children are settled can be read, and are what they mean. -/
theorem Tracks.readRows (tracks : Tracks m p) (orderly : m.context.Orderly) :
    ∀ (args : List ValueId) (children : List Tree),
      children.map Tree.node = args.map (fun value => m.context.supplier (.value value)) →
      (∀ child ∈ children, child.Unfolds m.context) →
      (∀ child ∈ children, Settled m.context p child.node) →
      ∃ values, Evaluator.readRows p.table args = .ok values ∧
        (args.mapM fun value => m.denote (.value value)).run = some (.ok values)
  | [], _, _, _, _ => ⟨[], rfl, rfl⟩
  | arg :: args, [], nodes, _, _ => by cases nodes
  | arg :: args, child :: children, nodes, unfolds, settled => by
    rw [List.map_cons, List.map_cons, List.cons.injEq] at nodes
    have here := unfolds child List.mem_cons_self
    obtain ⟨value, means, row⟩ := tracks.row orderly here (settled child List.mem_cons_self)
    obtain ⟨values, read, meanings⟩ := tracks.readRows orderly args children nodes.2
      (fun child m => unfolds child (List.mem_cons_of_mem _ m))
      (fun child m => settled child (List.mem_cons_of_mem _ m))
    refine ⟨value :: values, ?_, ?_⟩
    · have head : readRow p.table arg = .ok value := by
        rw [here.output_eq orderly.exact nodes.1] at row
        simp only [readRow, row]
      unfold Evaluator.readRows at read ⊢
      rw [List.mapM_cons, head, read]
      rfl
    · rw [nodes.1, denote_supplier] at means
      rw [List.mapM_cons, Meaning.run_bind_ok means, Meaning.run_bind_ok meanings]
      rfl

/-! ### Running a function -/

/-- Running a combine or pipe on the values of its arguments agrees with its body. -/
theorem runFunction_eq (orderly : m.context.Orderly) (tracks : Tracks m p) (id : FunctionId)
    {entry : FunctionEntry} {values : List Value}
    (read : readRows p.table entry.args.values = .ok values) :
    match m.runFunction id entry p with
    | .ok p' => ∃ value steps, (m.denoteBody id entry values).run = some (.ok value) ∧
        p' = (p.countSteps steps).complete id entry.returns value
    | .error halt => (m.denoteBody id entry values).run = some (.error halt) := by
  cases entry with
  | cond => rfl
  | combine definition args returns =>
    have read : readRows p.table args.values = .ok values := read
    unfold runFunction denoteBody denoteCombine
    dsimp only
    cases m.context.combines[definition]? with
    | none => rfl
    | some d =>
      dsimp only
      rw [read]
      match values with
      | [] | [_] | _ :: _ :: _ :: _ => rfl
      | [left, right] =>
        show match (m.combine id d left right >>= fun value => .ok (p.complete id returns value)) with
          | .ok p' => _
          | .error halt => _
        cases ran : m.combine id d left right with
        | error halt => simp [ran]; rfl
        | ok value => exact ⟨value, 0, by simp [ran], rfl⟩
  | pipe definition args returns =>
    have read : readRows p.table args.values = .ok values := read
    -- of the table a pipe reads only rows that no function writes, and these are still shown
    have agrees := denotePipe_eq id orderly.slots orderly.apart tracks.showsUnwritten tracks.fresh
      (pipeLevels m.context) p.stats.pipeSteps definition (args.names.zip values)
      (orderly.acyclic.nestedWithin definition)
    unfold runFunction denoteBody
    dsimp only
    rw [read, agrees]
    show match (m.runPipe id p.table (pipeLevels m.context) ⟨p.session, p.stats.pipeSteps⟩ definition
        (args.names.zip values) >>=
        fun result => .ok ((p.countSteps result.2).complete id returns result.1)) with
      | .ok p' => _
      | .error halt => _
    cases m.runPipe id p.table (pipeLevels m.context) ⟨p.session, p.stats.pipeSteps⟩ definition
      (args.names.zip values) with
    | error halt => rfl
    | ok result => exact ⟨result.1, result.2, rfl, rfl⟩

/-! ### Running a plan -/

/-- Running the selected branch of a cond, and handing on its value. -/
theorem runBranch_spec (orderly : m.context.Orderly) {id : FunctionId} {definition : CondId}
    {returns : ValueId} {branch : Tree}
    (known : m.context.functions[id]? = some (.cond definition returns))
    (unfolds : branch.Unfolds m.context)
    (selects : (m.denote (.function id)).run = (m.denote branch.node).run)
    (agrees : Agrees m branch.node p (m.runTree branch p)) :
    Agrees m (.function id) p (do
      let p ← m.runTree branch p
      let value ← readRow p.table branch.output
      return p.complete id returns value) := by
  cases ran : m.runTree branch p with
  | error halt =>
    rw [ran] at agrees
    exact selects.trans agrees
  | ok p₁ =>
    rw [ran] at agrees
    obtain ⟨tracks, more, settled⟩ := agrees
    obtain ⟨value, means, row⟩ := tracks.row orderly unfolds settled
    have read : readRow p₁.table branch.output = .ok value := by simp only [readRow, row]
    show Agrees m (.function id) p (readRow p₁.table branch.output >>= fun value =>
      .ok (p₁.complete id returns value))
    rw [read]
    refine ⟨tracks.complete orderly.distinct known (selects.trans means), ?_, ?_⟩
    · exact fun f h => mem_completed_complete.2 (.inr (more f h))
    · exact mem_completed_complete.2 (.inl rfl)

/-- Running a combine or pipe, once running its children is known to agree with their meanings. -/
theorem runFunctionTree_spec (orderly : m.context.Orderly) {id : FunctionId} {entry : FunctionEntry}
    {children : List Tree} (known : m.context.functions[id]? = some entry)
    (isArgs : entry.kind ≠ .cond) (nodes : children.map Tree.node =
      entry.args.values.map (fun value => m.context.supplier (.value value)))
    (unfold : ∀ child ∈ children, child.Unfolds m.context)
    (agrees : ∀ child ∈ children, ∀ p, Tracks m p → Agrees m child.node p (m.runTree child p))
    (tracks : Tracks m p) :
    Agrees m (.function id) p (m.runTree (.function id entry children) p) := by
  have meaning := congrArg ExceptT.run (denote_function known isArgs)
  rw [runTree]
  split
  · next done => exact ⟨tracks, fun _ h => h, done⟩
  · have ran := runTrees_spec children p tracks agrees
    cases result : m.runTrees children p with
    | error halt =>
      rw [result] at ran
      have fails := ran unfold orderly
      show (m.denote (.function id)).run = _
      rw [nodes, List.mapM_map] at fails
      simp only [Function.comp_def, denote_supplier] at fails
      rw [meaning]
      exact Meaning.run_bind_error fails
    | ok p₁ =>
      rw [result] at ran
      obtain ⟨tracks₁, more, settled⟩ := ran
      obtain ⟨values, read, meanings⟩ :=
        tracks₁.readRows orderly entry.args.values children nodes unfold settled
      have body := runFunction_eq orderly tracks₁ id read
      rw [Meaning.run_bind_ok meanings] at meaning
      show Agrees m (.function id) p (m.runFunction id entry p₁)
      cases run : m.runFunction id entry p₁ with
      | error halt =>
        rw [run] at body
        show (m.denote (.function id)).run = _
        rw [meaning]
        exact body
      | ok p₂ =>
        rw [run] at body
        obtain ⟨value, steps, means, rfl⟩ := body
        rw [← meaning] at means
        refine ⟨(tracks₁.countSteps steps).complete orderly.distinct known means, ?_, ?_⟩
        · exact fun f h => mem_completed_complete.2 (.inr (more f h))
        · exact mem_completed_complete.2 (.inl rfl)

/-- More functions had run before: what agrees from there agrees from here. -/
theorem Agrees.of_later {node : Node} {result : Except Halt Progress}
    (more : ∀ f ∈ p.completed, f ∈ p'.completed) (agrees : Agrees m node p' result) :
    Agrees m node p result := by
  cases result with
  | error halt => exact agrees
  | ok p'' =>
    obtain ⟨tracks, kept, settled⟩ := agrees
    exact ⟨tracks, fun f h => kept f (more f h), settled⟩

/-- Running a cond, once running its condition and its branches is known to agree with their
meanings. -/
theorem runCondTree_spec (orderly : m.context.Orderly) {id : FunctionId} {definition : CondId}
    {returns : ValueId} {d : CondDefinition} {condition thenBranch elseBranch : Tree}
    (known : m.context.functions[id]? = some (.cond definition returns))
    (found : m.context.conds[definition]? = some d)
    (conditionNode : condition.node = m.context.supplier d.condition)
    (thenNode : thenBranch.node = .function d.thenBranch)
    (elseNode : elseBranch.node = .function d.elseBranch)
    (conditionUnfolds : condition.Unfolds m.context) (thenUnfolds : thenBranch.Unfolds m.context)
    (elseUnfolds : elseBranch.Unfolds m.context)
    (conditionAgrees : ∀ p, Tracks m p → Agrees m condition.node p (m.runTree condition p))
    (thenAgrees : ∀ p, Tracks m p → Agrees m thenBranch.node p (m.runTree thenBranch p))
    (elseAgrees : ∀ p, Tracks m p → Agrees m elseBranch.node p (m.runTree elseBranch p))
    (tracks : Tracks m p) :
    Agrees m (.function id) p (m.runTree (.cond id returns condition thenBranch elseBranch) p) := by
  have meaning := congrArg ExceptT.run (denote_cond known found)
  rw [runTree]
  split
  · next done => exact ⟨tracks, fun _ h => h, done⟩
  · have agrees := conditionAgrees p tracks
    cases result : m.runTree condition p with
    | error halt =>
      rw [result] at agrees
      show (m.denote (.function id)).run = _
      rw [meaning]
      rw [conditionNode] at agrees
      unfold Agrees at agrees
      rw [denote_supplier] at agrees
      exact Meaning.run_bind_error agrees
    | ok p₁ =>
      rw [result] at agrees
      obtain ⟨tracks₁, more, settled⟩ := agrees
      obtain ⟨flag, means, row⟩ := tracks₁.row orderly conditionUnfolds settled
      rw [conditionNode, denote_supplier] at means
      rw [Meaning.run_bind_ok means] at meaning
      have read : readRow p₁.table condition.output = .ok flag := by simp only [readRow, row]
      show Agrees m (.function id) p (readRow p₁.table condition.output >>= fun flag => _)
      rw [read]
      -- the branch runs from where the condition left off
      apply Agrees.of_later more
      show Agrees m (.function id) p₁ (match flag.asBool? with
        | none => _
        | some true => _
        | some false => _)
      unfold denoteChoice at meaning
      cases choice : flag.asBool? with
      | none =>
        rw [choice] at meaning
        exact meaning
      | some b =>
        rw [choice] at meaning
        cases b with
        | true =>
          rw [← thenNode] at meaning
          exact runBranch_spec orderly known thenUnfolds meaning (thenAgrees p₁ tracks₁)
        | false =>
          rw [← elseNode] at meaning
          exact runBranch_spec orderly known elseUnfolds meaning (elseAgrees p₁ tracks₁)

/-- Running a tree that unfolds the graph settles its node, or fails as the meaning of the node
does. -/
theorem runTree_spec (orderly : m.context.Orderly) (unfolds : tree.Unfolds m.context) :
    ∀ p, Tracks m p → Agrees m tree.node p (m.runTree tree p) := by
  induction unfolds with
  | @value id unproduced =>
    intro p tracks
    -- no function writes the value, so the table still shows the row of the graph
    have row : p.table[id]? = m.context.values[id]? :=
      tracks.others fun f _ => orderly.exact.not_writes unproduced
    rw [runTree, Std.ExtTreeMap.contains_eq_isSome_getElem?, row]
    cases found : m.context.values[id]? with
    | none =>
      show (m.denote (.value id)).run = _
      rw [denote]
      simp only [unproduced, readRow, found]
      rfl
    | some value => exact ⟨tracks.readValue, fun _ h => h, value, found⟩
  | function known isArgs nodes unfold ih =>
    intro p tracks
    exact runFunctionTree_spec orderly known isArgs nodes unfold ih tracks
  | cond known found conditionNode thenNode elseNode conditionUnfolds thenUnfolds elseUnfolds
      ihCondition ihThen ihElse =>
    intro p tracks
    exact runCondTree_spec orderly known found conditionNode thenNode elseNode conditionUnfolds
      thenUnfolds elseUnfolds ihCondition ihThen ihElse tracks

/-- What has been evaluated has a plan. -/
theorem exists_plan {root : Node} {session : Nat} {evaluation : Evaluation}
    (ran : m.evaluate root session = .ok evaluation) : ∃ plan, Plan.build m.context root = .ok plan := by
  unfold evaluate at ran
  cases planned : Plan.build m.context root with
  | ok plan => exact ⟨plan, rfl⟩
  | error e =>
    rw [planned] at ran
    cases ran

/-- Where there is a plan, evaluation agrees with the meaning of the root. -/
theorem denote_eq_evaluate (orderly : m.context.Orderly) {session : Nat}
    (fresh : m.context.FreshIn session) {root : Node} {plan : Plan}
    (planned : Plan.build m.context root = .ok plan) :
    (m.denote root).run = some ((m.evaluate root session).map (·.value)) := by
  have built := Plan.build_spec m.context root
  rw [planned] at built
  obtain ⟨unfolds, node⟩ := built
  have agrees := runTree_spec orderly unfolds (.start session m.context.values) (.start fresh)
  unfold evaluate evaluateTree
  rw [planned]
  rw [node] at agrees
  show _ = some ((m.runTree plan.tree (.start session m.context.values) >>= fun p => _ :
    Except Halt Evaluation).map (·.value))
  cases ran : m.runTree plan.tree (.start session m.context.values) with
  | error halt =>
    rw [ran] at agrees
    exact (congrArg ExceptT.run (denote_supplier root)).symm.trans agrees
  | ok p =>
    rw [ran] at agrees
    obtain ⟨tracks, -, settled⟩ := agrees
    obtain ⟨value, means, row⟩ := tracks.row orderly unfolds (node ▸ settled)
    rw [node, denote_supplier] at means
    have read : readRow p.table plan.tree.output = .ok value := by simp only [readRow, row]
    show _ = some ((readRow p.table plan.tree.output >>= fun value =>
      .ok ⟨value, p.table, p.stats⟩ : Except Halt Evaluation).map (·.value))
    rw [read, means]
    rfl

/-- What has been evaluated has a tree, and means the value that evaluation gave. -/
theorem denote_of_evaluate (orderly : m.context.Orderly) {session : Nat}
    (fresh : m.context.FreshIn session) {root : Node} {evaluation : Evaluation}
    (ran : m.evaluate root session = .ok evaluation) : ∃ tree : Tree, tree.Unfolds m.context ∧
      tree.node = m.context.supplier root ∧ (m.denote root).run = some (.ok evaluation.value) := by
  obtain ⟨plan, planned⟩ := exists_plan ran
  have unfolding := Plan.build_spec m.context root
  rw [planned] at unfolding
  have means := denote_eq_evaluate orderly fresh planned
  rw [ran] at means
  exact ⟨plan.tree, unfolding.1, unfolding.2, means⟩

end Evaluator

namespace Context

namespace Diamond

theorem reachable : diamond.Reachable :=
  .insertFunction _ _ <| .insertFunction _ _ <| .insertFunction _ _ <| .insertCond _ _ <|
    .insertPipe _ _ <| .insertPipe _ _ <| .insertCombine _ _ <| .insertValue _ _ .empty

theorem writes_cases {function : FunctionId} {value : ValueId}
    (writes : diamond.Writes function value) :
    function = check ∧ value = checked ∨ function = choose ∧ value = chosen ∨
      function = pair ∧ value = both := by
  have listed : diamond.functions.toList.map (fun row => (row.1, row.2.returns)) =
      [(check, checked), (choose, chosen), (pair, both)] := by decide +kernel
  obtain ⟨entry, known, rfl⟩ := writes
  have member := List.mem_map_of_mem (f := fun row => (row.1, row.2.returns))
    (Table.mem_toList_iff.2 known)
  rw [listed] at member
  simpa using member

theorem distinctReturns : diamond.DistinctReturns := by
  intro value function other writes otherWrites
  rcases writes_cases writes with ⟨rfl, rfl⟩ | ⟨rfl, rfl⟩ | ⟨rfl, rfl⟩ <;>
    rcases writes_cases otherWrites with ⟨rfl, h⟩ | ⟨rfl, h⟩ | ⟨rfl, h⟩ <;>
      first | rfl | exact absurd h (by decide)

theorem freshIn (session : Nat) : diamond.FreshIn session where
  slots known input isInput := by
    apply Id.not_ofSession
    rcases pipes_cases known with ⟨rfl, rfl⟩ | ⟨rfl, rfl⟩
    · rw [List.mem_singleton.1 isInput]
      decide
    · rw [List.mem_singleton.1 isInput]
      decide
  absolute known step isStep name value isArg := by
    apply Id.not_ofSession
    rcases pipes_cases known with ⟨rfl, rfl⟩ | ⟨rfl, rfl⟩
    · simp only [innerPipe, List.mem_singleton] at isStep
      subst isStep
      have arg : name = "b" ∧ value = flag := by simpa using isArg
      rw [arg.2]
      decide
    · simp only [outerPipe, List.mem_cons, List.not_mem_nil, or_false] at isStep
      rcases isStep with rfl | rfl <;> simp at isArg

end Diamond

end Context

end TagFlow
