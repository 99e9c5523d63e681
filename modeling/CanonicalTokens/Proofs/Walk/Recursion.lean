import CanonicalTokens.Proofs.CursorLoop
import CanonicalTokens.Walk

/-!
# The walk as a recursion

What the walk does with a node can be said without a visitor and without a cursor: a node is
processed, given the open scopes and the tokens emitted so far, by its own part and then by
processing its children from left to right. The walk gives the tokens and the tally of this
recursion, and so does every run of a cursor's loop; there is exactly one such run, and it enters
and leaves the nodes as brackets open and close.
-/

namespace CanonicalTokens.Walk

mutual

def process (walk : Walk) : Tree → State → State
  | .node label children, state =>
    let node := Tree.node label children
    match walk.part node with
    | .ignored => state
    | .literal rule =>
      state.emit (.placeholder
        (rule.resolve (node.text walk.source) walk.options.distinguishNumbers))
    | .identifier => state.emitName (node.text walk.source)
    | .construct =>
      let opened := if walk.bounds node then state.scopes.push else state.scopes
      let declared := opened.declareAll (walk.rules.declaredNames walk.source node)
      let emitted :=
        if children.isEmpty then walk.emitText node ⟨declared, state.tokens⟩
        else ⟨declared, state.tokens⟩
      let inner := walk.processForest children emitted
      if walk.bounds node then { inner with scopes := inner.scopes.pop } else inner

def processForest (walk : Walk) : List Tree → State → State
  | [], state => state
  | tree :: rest, state => walk.processForest rest (walk.process tree state)

end

mutual

/-- The recursion over a tree visits it as the traversal does, node by node. -/
theorem fold_eq_process (walk : Walk) (tree : Tree) (state : State) :
    walk.visitor.fold tree state = walk.process tree state := by
  match tree with
  | .node label children =>
    rw [Visitor.fold, process]
    simp only [visitor, enter, leave]
    cases walk.part (.node label children) with
    | ignored => rfl
    | literal rule => rfl
    | identifier => rfl
    | construct =>
      have hforest := foldForest_eq_processForest walk children
      simp only [visitor] at hforest
      simp only [hforest, openConstruct, Tree.isLeaf, Tree.children]
      rfl

theorem foldForest_eq_processForest (walk : Walk) (forest : List Tree) (state : State) :
    walk.visitor.foldForest forest state = walk.processForest forest state := by
  match forest with
  | [] => rw [Visitor.foldForest, processForest]
  | tree :: rest =>
    rw [Visitor.foldForest, processForest, fold_eq_process walk tree,
      foldForest_eq_processForest walk rest]

end

/-- The walk is the recursion, and a loop with a cursor does nothing else: it comes to an end in
just one way, with the state of the recursion and with calls that nest. -/
theorem run_eq_process (walk : Walk) (tree : Tree) :
    walk.run tree = ⟨(walk.process tree .initial).tokens.toList,
      (walk.process tree .initial).scopes.tally⟩ ∧
    ∃ calls, (∀ made final, LoopRun walk.visitor tree (.ahead []) .initial made final ↔
        made = calls ∧ final = walk.process tree .initial) ∧
      (∀ call ∈ calls, tree.at? call.place = some call.node) ∧ Visitor.Nested calls := by
  constructor
  · rw [run, Visitor.traverse_eq_fold, fold_eq_process]
  refine ⟨walk.visitor.calls [] tree .initial, ?_, ?_, walk.visitor.nested_calls [] tree .initial⟩
  · intro made final
    rw [LoopRun.iff_fold, fold_eq_process]
  · intro call hmem
    obtain ⟨way, hplace, hnode⟩ := Visitor.at?_of_mem_calls hmem
    rw [hplace, List.nil_append, hnode]

end CanonicalTokens.Walk
