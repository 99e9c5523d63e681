import CanonicalTokens.Proofs.Traversal

/-!
# The loop of a cursor

A cursor stands at a place of a tree and can move to the first child, to the next sibling and to the
parent. The loop enters the node it has come to. If the node is to be visited inside, the loop moves
to the first child, or leaves the node at once if there is none. From a node that is done with, it
moves to the next sibling; at the last sibling it moves to the parent and leaves that. It stops at
the root.

There is one run of the loop from every stage that it can reach, and it makes the calls that the
recursion on the tree makes.
-/

namespace CanonicalTokens

/-- Where the loop stands: in front of a node that it is to enter, or behind one it is done with. -/
inductive Stage where
  | ahead (place : Place)
  | behind (place : Place)

variable {State : Type}

/-- The runs of the loop that come to an end, with the calls made until then and the last state. -/
inductive LoopRun (visitor : Visitor State) (tree : Tree) :
    Stage → State → List (Call State) → State → Prop where
  | pass {place : Place} {node : Tree} {state entered final : State} {calls : List (Call State)}
      (hnode : tree.at? place = some node) (henter : visitor.enter node state = (entered, false))
      (hrest : LoopRun visitor tree (.behind place) entered calls final) :
      LoopRun visitor tree (.ahead place) state
        (⟨place, node, .entered false, state, entered⟩ :: calls) final
  | firstChild {place : Place} {node child : Tree} {state entered final : State}
      {calls : List (Call State)} (hnode : tree.at? place = some node)
      (henter : visitor.enter node state = (entered, true))
      (hchild : tree.at? (place ++ [0]) = some child)
      (hrest : LoopRun visitor tree (.ahead (place ++ [0])) entered calls final) :
      LoopRun visitor tree (.ahead place) state
        (⟨place, node, .entered true, state, entered⟩ :: calls) final
  | leaf {place : Place} {node : Tree} {state entered final : State} {calls : List (Call State)}
      (hnode : tree.at? place = some node) (henter : visitor.enter node state = (entered, true))
      (hchild : tree.at? (place ++ [0]) = none)
      (hrest : LoopRun visitor tree (.behind place) (visitor.leave node entered) calls final) :
      LoopRun visitor tree (.ahead place) state
        (⟨place, node, .entered true, state, entered⟩ ::
          ⟨place, node, .left, entered, visitor.leave node entered⟩ :: calls) final
  | nextSibling {place : Place} {index : Nat} {sibling : Tree} {state final : State}
      {calls : List (Call State)} (hsibling : tree.at? (place ++ [index + 1]) = some sibling)
      (hrest : LoopRun visitor tree (.ahead (place ++ [index + 1])) state calls final) :
      LoopRun visitor tree (.behind (place ++ [index])) state calls final
  | parent {place : Place} {index : Nat} {node : Tree} {state final : State}
      {calls : List (Call State)} (hsibling : tree.at? (place ++ [index + 1]) = none)
      (hnode : tree.at? place = some node)
      (hrest : LoopRun visitor tree (.behind place) (visitor.leave node state) calls final) :
      LoopRun visitor tree (.behind (place ++ [index])) state
        (⟨place, node, .left, state, visitor.leave node state⟩ :: calls) final
  | stop {state : State} : LoopRun visitor tree (.behind []) state [] state

namespace LoopRun

variable {visitor : Visitor State} {tree : Tree}

/-- The loop has no choice: all runs from a stage are the same. -/
theorem unique {stage : Stage} {state final final' : State} {calls calls' : List (Call State)}
    (hrun : LoopRun visitor tree stage state calls final)
    (hother : LoopRun visitor tree stage state calls' final') :
    calls = calls' ∧ final = final' := by
  induction hrun generalizing calls' with
  | pass hnode henter _ ih =>
    cases hother <;> simp_all
    exact ih ‹_›
  | firstChild hnode henter hchild _ ih =>
    cases hother <;> simp_all
    exact ih ‹_›
  | leaf hnode henter hchild _ ih =>
    cases hother <;> simp_all
    exact ih ‹_›
  | nextSibling hsibling _ ih =>
    generalize hstage : Stage.behind _ = stage at hother
    cases hother <;> simp_all
    exact ih ‹_›
  | parent hsibling hnode _ ih =>
    generalize hstage : Stage.behind _ = stage at hother
    cases hother <;> simp_all
    exact ih ‹_›
  | stop =>
    generalize hstage : Stage.behind _ = stage at hother
    cases hother <;> simp_all

mutual

/-- A run that goes on behind a node can be started in front of it. -/
theorem visit {place : Place} {node : Tree} {state final : State} {calls : List (Call State)}
    (hnode : tree.at? place = some node)
    (hrest : LoopRun visitor tree (.behind place) (visitor.fold node state) calls final) :
    LoopRun visitor tree (.ahead place) state (visitor.calls place node state ++ calls) final := by
  match node with
  | .node label children =>
    rcases henter : visitor.enter (.node label children) state with ⟨entered, _ | _⟩
    · rw [Visitor.fold_of_passed henter] at hrest
      rw [Visitor.calls_of_passed henter]
      exact .pass hnode henter hrest
    · rw [Visitor.fold_of_entered henter] at hrest
      rw [Visitor.calls_of_entered henter, List.cons_append, List.append_assoc]
      have hplaces := Tree.at?_concat hnode
      cases children with
      | nil => exact .leaf hnode henter (hplaces 0) hrest
      | cons child siblings =>
        exact .firstChild hnode henter (hplaces 0)
          (visitSiblings [] hnode rfl (List.cons_ne_nil child siblings) hrest)

/-- A run that goes on behind a node that was just left can be started in front of the first child
that is still to be visited. -/
theorem visitSiblings (done : List Tree) {place : Place} {node : Tree} {forest : List Tree}
    {state final : State} {calls : List (Call State)} (hnode : tree.at? place = some node)
    (hchildren : node.children = done ++ forest) (hne : forest ≠ [])
    (hrest : LoopRun visitor tree (.behind place)
      (visitor.leave node (visitor.foldForest forest state)) calls final) :
    LoopRun visitor tree (.ahead (place ++ [done.length])) state
      (visitor.forestCalls place done.length forest state ++
        ⟨place, node, .left, visitor.foldForest forest state,
          visitor.leave node (visitor.foldForest forest state)⟩ :: calls) final := by
  match forest with
  | [] => exact absurd rfl hne
  | child :: siblings =>
    have hplaces := Tree.at?_concat hnode
    have hchild : tree.at? (place ++ [done.length]) = some child := by simp [hplaces, hchildren]
    rw [Visitor.forestCalls, List.append_assoc]
    refine visit hchild ?_
    rw [Visitor.foldForest] at hrest ⊢
    -- The loop climbs from the last sibling only, so the parent is left exactly then.
    rcases hnext : siblings with _ | ⟨next, further⟩
    · have hlast : tree.at? (place ++ [done.length + 1]) = none := by
        simp [hplaces, hchildren, hnext]
      rw [hnext] at hrest
      exact .parent hlast hnode hrest
    · have hsibling : tree.at? (place ++ [done.length + 1]) = some next := by
        simp [hplaces, hchildren, hnext]
      have hdone : (done ++ [child]).length = done.length + 1 := by simp
      refine .nextSibling hsibling ?_
      rw [← hdone, ← hnext]
      exact visitSiblings (done ++ [child]) hnode (by simp [hchildren]) (by simp [hnext]) hrest

end

/-- The loop comes to an end, and does what the recursion on the tree does. -/
theorem iff_fold {state final : State} {calls : List (Call State)} :
    LoopRun visitor tree (.ahead []) state calls final ↔
      calls = visitor.calls [] tree state ∧ final = visitor.fold tree state := by
  have hrun : LoopRun visitor tree (.ahead []) state (visitor.calls [] tree state)
      (visitor.fold tree state) := by
    rw [← List.append_nil (visitor.calls [] tree state)]
    exact visit tree.at?_nil .stop
  constructor
  · exact fun hother => hother.unique hrun
  · rintro ⟨rfl, rfl⟩
    exact hrun

end LoopRun

end CanonicalTokens
