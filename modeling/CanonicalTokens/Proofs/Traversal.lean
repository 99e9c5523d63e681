import CanonicalTokens.Proofs.Place
import CanonicalTokens.Tree.Traversal

/-!
# What a traversal does, call by call

A traversal is told apart from another one with the same result by the calls it makes of its
visitor: which nodes it enters and leaves, in which order, with which states. The recursion on the
tree gives the list of these calls. A loop that moves a cursor from place to place makes the same
calls: it comes to an end for every visitor and every tree, and it enters and leaves nodes as
brackets open and close.
-/

namespace CanonicalTokens

/-- What is done at a node. Entering says whether the children are to be visited. -/
inductive Passage where
  | entered (inside : Bool)
  | left
  deriving DecidableEq

structure Call (State : Type) where
  place : Place
  node : Tree
  passage : Passage
  before : State
  after : State

namespace Visitor

variable {State : Type}

mutual

def calls (visitor : Visitor State) (place : Place) : Tree → State → List (Call State)
  | .node label children, state =>
    match visitor.enter (.node label children) state with
    | (entered, false) => [⟨place, .node label children, .entered false, state, entered⟩]
    | (entered, true) =>
      let visited := visitor.foldForest children entered
      ⟨place, .node label children, .entered true, state, entered⟩ ::
        (visitor.forestCalls place 0 children entered ++
          [⟨place, .node label children, .left, visited,
            visitor.leave (.node label children) visited⟩])

def forestCalls (visitor : Visitor State) (place : Place) (index : Nat) :
    List Tree → State → List (Call State)
  | [], _ => []
  | tree :: rest, state =>
    visitor.calls (place ++ [index]) tree state ++
      visitor.forestCalls place (index + 1) rest (visitor.fold tree state)

end

variable {visitor : Visitor State} {place : Place} {node : Tree} {state entered : State}

/-! ### A node that is entered -/

theorem fold_of_passed (henter : visitor.enter node state = (entered, false)) :
    visitor.fold node state = entered := by
  cases node
  rw [fold, henter]

theorem fold_of_entered (henter : visitor.enter node state = (entered, true)) :
    visitor.fold node state =
      visitor.leave node (visitor.foldForest node.children entered) := by
  cases node
  rw [fold, henter]
  rfl

theorem calls_of_passed (henter : visitor.enter node state = (entered, false)) :
    visitor.calls place node state = [⟨place, node, .entered false, state, entered⟩] := by
  cases node
  rw [calls, henter]

theorem calls_of_entered (henter : visitor.enter node state = (entered, true)) :
    visitor.calls place node state =
      ⟨place, node, .entered true, state, entered⟩ ::
        (visitor.forestCalls place 0 node.children entered ++
          [⟨place, node, .left, visitor.foldForest node.children entered,
            visitor.leave node (visitor.foldForest node.children entered)⟩]) := by
  cases node
  rw [calls, henter]
  rfl

/-! ### What calls do -/

def Performs (visitor : Visitor State) (call : Call State) : Prop :=
  match call.passage with
  | .entered inside => visitor.enter call.node call.before = (call.after, inside)
  | .left => visitor.leave call.node call.before = call.after

/-- Calls from one state to another: each starts from what the one before gave back. -/
inductive Linked : State → List (Call State) → State → Prop
  | nil (state : State) : Linked state [] state
  | cons (call : Call State) {calls : List (Call State)} {final : State}
      (hrest : Linked call.after calls final) : Linked call.before (call :: calls) final

theorem Linked.append {start middle final : State} {front back : List (Call State)}
    (hfront : Linked start front middle) (hback : Linked middle back final) :
    Linked start (front ++ back) final := by
  induction hfront with
  | nil => exact hback
  | cons call _ ih => exact .cons call (ih hback)

mutual

/-- The calls of a traversal hand the state on, from the first one to its result. -/
theorem linked_calls (visitor : Visitor State) (place : Place) (tree : Tree) (state : State) :
    Linked state (visitor.calls place tree state) (visitor.fold tree state) := by
  match tree with
  | .node label children =>
    rcases henter : visitor.enter (.node label children) state with ⟨entered, _ | _⟩
    · rw [calls_of_passed henter, fold_of_passed henter]
      exact .cons ⟨place, _, .entered false, state, entered⟩ (.nil entered)
    · rw [calls_of_entered henter, fold_of_entered henter]
      refine .cons ⟨place, _, .entered true, state, entered⟩ ?_
      exact (linked_forestCalls visitor place 0 children entered).append
        (.cons ⟨place, _, .left, _, _⟩ (.nil _))

theorem linked_forestCalls (visitor : Visitor State) (place : Place) (index : Nat)
    (forest : List Tree) (state : State) :
    Linked state (visitor.forestCalls place index forest state)
      (visitor.foldForest forest state) := by
  match forest with
  | [] =>
    rw [forestCalls, foldForest]
    exact .nil state
  | tree :: rest =>
    rw [forestCalls, foldForest]
    exact (linked_calls visitor (place ++ [index]) tree state).append
      (linked_forestCalls visitor place (index + 1) rest _)

end

mutual

/-- Every call of a traversal is one of the visitor. -/
theorem performs_of_mem_calls {place : Place} {tree : Tree} {state : State} {call : Call State}
    (hmem : call ∈ visitor.calls place tree state) : visitor.Performs call := by
  match tree with
  | .node label children =>
    rcases henter : visitor.enter (.node label children) state with ⟨entered, _ | _⟩
    · rw [calls_of_passed henter] at hmem
      obtain rfl := List.mem_singleton.mp hmem
      exact henter
    · rw [calls_of_entered henter] at hmem
      rcases List.mem_cons.mp hmem with rfl | hmem
      · exact henter
      rcases List.mem_append.mp hmem with hmem | hmem
      · exact performs_of_mem_forestCalls hmem
      · obtain rfl := List.mem_singleton.mp hmem
        rfl

theorem performs_of_mem_forestCalls {place : Place} {index : Nat} {forest : List Tree}
    {state : State} {call : Call State}
    (hmem : call ∈ visitor.forestCalls place index forest state) : visitor.Performs call := by
  match forest with
  | [] => simp [forestCalls] at hmem
  | tree :: rest =>
    rw [forestCalls] at hmem
    rcases List.mem_append.mp hmem with hmem | hmem
    · exact performs_of_mem_calls hmem
    · exact performs_of_mem_forestCalls hmem

end

/-! ### Where calls are made -/

/-- A call for a list of children is one for some child, with the children before it visited. -/
theorem mem_forestCalls_iff {forest : List Tree} {index : Nat} {call : Call State} :
    call ∈ visitor.forestCalls place index forest state ↔
      ∃ offset child, forest[offset]? = some child ∧
        call ∈ visitor.calls (place ++ [index + offset]) child
          (visitor.foldForest (forest.take offset) state) := by
  induction forest generalizing index state with
  | nil => simp [forestCalls]
  | cons tree rest ih =>
    rw [forestCalls, List.mem_append, ih]
    constructor
    · rintro (hmem | ⟨offset, child, hchild, hmem⟩)
      · exact ⟨0, tree, rfl, by simpa [foldForest] using hmem⟩
      · refine ⟨offset + 1, child, hchild, ?_⟩
        rw [List.take_succ_cons, foldForest, ← Nat.add_assoc, Nat.add_right_comm]
        exact hmem
    · rintro ⟨_ | offset, child, hchild, hmem⟩
      · obtain rfl : tree = child := by simpa using hchild
        exact Or.inl (by simpa [foldForest] using hmem)
      · refine Or.inr ⟨offset, child, hchild, ?_⟩
        rw [List.take_succ_cons, foldForest, ← Nat.add_assoc, Nat.add_right_comm] at hmem
        exact hmem

mutual

/-- Every call is made at the node or below it, and names the node it is made at. -/
theorem at?_of_mem_calls {place : Place} {tree : Tree} {state : State} {call : Call State}
    (hmem : call ∈ visitor.calls place tree state) :
    ∃ way, call.place = place ++ way ∧ tree.at? way = some call.node := by
  match tree with
  | .node label children =>
    rw [calls] at hmem
    split at hmem
    · obtain rfl := List.mem_singleton.mp hmem
      exact ⟨[], (List.append_nil place).symm, rfl⟩
    · rcases List.mem_cons.mp hmem with rfl | hmem
      · exact ⟨[], (List.append_nil place).symm, rfl⟩
      rcases List.mem_append.mp hmem with hmem | hmem
      · obtain ⟨index, way, child, hplace, hchild, hnode⟩ := at?_of_mem_forestCalls hmem
        refine ⟨index :: way, by simpa using hplace, ?_⟩
        exact Tree.at?_cons_eq_some_iff.mpr ⟨child, hchild, hnode⟩
      · obtain rfl := List.mem_singleton.mp hmem
        exact ⟨[], (List.append_nil place).symm, rfl⟩

/-- A call for a forest is made at a node of one of its trees, at a place that starts with the index
of that tree. -/
theorem at?_of_mem_forestCalls {place : Place} {index : Nat} {forest : List Tree} {state : State}
    {call : Call State} (hmem : call ∈ visitor.forestCalls place index forest state) :
    ∃ offset way child, call.place = place ++ (index + offset) :: way ∧
      forest[offset]? = some child ∧ child.at? way = some call.node := by
  match forest with
  | [] => simp [forestCalls] at hmem
  | tree :: rest =>
    rw [forestCalls] at hmem
    rcases List.mem_append.mp hmem with hmem | hmem
    · obtain ⟨way, hplace, hnode⟩ := at?_of_mem_calls hmem
      exact ⟨0, way, tree, by simpa using hplace, rfl, hnode⟩
    · obtain ⟨offset, way, child, hplace, hchild, hnode⟩ := at?_of_mem_forestCalls hmem
      refine ⟨offset + 1, way, child, ?_, hchild, hnode⟩
      rw [hplace, ← Nat.add_assoc, Nat.add_right_comm]

end

/-! ### Brackets -/

/-- The calls before and after those at a place and below it. No call before is at a later place;
the calls after are made elsewhere, and the nodes that are still entered there come later. -/
structure Around (place : Place) (before after : List (Call State)) : Prop where
  earlier : ∀ call ∈ before, call.place < place
  outside : ∀ call ∈ after, ¬ place <+: call.place
  later : ∀ call ∈ after, call.passage ≠ .left → place < call.place

/-- Calls nest as brackets do. A node that is entered to be visited inside is left once, and exactly
the calls below it lie in between; a node that is entered and passed is neither left nor visited
inside; and no other node is left. -/
structure Nested (calls : List (Call State)) : Prop where
  visited : ∀ call ∈ calls, call.passage = .entered true →
    ∃ before inside leaving after, calls = before ++ call :: (inside ++ leaving :: after) ∧
      leaving.place = call.place ∧ leaving.passage = .left ∧
      (∀ other ∈ inside, call.place.IsAbove other.place) ∧ Around call.place before after
  passed : ∀ call ∈ calls, call.passage = .entered false →
    ∃ before after, calls = before ++ call :: after ∧ Around call.place before after
  left : ∀ call ∈ calls, call.passage = .left →
    ∃ entering ∈ calls, entering.place = call.place ∧ entering.passage = .entered true

/-- Calls that are made later and elsewhere can be added to those after a node. -/
theorem Around.append_right {place : Place} {before after more : List (Call State)}
    (haround : Around place before after)
    (hmore : ∀ call ∈ more, place < call.place ∧ ¬ place <+: call.place) :
    Around place before (after ++ more) where
  earlier := haround.earlier
  outside := by
    intro call hmem
    rcases List.mem_append.mp hmem with hmem | hmem
    · exact haround.outside call hmem
    · exact (hmore call hmem).2
  later := by
    intro call hmem hentered
    rcases List.mem_append.mp hmem with hmem | hmem
    · exact haround.later call hmem hentered
    · exact (hmore call hmem).1

theorem Around.append_left {place : Place} {before after more : List (Call State)}
    (haround : Around place before after) (hmore : ∀ call ∈ more, call.place < place) :
    Around place (more ++ before) after where
  earlier := by
    intro call hmem
    rcases List.mem_append.mp hmem with hmem | hmem
    · exact hmore call hmem
    · exact haround.earlier call hmem
  outside := haround.outside
  later := haround.later

theorem Nested.nil : Nested ([] : List (Call State)) := by
  constructor <;> intro call hmem <;> cases hmem

/-- Calls that nest, followed by calls that nest, do so together if all of the first ones are made
before the others and at other nodes. -/
theorem Nested.append {front back : List (Call State)} (hfront : Nested front)
    (hback : Nested back)
    (horder : ∀ first ∈ front, ∀ second ∈ back,
      first.place < second.place ∧ ¬ first.place <+: second.place) :
    Nested (front ++ back) where
  visited := by
    intro call hmem hpassage
    rcases List.mem_append.mp hmem with hmem | hmem
    · obtain ⟨before, inside, leaving, after, heq, hplace, hleft, hinside, haround⟩ :=
        hfront.visited call hmem hpassage
      refine ⟨before, inside, leaving, after ++ back, by simp [heq], hplace, hleft, hinside, ?_⟩
      exact haround.append_right (horder call hmem)
    · obtain ⟨before, inside, leaving, after, heq, hplace, hleft, hinside, haround⟩ :=
        hback.visited call hmem hpassage
      refine ⟨front ++ before, inside, leaving, after, by simp [heq], hplace, hleft, hinside, ?_⟩
      exact haround.append_left fun first hfirst => (horder first hfirst call hmem).1
  passed := by
    intro call hmem hpassage
    rcases List.mem_append.mp hmem with hmem | hmem
    · obtain ⟨before, after, heq, haround⟩ := hfront.passed call hmem hpassage
      exact ⟨before, after ++ back, by simp [heq], haround.append_right (horder call hmem)⟩
    · obtain ⟨before, after, heq, haround⟩ := hback.passed call hmem hpassage
      refine ⟨front ++ before, after, by simp [heq], ?_⟩
      exact haround.append_left fun first hfirst => (horder first hfirst call hmem).1
  left := by
    intro call hmem hpassage
    rcases List.mem_append.mp hmem with hmem | hmem
    · obtain ⟨entering, hentering, hsame⟩ := hfront.left call hmem hpassage
      exact ⟨entering, List.mem_append_left back hentering, hsame⟩
    · obtain ⟨entering, hentering, hsame⟩ := hback.left call hmem hpassage
      exact ⟨entering, List.mem_append_right front hentering, hsame⟩

/-- Calls made below a node nest between entering and leaving it. -/
theorem Nested.enclose {inside : List (Call State)} (hinside : Nested inside)
    {entering leaving : Call State} (hentering : entering.passage = .entered true)
    (hleaving : leaving.passage = .left) (hplace : leaving.place = entering.place)
    (hbelow : ∀ call ∈ inside, entering.place.IsAbove call.place) :
    Nested (entering :: (inside ++ [leaving])) := by
  -- Entering comes before every call inside; leaving is made above them, so it is no call behind
  -- them that counts for the order.
  have haround : ∀ call ∈ inside, ∀ before after, Around call.place before after →
      Around call.place (entering :: before) (after ++ [leaving]) := by
    intro call hmem before after haround
    have habove := hbelow call hmem
    constructor
    · intro other hother
      rcases List.mem_cons.mp hother with rfl | hother
      · exact habove.lt
      · exact haround.earlier other hother
    · intro other hother
      rcases List.mem_append.mp hother with hother | hother
      · exact haround.outside other hother
      · obtain rfl := List.mem_singleton.mp hother
        exact hplace ▸ habove.not_prefix_back
    · intro other hother hentered
      rcases List.mem_append.mp hother with hother | hother
      · exact haround.later other hother hentered
      · obtain rfl := List.mem_singleton.mp hother
        exact absurd hleaving hentered
  constructor
  · intro call hmem hpassage
    rcases List.mem_cons.mp hmem with rfl | hmem
    · exact ⟨[], inside, leaving, [], rfl, hplace, hleaving, hbelow,
        ⟨by simp, by simp, by simp⟩⟩
    rcases List.mem_append.mp hmem with hmem | hmem
    · obtain ⟨before, within, closing, after, heq, hsame, hclosing, hwithin, houter⟩ :=
        hinside.visited call hmem hpassage
      exact ⟨entering :: before, within, closing, after ++ [leaving], by simp [heq], hsame,
        hclosing, hwithin, haround call hmem before after houter⟩
    · obtain rfl := List.mem_singleton.mp hmem
      exact absurd (hleaving.symm.trans hpassage) (by simp)
  · intro call hmem hpassage
    rcases List.mem_cons.mp hmem with rfl | hmem
    · exact absurd (hentering.symm.trans hpassage) (by simp)
    rcases List.mem_append.mp hmem with hmem | hmem
    · obtain ⟨before, after, heq, houter⟩ := hinside.passed call hmem hpassage
      exact ⟨entering :: before, after ++ [leaving], by simp [heq],
        haround call hmem before after houter⟩
    · obtain rfl := List.mem_singleton.mp hmem
      exact absurd (hleaving.symm.trans hpassage) (by simp)
  · intro call hmem hpassage
    rcases List.mem_cons.mp hmem with rfl | hmem
    · exact absurd (hentering.symm.trans hpassage) (by simp)
    rcases List.mem_append.mp hmem with hmem | hmem
    · obtain ⟨opening, hopening, hsame⟩ := hinside.left call hmem hpassage
      exact ⟨opening, by simp [hopening], hsame⟩
    · obtain rfl := List.mem_singleton.mp hmem
      exact ⟨entering, by simp, hplace.symm, hentering⟩

mutual

/-- The calls of the recursion nest, whatever the visitor does. -/
theorem nested_calls (visitor : Visitor State) (place : Place) (tree : Tree) (state : State) :
    Nested (visitor.calls place tree state) := by
  match tree with
  | .node label children =>
    rw [calls]
    split
    · constructor
      · simp
      · intro call hmem _
        obtain rfl := List.mem_singleton.mp hmem
        exact ⟨[], [], rfl, ⟨by simp, by simp, by simp⟩⟩
      · simp
    · refine (nested_forestCalls visitor place 0 children _).enclose rfl rfl rfl ?_
      intro call hmem
      obtain ⟨offset, way, -, hplace, -⟩ := at?_of_mem_forestCalls hmem
      rw [hplace]
      exact place.isAbove_append_cons way

theorem nested_forestCalls (visitor : Visitor State) (place : Place) (index : Nat)
    (forest : List Tree) (state : State) :
    Nested (visitor.forestCalls place index forest state) := by
  match forest with
  | [] =>
    rw [forestCalls]
    exact Nested.nil
  | tree :: rest =>
    rw [forestCalls]
    refine (nested_calls visitor (place ++ [index]) tree state).append
      (nested_forestCalls visitor place (index + 1) rest _) ?_
    intro first hfirst second hsecond
    obtain ⟨way, hfirstPlace, -⟩ := at?_of_mem_calls hfirst
    obtain ⟨offset, other, -, hsecondPlace, -⟩ := at?_of_mem_forestCalls hsecond
    have hturn : index < index + 1 + offset := by omega
    rw [hfirstPlace, hsecondPlace, List.append_assoc, List.singleton_append]
    exact ⟨Place.append_lt_append_of_lt place hturn way other,
      Place.not_append_prefix_append_of_ne place (Nat.ne_of_lt hturn) way other⟩

end

end Visitor

end CanonicalTokens
