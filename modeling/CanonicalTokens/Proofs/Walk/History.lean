import CanonicalTokens.Proofs.Scope.History
import CanonicalTokens.Proofs.Walk.Braces

/-!
# What a walk does to its scopes

Each call of the walk's visitor uses the stack of scopes: a construct that bounds a scope opens it,
every construct declares its names, a brace opens or closes a scope as it is emitted, and a
construct that bounds a scope closes it when it is left. These steps, call by call, are a history of
the stack. What the history says about a tally, it says about the tally of the walk.
-/

namespace CanonicalTokens.Walk

variable {walk : Walk} {tree node : Tree} {place : Place} {state : State} {name : String}

/-! ### Steps -/

def braceSteps (walk : Walk) (node : Tree) : List ScopeStep :=
  match walk.boundary with
  | .constructs _ => []
  | .braces braces =>
    if Text.allBlank (node.text walk.source).toList then []
    else if walk.isToken braces.opening node then [.push]
    else if walk.isToken braces.closing node then [.pop]
    else []

def constructSteps (walk : Walk) (node : Tree) : List ScopeStep :=
  if walk.part node = .construct then
    (if walk.bounds node then [.push] else []) ++
      (walk.rules.declaredNames walk.source node).map .declare
  else []

def entrySteps (walk : Walk) (node : Tree) : List ScopeStep :=
  walk.constructSteps node ++ walk.braceSteps node

def callSteps (walk : Walk) (call : Call State) : List ScopeStep :=
  match call.passage with
  | .entered _ => walk.entrySteps call.node
  | .left => if walk.bounds call.node then [.pop] else []

def history (walk : Walk) (tree : Tree) : List ScopeStep :=
  (walk.visitor.calls [] tree .initial).flatMap walk.callSteps

theorem braceSteps_of_passed (hpart : walk.part node ≠ .construct) : walk.braceSteps node = [] := by
  unfold braceSteps isToken
  split <;> simp [hpart]

theorem braceSteps_of_branch (hleaf : ¬ node.isLeaf) : walk.braceSteps node = [] := by
  unfold braceSteps isToken
  split <;> simp [hleaf]

theorem entrySteps_of_passed (hpart : walk.part node ≠ .construct) : walk.entrySteps node = [] := by
  rw [entrySteps, constructSteps, if_neg hpart, braceSteps_of_passed hpart, List.append_nil]

/-! ### The history is what happens -/

/-- A leaf does to the scopes what its text says: it opens or closes one if it is a brace. -/
theorem passBrace_eq_foldl (hpart : walk.part node = .construct) (hleaf : node.isLeaf)
    (hshown : ¬ Text.allBlank (node.text walk.source).toList) (stack : OpenScopes) :
    walk.passBrace node (node.text walk.source) stack =
      (walk.braceSteps node).foldl OpenScopes.perform stack := by
  cases hboundary : walk.boundary with
  | constructs kinds => rw [passBrace, braceSteps, hboundary, List.foldl_nil]
  | braces braces =>
    rw [passBrace_eq hboundary hpart hleaf, braceSteps, hboundary]
    dsimp only
    rw [if_neg hshown]
    split
    · rfl
    · split <;> rfl

theorem scopes_emitText_eq_foldl (hpart : walk.part node = .construct) (hleaf : node.isLeaf) :
    (walk.emitText node state).scopes =
      (walk.braceSteps node).foldl OpenScopes.perform state.scopes := by
  unfold emitText
  dsimp only
  split
  next hblank =>
    unfold braceSteps
    split <;> simp [hblank]
  next hshown => exact passBrace_eq_foldl hpart hleaf hshown state.scopes

theorem openConstruct_eq_foldl (hpart : walk.part node = .construct) (stack : OpenScopes) :
    walk.openConstruct node stack =
      (walk.constructSteps node).foldl OpenScopes.perform stack := by
  rw [constructSteps, if_pos hpart, List.foldl_append, List.foldl_map, openConstruct]
  split <;> rfl

theorem scopes_enter (node : Tree) (state : State) :
    (walk.enter node state).1.scopes =
      (walk.entrySteps node).foldl OpenScopes.perform state.scopes := by
  by_cases hpart : walk.part node = .construct
  · rw [enter_of_construct hpart, entrySteps, List.foldl_append, ← openConstruct_eq_foldl hpart]
    by_cases hleaf : node.isLeaf
    · rw [if_pos hleaf, scopes_emitText_eq_foldl hpart hleaf]
    · rw [if_neg hleaf, braceSteps_of_branch hleaf, List.foldl_nil]
  · rw [scopes_enter_of_passed hpart, entrySteps_of_passed hpart, List.foldl_nil]

/-- Every call does to the open scopes what its steps say. -/
theorem scopes_of_performs {call : Call State} (hperforms : walk.visitor.Performs call) :
    call.after.scopes = (walk.callSteps call).foldl OpenScopes.perform call.before.scopes := by
  rcases call with ⟨place, node, inside | _, before, after⟩
  · obtain ⟨rfl, -⟩ : (walk.enter node before).1 = after ∧
        (walk.enter node before).2 = inside := Prod.ext_iff.mp hperforms
    exact scopes_enter node before
  · obtain rfl : walk.leave node before = after := hperforms
    rw [callSteps, leave]
    dsimp only
    split <;> rfl

theorem scopes_of_linked {calls : List (Call State)} {final : State}
    (hlinked : Visitor.Linked state calls final)
    (hperforms : ∀ call ∈ calls, walk.visitor.Performs call) :
    final.scopes = (calls.flatMap walk.callSteps).foldl OpenScopes.perform state.scopes := by
  induction hlinked with
  | nil => rfl
  | cons call _ ih =>
    rw [ih fun other hother => hperforms other (List.mem_cons_of_mem call hother),
      scopes_of_performs (hperforms call List.mem_cons_self), List.flatMap_cons,
      List.foldl_append]

/-- The tally of a walk is that of its history. -/
theorem tally_run (walk : Walk) (tree : Tree) :
    (walk.run tree).tally = (OpenScopes.replay (walk.history tree)).tally := by
  have hlinked := Visitor.linked_calls walk.visitor [] tree .initial
  have hscopes := scopes_of_linked hlinked fun call => Visitor.performs_of_mem_calls
  rw [run, Visitor.traverse_eq_fold, hscopes]
  rfl

/-! ### Declarations in the history -/

/-- A call enters or leaves a node that the walk comes to. -/
theorem visited_of_mem_calls {base : Place} {call : Call State}
    (hmem : call ∈ walk.visitor.calls base tree state) :
    ∃ way, call.place = base ++ way ∧ walk.Visited tree way call.node := by
  induction tree using Tree.children_induction generalizing base state with
  | node label children ih =>
    have hself : walk.Visited (.node label children) [] (.node label children) :=
      visited_nil_iff.mpr rfl
    by_cases hpart : walk.part (.node label children) = .construct
    · rw [calls_of_construct hpart] at hmem
      rcases List.mem_cons.mp hmem with rfl | hmem
      · exact ⟨[], (List.append_nil base).symm, hself⟩
      rcases List.mem_append.mp hmem with hmem | hmem
      · obtain ⟨index, child, hchild, hbelow⟩ := Visitor.mem_forestCalls_iff.mp hmem
        obtain ⟨way, hplace, hvisited⟩ := ih child (List.mem_of_getElem? hchild) hbelow
        refine ⟨index :: way, ?_, visited_cons_iff.mpr ⟨hpart, child, hchild, hvisited⟩⟩
        rw [hplace, Nat.zero_add, List.append_assoc, List.singleton_append]
      · obtain rfl := List.mem_singleton.mp hmem
        exact ⟨[], (List.append_nil base).symm, hself⟩
    · rw [calls_of_part_ne hpart] at hmem
      obtain rfl := List.mem_singleton.mp hmem
      exact ⟨[], (List.append_nil base).symm, hself⟩

theorem declare_notMem_braceSteps : .declare name ∉ walk.braceSteps node := by
  fun_cases walk.braceSteps node <;> simp

theorem declare_mem_entrySteps_iff :
    .declare name ∈ walk.entrySteps node ↔
      walk.part node = .construct ∧ name ∈ walk.rules.declaredNames walk.source node := by
  rw [entrySteps, List.mem_append, or_iff_left declare_notMem_braceSteps, constructSteps]
  split
  next hpart =>
    rw [List.mem_append, and_iff_right hpart]
    split <;> simp
  next hpart => simp [hpart]

/-- The names in the history are those that the constructs declare which the walk enters. -/
theorem declare_mem_history_iff :
    .declare name ∈ walk.history tree ↔ ∃ place, walk.Declares tree place name := by
  unfold history
  rw [List.mem_flatMap]
  constructor
  · rintro ⟨call, hcall, hdeclare⟩
    obtain ⟨way, -, hvisited⟩ := visited_of_mem_calls hcall
    unfold callSteps at hdeclare
    split at hdeclare
    · obtain ⟨hpart, hname⟩ := declare_mem_entrySteps_iff.mp hdeclare
      exact ⟨way, call.node, ⟨hvisited, hpart⟩, hname⟩
    · split at hdeclare <;> simp at hdeclare
  · rintro ⟨place, holder, hentered, hname⟩
    have hcall := @entering_mem_calls walk tree holder place .initial [] hentered.toVisited
    exact ⟨_, hcall, declare_mem_entrySteps_iff.mpr ⟨hentered.construct, hname⟩⟩

end CanonicalTokens.Walk
