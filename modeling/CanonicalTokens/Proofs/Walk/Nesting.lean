import CanonicalTokens.Proofs.Walk.Visibility

/-!
# Scopes nest

Under boundaries by constructs, a scope is opened when a node of a certain kind is entered, and
closed when a node of such a kind is left. The two are decided apart, and a node of such a kind may
be missing or stand in an error. They belong together all the same: behind a tree the scopes are
those in front of it, up to names that the innermost one has gained, and behind a whole walk no
scope is open but the root.
-/

namespace CanonicalTokens

/-- Between two tallies, as many scopes were closed as were opened and no closing was refused. -/
structure ScopeTally.Matched (before after : ScopeTally) : Prop where
  closed : after.opened + before.closed = before.opened + after.closed
  unmatchedCloses : after.unmatchedCloses = before.unmatchedCloses

namespace ScopeTally.Matched

variable {before between after : ScopeTally}

theorem refl (tally : ScopeTally) : Matched tally tally := ⟨rfl, rfl⟩

theorem trans (hfirst : Matched before between) (hsecond : Matched between after) :
    Matched before after := by
  have hfirstClosed := hfirst.closed
  have hsecondClosed := hsecond.closed
  refine ⟨by omega, ?_⟩
  rw [hsecond.unmatchedCloses, hfirst.unmatchedCloses]

end ScopeTally.Matched

namespace OpenScopes

theorem matched_declareAll (stack : OpenScopes) (names : List String) :
    stack.tally.Matched (stack.declareAll names).tally := by
  unfold declareAll
  induction names generalizing stack with
  | nil => exact .refl stack.tally
  | cons name names ih =>
    refine ScopeTally.Matched.trans ?_ (ih (stack.declare name))
    unfold declare
    split
    · exact .refl stack.tally
    · exact ⟨rfl, rfl⟩

/-- A scope that is closed again counts once on either side. -/
theorem matched_pop {stack inside : OpenScopes} (hinside : stack.push.tally.Matched inside.tally)
    (hopen : inside.enclosing ≠ []) : stack.tally.Matched inside.pop.tally := by
  obtain ⟨outer, further, henclosing⟩ := List.exists_cons_of_ne_nil hopen
  have hclosed := hinside.closed
  have hunmatched := hinside.unmatchedCloses
  simp only [push] at hclosed hunmatched
  simp only [pop, henclosing]
  refine ⟨?_, hunmatched⟩
  dsimp only
  omega

end OpenScopes

namespace Walk

variable {walk : Walk} {kinds : List String} {tree node : Tree} {state : State}

theorem bounds_iff (hboundary : walk.boundary = .constructs kinds) :
    walk.bounds node ↔ node.kind ∈ kinds := by
  rw [bounds, hboundary]
  exact List.contains_iff_mem

theorem part_of_enter (hinside : (walk.enter node state).2 = true) :
    walk.part node = .construct := by
  by_cases hpart : walk.part node = .construct
  · exact hpart
  · rw [enter_of_passed hpart] at hinside
    cases hinside

/-- Inside a construct that bounds a scope, the scopes around it are out of reach. -/
theorem enclosing_inside (hboundary : walk.boundary = .constructs kinds)
    (hpart : walk.part node = .construct) (hbounds : walk.bounds node) :
    (walk.visitor.foldForest node.children (walk.enter node state).1).scopes.enclosing =
      state.scopes.innermost :: state.scopes.enclosing := by
  rw [(gains_foldForest hboundary node.children _).enclosing,
    scopes_enter_of_construct hboundary hpart, openConstruct, if_pos hbounds,
    OpenScopes.enclosing_declareAll]
  rfl

theorem scopes_fold_of_bounds (hboundary : walk.boundary = .constructs kinds)
    (hpart : walk.part node = .construct) (hbounds : walk.bounds node) :
    (walk.visitor.fold node state).scopes.innermost = state.scopes.innermost ∧
      (walk.visitor.fold node state).scopes.enclosing = state.scopes.enclosing := by
  have hinside := @enclosing_inside walk kinds node state hboundary hpart hbounds
  rw [fold_of_construct hpart, leave, if_pos hbounds]
  simp only [OpenScopes.pop, hinside, and_self]

mutual

/-- A node that opens a scope closes it when it is left, and what lies in between is matched by
itself. -/
theorem matched_fold (hboundary : walk.boundary = .constructs kinds) (tree : Tree)
    (state : State) :
    state.scopes.tally.Matched (walk.visitor.fold tree state).scopes.tally := by
  match tree with
  | .node label children =>
    by_cases hpart : walk.part (.node label children) = .construct
    · have hforest := matched_foldForest hboundary children
        (walk.enter (.node label children) state).1
      have hnames := fun stack => OpenScopes.matched_declareAll stack
        (walk.rules.declaredNames walk.source (.node label children))
      rw [scopes_enter_of_construct hboundary hpart, openConstruct] at hforest
      rw [fold_of_construct hpart, leave, Tree.children]
      by_cases hbounds : walk.bounds (.node label children)
      · have hinside := @enclosing_inside walk kinds _ state hboundary hpart hbounds
        rw [Tree.children] at hinside
        rw [if_pos hbounds] at hforest ⊢
        apply OpenScopes.matched_pop ((hnames _).trans hforest)
        rw [hinside]
        exact List.cons_ne_nil _ _
      · rw [if_neg hbounds] at hforest ⊢
        exact (hnames _).trans hforest
    · rw [fold_of_part_ne hpart, scopes_enter_of_passed hpart]
      exact .refl _

theorem matched_foldForest (hboundary : walk.boundary = .constructs kinds) (forest : List Tree)
    (state : State) :
    state.scopes.tally.Matched (walk.visitor.foldForest forest state).scopes.tally := by
  match forest with
  | [] =>
    rw [Visitor.foldForest]
    exact .refl _
  | tree :: rest =>
    rw [Visitor.foldForest]
    exact (matched_fold hboundary tree state).trans (matched_foldForest hboundary rest _)

end

/-- Scopes bounded by constructs nest. Wherever the cursor goes on behind a tree, the scopes are as
many as in front of it, those around the innermost one are the same, and that one has lost no name;
behind a construct that bounds a scope, it has gained none. A whole walk closes every scope that it
opens, and no other. -/
theorem scopes_nest (hboundary : walk.boundary = .constructs kinds) :
    (∀ (tree : Tree) (state : State), ∃ after : State,
      (∀ context, walk.visitor.visit tree context state = walk.visitor.advance context after) ∧
      after.scopes.depth = state.scopes.depth ∧
      after.scopes.enclosing = state.scopes.enclosing ∧
      state.scopes.innermost ⊆ after.scopes.innermost ∧
      ((walk.enter tree state).2 = true → tree.kind ∈ kinds →
        after.scopes.innermost = state.scopes.innermost ∧
          after.scopes.enclosing = state.scopes.enclosing)) ∧
    ∀ tree, (walk.run tree).tally.opened = (walk.run tree).tally.closed ∧
      (walk.run tree).tally.unmatchedCloses = 0 ∧ (walk.run tree).tally.isBalanced := by
  constructor
  · intro tree state
    have hgains := gains_fold hboundary tree state
    refine ⟨walk.visitor.fold tree state, ?_, ?_, hgains.enclosing, ?_, ?_⟩
    · intro context
      exact walk.visitor.visit_eq tree context state
    · rw [OpenScopes.depth, OpenScopes.depth, hgains.enclosing]
    · intro name hname
      exact (hgains.innermost name).mpr (Or.inl hname)
    · intro hinside hkind
      have hpart : walk.part tree = .construct := part_of_enter hinside
      exact scopes_fold_of_bounds hboundary hpart ((bounds_iff hboundary).mpr hkind)
  · intro tree
    have hmatched := matched_fold hboundary tree .initial
    have hopened := hmatched.closed
    have hunmatched := hmatched.unmatchedCloses
    simp only [State.initial, OpenScopes.initial] at hopened hunmatched
    rw [run, Visitor.traverse_eq_fold]
    have hbalanced : (walk.visitor.fold tree .initial).scopes.tally.opened =
        (walk.visitor.fold tree .initial).scopes.tally.closed := by
      simp only [State.initial, OpenScopes.initial]
      omega
    refine ⟨hbalanced, hunmatched, ?_⟩
    simp only [ScopeTally.isBalanced, hbalanced, Bool.and_eq_true, decide_eq_true_eq, true_and]
    exact hunmatched

/-- The tree of `lambda x`, in which a colon is missing and the body is an error. -/
def unfinishedLambda : Tree :=
  .node ⟨"lambda", true, false, false, true, 0, 11, none⟩ [
    .node (.sound "lambda" false 0 6 none) [],
    .node (.sound "lambda_parameters" true 7 8 (some "parameters")) [
      .node (.sound "identifier" true 7 8 none) []],
    .node ⟨":", false, true, false, true, 8, 8, none⟩ [],
    .node ⟨"ERROR", true, false, true, true, 10, 11, some "body"⟩ []]

theorem scopes_nest_unfinishedLambda :
    lambdaWalk.boundary = .constructs Language.python.rules.scopes ∧
      (∃ after : State,
        (∀ context, lambdaWalk.visitor.visit unfinishedLambda context .initial =
          lambdaWalk.visitor.advance context after) ∧
        after.scopes.innermost = [] ∧ after.scopes.enclosing = []) ∧
      (lambdaWalk.run unfinishedLambda).tally.isBalanced := by
  have hboundary : lambdaWalk.boundary = .constructs Language.python.rules.scopes := rfl
  obtain ⟨hbehind, hbalanced⟩ := scopes_nest hboundary
  obtain ⟨after, hvisit, -, -, -, hrestored⟩ := hbehind unfinishedLambda .initial
  have hscopes := hrestored (by decide) (by decide)
  exact ⟨hboundary, ⟨after, hvisit, hscopes⟩, (hbalanced unfinishedLambda).2.2⟩

end Walk

end CanonicalTokens
