import CanonicalTokens.CanonicalForm
import CanonicalTokens.Proofs.Walk.Emissions

/-!
# Where a declared name is known

Under boundaries by constructs, the scopes that are open when the walk comes to a node are those of
the nodes above it. A name declared below a scope that has been closed since is forgotten; every
other name that an earlier construct declared is known. So whether an identifier is a variable can
be read off the tree, without a stack: some construct before it declares its name, and the innermost
scope around this construct, if there is one, is around the identifier as well.
-/

namespace CanonicalTokens.Walk

variable {walk : Walk} {tree node : Tree} {place : Place} {state : State} {name : String}

/-! ### Declarations and scopes in a tree -/

/-- The construct at a place introduces a name, and the walk comes to it. -/
def Declares (walk : Walk) (tree : Tree) (declaration : Place) (name : String) : Prop :=
  ∃ holder, walk.Entered tree declaration holder ∧
    name ∈ walk.rules.declaredNames walk.source holder

def ScopeAt (walk : Walk) (tree : Tree) (scope : Place) : Prop :=
  ∃ holder, tree.at? scope = some holder ∧ walk.bounds holder

def Unscoped (walk : Walk) (tree : Tree) (place : Place) : Prop :=
  ∀ scope, scope <+: place → ¬ walk.ScopeAt tree scope

structure InnermostScope (walk : Walk) (tree : Tree) (place scope : Place) : Prop where
  around : scope <+: place
  scopeAt : walk.ScopeAt tree scope
  innermost : ∀ other, other <+: place → walk.ScopeAt tree other → other <+: scope

/-- What is declared at one place is known at another one: no scope closes in between. -/
def KnownAt (walk : Walk) (tree : Tree) (declaration place : Place) : Prop :=
  walk.Unscoped tree declaration ∨
    ∃ scope, walk.InnermostScope tree declaration scope ∧ scope.IsAbove place

theorem entered_nil_iff :
    walk.Entered tree [] node ↔ tree = node ∧ walk.part tree = .construct := by
  constructor
  · intro hentered
    obtain rfl := visited_nil_iff.mp hentered.toVisited
    exact ⟨rfl, hentered.construct⟩
  · rintro ⟨rfl, hpart⟩
    exact ⟨visited_nil_iff.mpr rfl, hpart⟩

theorem entered_cons_iff {index : Nat} :
    walk.Entered tree (index :: place) node ↔
      walk.part tree = .construct ∧
        ∃ child, tree.children[index]? = some child ∧ walk.Entered child place node := by
  constructor
  · intro hentered
    obtain ⟨hpart, child, hchild, hvisited⟩ := visited_cons_iff.mp hentered.toVisited
    exact ⟨hpart, child, hchild, hvisited, hentered.construct⟩
  · rintro ⟨hpart, child, hchild, hentered⟩
    exact ⟨visited_cons_iff.mpr ⟨hpart, child, hchild, hentered.toVisited⟩, hentered.construct⟩

theorem declares_nil_iff :
    walk.Declares tree [] name ↔
      walk.part tree = .construct ∧ name ∈ walk.rules.declaredNames walk.source tree := by
  constructor
  · rintro ⟨holder, hentered, hname⟩
    obtain ⟨rfl, hpart⟩ := entered_nil_iff.mp hentered
    exact ⟨hpart, hname⟩
  · rintro ⟨hpart, hname⟩
    exact ⟨tree, entered_nil_iff.mpr ⟨rfl, hpart⟩, hname⟩

theorem declares_cons_iff {index : Nat} :
    walk.Declares tree (index :: place) name ↔
      walk.part tree = .construct ∧
        ∃ child, tree.children[index]? = some child ∧ walk.Declares child place name := by
  constructor
  · rintro ⟨holder, hentered, hname⟩
    obtain ⟨hpart, child, hchild, hentered⟩ := entered_cons_iff.mp hentered
    exact ⟨hpart, child, hchild, holder, hentered, hname⟩
  · rintro ⟨hpart, child, hchild, holder, hentered, hname⟩
    exact ⟨holder, entered_cons_iff.mpr ⟨hpart, child, hchild, hentered⟩, hname⟩

theorem scopeAt_nil_iff : walk.ScopeAt tree [] ↔ walk.bounds tree := by
  simp [ScopeAt]

theorem scopeAt_cons_iff {index : Nat} {child : Tree}
    (hchild : tree.children[index]? = some child) :
    walk.ScopeAt tree (index :: place) ↔ walk.ScopeAt child place := by
  simp [ScopeAt, Tree.at?_cons_eq_some_iff, hchild]

theorem unscoped_nil_iff : walk.Unscoped tree [] ↔ ¬ walk.bounds tree := by
  simp [Unscoped, scopeAt_nil_iff]

/-- Below a child there is no scope exactly if the tree opens none itself and the child has none on
the way. -/
theorem unscoped_cons_iff {index : Nat} {child : Tree}
    (hchild : tree.children[index]? = some child) :
    walk.Unscoped tree (index :: place) ↔ ¬ walk.bounds tree ∧ walk.Unscoped child place := by
  constructor
  · intro hunscoped
    refine ⟨fun hbounds => hunscoped [] List.nil_prefix (scopeAt_nil_iff.mpr hbounds), ?_⟩
    intro scope hinitial hscope
    exact hunscoped (index :: scope) (List.cons_prefix_cons.mpr ⟨rfl, hinitial⟩)
      ((scopeAt_cons_iff hchild).mpr hscope)
  · rintro ⟨hbounds, hunscoped⟩ (_ | ⟨first, scope⟩) hinitial hscope
    · exact hbounds (scopeAt_nil_iff.mp hscope)
    · obtain ⟨rfl, hbelow⟩ := List.cons_prefix_cons.mp hinitial
      exact hunscoped scope hbelow ((scopeAt_cons_iff hchild).mp hscope)

/-! ### The open scopes of the walk -/

/-- The tree declares a name outside all of its scopes, so the name is still known behind it. -/
def Leaves (walk : Walk) (tree : Tree) (name : String) : Prop :=
  ∃ declaration, walk.Declares tree declaration name ∧ walk.Unscoped tree declaration

/-- A tree leaves a name behind if it opens no scope and introduces the name itself, or has a child
that leaves it behind. -/
theorem leaves_iff :
    walk.Leaves tree name ↔
      walk.part tree = .construct ∧ ¬ walk.bounds tree ∧
        (name ∈ walk.rules.declaredNames walk.source tree ∨
          ∃ child ∈ tree.children, walk.Leaves child name) := by
  constructor
  · rintro ⟨_ | ⟨index, declaration⟩, hdeclares, hunscoped⟩
    · obtain ⟨hpart, hname⟩ := declares_nil_iff.mp hdeclares
      exact ⟨hpart, unscoped_nil_iff.mp hunscoped, Or.inl hname⟩
    · obtain ⟨hpart, child, hchild, hdeclares⟩ := declares_cons_iff.mp hdeclares
      obtain ⟨hbounds, hunscoped⟩ := (unscoped_cons_iff hchild).mp hunscoped
      exact ⟨hpart, hbounds,
        Or.inr ⟨child, List.mem_of_getElem? hchild, declaration, hdeclares, hunscoped⟩⟩
  · rintro ⟨hpart, hbounds, hname | ⟨child, hmem, declaration, hdeclares, hunscoped⟩⟩
    · exact ⟨[], declares_nil_iff.mpr ⟨hpart, hname⟩, unscoped_nil_iff.mpr hbounds⟩
    · obtain ⟨index, hchild⟩ := List.mem_iff_getElem?.mp hmem
      exact ⟨index :: declaration, declares_cons_iff.mpr ⟨hpart, child, hchild, hdeclares⟩,
        (unscoped_cons_iff hchild).mpr ⟨hbounds, hunscoped⟩⟩

theorem scopes_enter_of_passed (hpart : walk.part node ≠ .construct) :
    (walk.enter node state).1.scopes = state.scopes := by
  unfold enter
  split
  · rfl
  · rfl
  · unfold State.emitName
    split
    · rfl
    · split <;> rfl
  · contradiction

variable {kinds : List String}

theorem scopes_emitText (hboundary : walk.boundary = .constructs kinds) :
    (walk.emitText node state).scopes = state.scopes := by
  unfold emitText
  dsimp only
  split
  · rfl
  · rw [passBrace, hboundary]
    rfl

theorem scopes_enter_of_construct (hboundary : walk.boundary = .constructs kinds)
    (hpart : walk.part node = .construct) :
    (walk.enter node state).1.scopes = walk.openConstruct node state.scopes := by
  rw [enter_of_construct hpart]
  dsimp only
  split
  · exact scopes_emitText hboundary
  · rfl

/-- What a part of a tree does to the open scopes: the innermost one gains names, the others stay as
they are. -/
structure Gains (gained : String → Prop) (before after : OpenScopes) : Prop where
  enclosing : after.enclosing = before.enclosing
  innermost : ∀ name, name ∈ after.innermost ↔ name ∈ before.innermost ∨ gained name

theorem Gains.isDeclared_iff {gained : String → Prop} {before after : OpenScopes}
    (hgains : Gains gained before after) :
    after.isDeclared name ↔ before.isDeclared name ∨ gained name := by
  rw [OpenScopes.isDeclared_iff, OpenScopes.isDeclared_iff, hgains.enclosing, hgains.innermost]
  exact or_right_comm

mutual

/-- Behind a tree, the innermost scope has the names that the tree leaves to it. -/
theorem gains_fold (hboundary : walk.boundary = .constructs kinds) (tree : Tree) (state : State) :
    Gains (walk.Leaves tree) state.scopes (walk.visitor.fold tree state).scopes := by
  match tree with
  | .node label children =>
    by_cases hpart : walk.part (.node label children) = .construct
    · have hscopes := @scopes_enter_of_construct walk _ state kinds hboundary hpart
      have hbelow := gains_foldForest hboundary children (walk.enter (.node label children) state).1
      rw [fold_of_construct hpart, leave, Tree.children]
      -- A scope takes all names below it along when it closes; otherwise they go to the scope
      -- around it.
      by_cases hbounds : walk.bounds (.node label children)
      · have hforest := hbelow.enclosing
        rw [hscopes, openConstruct, if_pos hbounds, OpenScopes.enclosing_declareAll,
          OpenScopes.push] at hforest
        rw [if_pos hbounds]
        refine ⟨by simp [OpenScopes.pop, hforest], fun name => ?_⟩
        rw [leaves_iff]
        simp [OpenScopes.pop, hforest, hbounds]
      · have hforest := hbelow.enclosing
        rw [hscopes, openConstruct, if_neg hbounds, OpenScopes.enclosing_declareAll] at hforest
        rw [if_neg hbounds]
        refine ⟨hforest, fun name => ?_⟩
        rw [hbelow.innermost, hscopes, openConstruct, if_neg hbounds,
          OpenScopes.mem_innermost_declareAll, leaves_iff, or_assoc]
        simp [hpart, hbounds, Tree.children]
    · rw [fold_of_part_ne hpart, scopes_enter_of_passed hpart]
      refine ⟨rfl, fun name => ?_⟩
      rw [leaves_iff]
      simp [hpart]

/-- Behind a forest the innermost scope has gained the names that its trees leave behind, and the
scopes around it are as before. -/
theorem gains_foldForest (hboundary : walk.boundary = .constructs kinds) (forest : List Tree)
    (state : State) :
    Gains (fun name => ∃ tree ∈ forest, walk.Leaves tree name) state.scopes
      (walk.visitor.foldForest forest state).scopes := by
  match forest with
  | [] =>
    rw [Visitor.foldForest]
    exact ⟨rfl, by simp⟩
  | tree :: rest =>
    rw [Visitor.foldForest]
    have hfirst := gains_fold hboundary tree state
    have hrest := gains_foldForest hboundary rest (walk.visitor.fold tree state)
    refine ⟨hrest.enclosing.trans hfirst.enclosing, ?_⟩
    intro name
    rw [hrest.innermost, hfirst.innermost, or_assoc]
    simp

end

/-! ### What is known at a place -/

def OpenAt (walk : Walk) (tree : Tree) (declaration place : Place) : Prop :=
  ∀ scope : Place, scope <+: declaration → walk.ScopeAt tree scope → scope.IsAbove place

/-- It is enough to ask for the innermost scope around a declaration: if it is open, so are those
around it. -/
theorem knownAt_iff_openAt {declaration : Place} :
    walk.KnownAt tree declaration place ↔ walk.OpenAt tree declaration place := by
  constructor
  · rintro (hunscoped | ⟨scope, hinnermost, habove⟩) other hinitial hother
    · exact absurd hother (hunscoped other hinitial)
    · exact habove.of_prefix_left (hinnermost.innermost other hinitial hother)
  · intro hopen
    rcases declaration.exists_innermost (walk.ScopeAt tree) with
      hnone | ⟨scope, haround, hscope, hinnermost⟩
    · exact Or.inl hnone
    · exact Or.inr ⟨scope, ⟨haround, hscope, hinnermost⟩, hopen scope haround hscope⟩

theorem openAt_nil_cons {index : Nat} : walk.OpenAt tree [] (index :: place) := by
  intro scope hinitial _
  rw [List.prefix_nil.mp hinitial]
  exact Place.nil_isAbove_cons

theorem openAt_cons_self_iff {declaration : Place} {index : Nat} {child : Tree}
    (hchild : tree.children[index]? = some child) :
    walk.OpenAt tree (index :: declaration) (index :: place) ↔
      walk.OpenAt child declaration place := by
  constructor
  · intro hopen scope hinitial hscope
    have habove := hopen (index :: scope) (List.cons_prefix_cons.mpr ⟨rfl, hinitial⟩)
      ((scopeAt_cons_iff hchild).mpr hscope)
    exact (Place.cons_isAbove_cons_iff.mp habove).2
  · rintro hopen (_ | ⟨first, scope⟩) hinitial hscope
    · exact Place.nil_isAbove_cons
    · obtain ⟨rfl, hbelow⟩ := List.cons_prefix_cons.mp hinitial
      exact Place.cons_isAbove_cons_iff.mpr
        ⟨rfl, hopen scope hbelow ((scopeAt_cons_iff hchild).mp hscope)⟩

theorem openAt_cons_of_ne_iff {declaration : Place} {index other : Nat} {sibling : Tree}
    (hsibling : tree.children[other]? = some sibling) (hne : other ≠ index) :
    walk.OpenAt tree (other :: declaration) (index :: place) ↔
      walk.Unscoped sibling declaration := by
  constructor
  · intro hopen scope hinitial hscope
    have habove := hopen (other :: scope) (List.cons_prefix_cons.mpr ⟨rfl, hinitial⟩)
      ((scopeAt_cons_iff hsibling).mpr hscope)
    exact hne (Place.cons_isAbove_cons_iff.mp habove).1
  · rintro hunscoped (_ | ⟨first, scope⟩) hinitial hscope
    · exact Place.nil_isAbove_cons
    · obtain ⟨rfl, hbelow⟩ := List.cons_prefix_cons.mp hinitial
      exact absurd ((scopeAt_cons_iff hsibling).mp hscope) (hunscoped scope hbelow)

/-- A name is declared before a place, and no scope around its declaration is closed in between. -/
def Reaches (walk : Walk) (tree : Tree) (name : String) (place : Place) : Prop :=
  ∃ declaration, walk.Declares tree declaration name ∧ declaration < place ∧
    walk.OpenAt tree declaration place

theorem not_reaches_nil : ¬ walk.Reaches tree name [] := by
  rintro ⟨declaration, -, hlt, -⟩
  exact List.not_lt_nil declaration hlt

/-- A name that reaches a place below a child comes from the tree itself, from a child further left
that leaves it behind, or from inside the child. -/
theorem reaches_cons_iff {index : Nat} {child : Tree} (hpart : walk.part tree = .construct)
    (hchild : tree.children[index]? = some child) :
    walk.Reaches tree name (index :: place) ↔
      name ∈ walk.rules.declaredNames walk.source tree ∨
        (∃ sibling ∈ tree.children.take index, walk.Leaves sibling name) ∨
          walk.Reaches child name place := by
  constructor
  · rintro ⟨_ | ⟨other, declaration⟩, hdeclares, hlt, hopen⟩
    · exact Or.inl (declares_nil_iff.mp hdeclares).2
    · obtain ⟨-, sibling, hsibling, hdeclares⟩ := declares_cons_iff.mp hdeclares
      -- An earlier declaration is made in a sibling to the left or on the way down.
      rcases List.cons_lt_cons_iff.mp hlt with hturn | ⟨rfl, hlower⟩
      · have hmem : sibling ∈ tree.children.take index := by
          refine List.mem_iff_getElem?.mpr ⟨other, ?_⟩
          rw [List.getElem?_take_of_lt hturn, hsibling]
        exact Or.inr (Or.inl ⟨sibling, hmem, declaration, hdeclares,
          (openAt_cons_of_ne_iff hsibling (Nat.ne_of_lt hturn)).mp hopen⟩)
      · obtain rfl := Option.some.inj (hchild.symm.trans hsibling)
        exact Or.inr (Or.inr
          ⟨declaration, hdeclares, hlower, (openAt_cons_self_iff hchild).mp hopen⟩)
  · rintro (hname | ⟨sibling, hmem, declaration, hdeclares, hunscoped⟩ |
      ⟨declaration, hdeclares, hlt, hopen⟩)
    · exact ⟨[], declares_nil_iff.mpr ⟨hpart, hname⟩, List.nil_lt_cons index place,
        openAt_nil_cons⟩
    · obtain ⟨other, hother⟩ := List.mem_iff_getElem?.mp hmem
      obtain ⟨hturn, hsibling⟩ : other < index ∧ tree.children[other]? = some sibling := by
        simpa [List.getElem?_take] using hother
      exact ⟨other :: declaration, declares_cons_iff.mpr ⟨hpart, sibling, hsibling, hdeclares⟩,
        List.cons_lt_cons_iff.mpr (Or.inl hturn),
        (openAt_cons_of_ne_iff hsibling (Nat.ne_of_lt hturn)).mpr hunscoped⟩
    · exact ⟨index :: declaration, declares_cons_iff.mpr ⟨hpart, child, hchild, hdeclares⟩,
        List.cons_lt_cons_iff.mpr (Or.inr ⟨rfl, hlt⟩), (openAt_cons_self_iff hchild).mpr hopen⟩

/-- When the walk comes to a place, it knows the names that reach it. -/
theorem isDeclared_arrival_iff (hboundary : walk.boundary = .constructs kinds)
    (hvisited : walk.Visited tree place node) :
    (walk.arrival tree state place).scopes.isDeclared name ↔
      state.scopes.isDeclared name ∨ walk.Reaches tree name place := by
  induction place generalizing tree state with
  | nil =>
    rw [arrival, or_iff_left not_reaches_nil]
  | cons index place ih =>
    obtain ⟨hpart, child, hchild, hbelow⟩ := visited_cons_iff.mp hvisited
    have hopened : (walk.enter tree state).1.scopes.isDeclared name ↔
        state.scopes.isDeclared name ∨ name ∈ walk.rules.declaredNames walk.source tree := by
      rw [scopes_enter_of_construct hboundary hpart, openConstruct,
        OpenScopes.isDeclared_declareAll]
      split <;> simp
    rw [arrival_cons hchild, ih hbelow,
      (gains_foldForest hboundary (tree.children.take index) _).isDeclared_iff, hopened,
      reaches_cons_iff hpart hchild, or_assoc, or_assoc]

theorem nameToken_eq_variable_iff {scopes : OpenScopes} :
    nameToken scopes name = .placeholder .variableName ↔ scopes.isDeclared name := by
  unfold nameToken
  split <;> simp_all

/-- Every identifier that the walk comes to emits one token. It is the placeholder for variables if
an earlier construct declares the name and the innermost scope around that construct is around the
identifier as well, or there is no scope around it; otherwise the name stays as it is. -/
theorem emission_at_identifier (hboundary : walk.boundary = .constructs kinds)
    (hvisited : walk.Visited tree place node) (hpart : walk.part node = .identifier)
    (htext : node.text walk.source ≠ "") :
    (walk.emissions tree).map Emission.token = (walk.run tree).tokens ∧
      ∃ token, (walk.emissions tree).filter (fun emission => emission.place = place) =
          [⟨place, token⟩] ∧
        (token = .placeholder .variableName ↔
          ∃ declaration, walk.Declares tree declaration (node.text walk.source) ∧
            declaration < place ∧ walk.KnownAt tree declaration place) ∧
        (token ≠ .placeholder .variableName → token = .verbatim (node.text walk.source)) := by
  refine ⟨tokens_emissions walk tree,
    nameToken (walk.arrival tree .initial place).scopes (node.text walk.source), ?_, ?_, ?_⟩
  · rw [emissions_at_visited hvisited, emitted, written_of_emit]
    · rfl
    · rw [entering, enter_of_identifier hpart, emitName_of_ne_empty htext]
      rfl
  · rw [nameToken_eq_variable_iff, isDeclared_arrival_iff hboundary hvisited]
    simp [State.initial, Reaches, knownAt_iff_openAt]
  · intro hverbatim
    rw [nameToken, if_neg fun hdeclared => hverbatim (nameToken_eq_variable_iff.mpr hdeclared)]

/-- The tree of `lambda x: x`. -/
def lambdaTree : Tree :=
  .node (.sound "lambda" true 0 11 none) [
    .node (.sound "lambda" false 0 6 none) [],
    .node (.sound "lambda_parameters" true 7 8 (some "parameters")) [
      .node (.sound "identifier" true 7 8 none) []],
    .node (.sound ":" false 8 9 none) [],
    .node (.sound "identifier" true 10 11 (some "body")) []]

def lambdaWalk : Walk :=
  ⟨.ofString "lambda x: x", Language.python.rules, .standard⟩

/-- The body of `lambda x: x` is an identifier, so it is a variable exactly if its parameter is
declared before it and known there. -/
theorem emission_at_lambda_body :
    lambdaWalk.boundary = .constructs Language.python.rules.scopes ∧
      lambdaWalk.Visited lambdaTree [3] (.node (.sound "identifier" true 10 11 (some "body")) []) ∧
      (lambdaWalk.emissions lambdaTree).map Emission.token = (lambdaWalk.run lambdaTree).tokens ∧
      ∃ token, (lambdaWalk.emissions lambdaTree).filter (fun emission => emission.place = [3]) =
          [⟨[3], token⟩] ∧
        (token = .placeholder .variableName ↔
          ∃ declaration, lambdaWalk.Declares lambdaTree declaration "x" ∧
            declaration < [3] ∧ lambdaWalk.KnownAt lambdaTree declaration [3]) ∧
        (token ≠ .placeholder .variableName → token = .verbatim "x") := by
  have hboundary : lambdaWalk.boundary = .constructs Language.python.rules.scopes := rfl
  have hvisited : lambdaWalk.Visited lambdaTree [3]
      (.node (.sound "identifier" true 10 11 (some "body")) []) :=
    visited_cons_iff.mpr ⟨by decide, _, rfl, visited_nil_iff.mpr rfl⟩
  have htext : Tree.text (.node (.sound "identifier" true 10 11 (some "body")) [])
      lambdaWalk.source = "x" := by decide
  refine ⟨hboundary, hvisited, ?_⟩
  have hemission := emission_at_identifier hboundary hvisited (by decide) (by simp [htext])
  rwa [htext] at hemission

end CanonicalTokens.Walk
