import CanonicalTokens.Proofs.Walk.Binders

/-!
# Parameters outside their owner

A list of parameters is owned by the nearest node above it that is no declarator: the definition of
a function, a function literal, a prototype, a function type, a method of an interface. A parameter
should be forgotten behind its owner. The walk declares it in the innermost open scope, so it is
forgotten there if a scope opens between the owner and the parameter, and only then.

The tables list definitions, literals and lambda expressions as scopes. Prototypes, function types
and methods of interfaces are not in them; their parameters go to the scope around the owner, and a
name behind it that has nothing to do with them is taken for a variable.
-/

namespace CanonicalTokens

def parameterKinds : List String :=
  ["parameter_declaration", "optional_parameter_declaration", "variadic_parameter_declaration"]

/-- Declarators say how a name is declared. They stand between a construct and its parameters. -/
def isDeclarator (kind : String) : Bool :=
  "_declarator".toList.isSuffixOf kind.toList

/-- A parameter inside a list of parameters, and the node that owns the list: the nearest one above
it that is no declarator. -/
structure Tree.OwnsParameter (tree holder : Tree) (owner list parameter : Place) : Prop where
  owner_at : tree.at? owner = some holder
  owner_kind : ¬ isDeclarator holder.kind
  owner_above : owner.IsAbove list
  nearest : ∀ between node, owner.IsAbove between → between.IsAbove list →
    tree.at? between = some node → isDeclarator node.kind
  list_at : ∃ node, tree.at? list = some node ∧ node.kind = "parameter_list"
  list_above : list.IsAbove parameter
  parameter_at : ∃ node, tree.at? parameter = some node ∧ node.kind ∈ parameterKinds

theorem Tree.OwnsParameter.inside {tree holder : Tree} {owner list parameter : Place}
    (howns : tree.OwnsParameter holder owner list parameter) : owner <+: parameter :=
  howns.owner_above.1.trans howns.list_above.1

namespace Walk

variable {walk : Walk} {tree holder node : Tree} {owner list declaration parameter place : Place}
  {name : String} {language : Language}

/-- No scope opens from an owner down to a declaration, so the declaration goes to the scope around
the owner. -/
def Escapes (walk : Walk) (tree : Tree) (owner declaration : Place) : Prop :=
  ∀ scope, owner <+: scope → scope <+: declaration → ¬ walk.ScopeAt tree scope

/-- Outside a node, what is declared in it is known where the node itself is known, if it escapes;
otherwise nowhere. -/
theorem knownAt_outside_iff (hinside : owner <+: declaration) (houtside : ¬ owner <+: place) :
    walk.KnownAt tree declaration place ↔
      walk.Escapes tree owner declaration ∧ walk.KnownAt tree owner place := by
  rw [knownAt_iff_openAt, knownAt_iff_openAt]
  constructor
  · intro hopen
    constructor
    · intro scope hbelow haround hscope
      apply houtside
      exact hbelow.trans (hopen scope haround hscope).1
    · intro scope habove hscope
      exact hopen scope (habove.trans hinside) hscope
  · rintro ⟨hescapes, hopen⟩ scope haround hscope
    rcases List.prefix_or_prefix_of_prefix haround hinside with habove | hbelow
    · exact hopen scope habove hscope
    · exact absurd hscope (hescapes scope hbelow haround)

/-- If nothing else declares the name, it is known outside the owner exactly if its parameter comes
before and escapes. -/
theorem reaches_outside_iff (hinside : owner <+: parameter) (houtside : ¬ owner <+: place)
    (honly : ∀ declaration, declaration ≠ parameter → walk.Declares tree declaration name →
      declaration < place → ¬ walk.KnownAt tree declaration place) :
    walk.Reaches tree name place ↔
      walk.Declares tree parameter name ∧ parameter < place ∧
        walk.Escapes tree owner parameter ∧ walk.KnownAt tree owner place := by
  rw [← knownAt_outside_iff hinside houtside]
  constructor
  · rintro ⟨declaration, hdeclares, hlt, hopen⟩
    have hknown : walk.KnownAt tree declaration place := knownAt_iff_openAt.mpr hopen
    by_cases hsame : declaration = parameter
    · exact hsame ▸ ⟨hdeclares, hlt, hknown⟩
    · exact absurd hknown (honly declaration hsame hdeclares hlt)
  · rintro ⟨hdeclares, hlt, hknown⟩
    exact ⟨parameter, hdeclares, hlt, knownAt_iff_openAt.mp hknown⟩

/-! ### The table of scopes -/

/-- No declarator, list of parameters or parameter is a scope of its own. -/
theorem not_mem_scopes (hlanguage : language = .cpp ∨ language = .go) {kind : String}
    (hkind : isDeclarator kind ∨ kind = "parameter_list" ∨ kind ∈ parameterKinds) :
    kind ∉ language.rules.scopes := by
  have htable : ∀ scope ∈ Rules.cpp.scopes ++ Rules.go.scopes,
      ¬ (isDeclarator scope ∨ scope = "parameter_list" ∨ scope ∈ parameterKinds) := by
    decide +kernel
  intro hscope
  refine htable kind ?_ hkind
  rcases hlanguage with rfl | rfl
  · exact List.mem_append_left _ hscope
  · exact List.mem_append_right _ hscope

theorem scopeAt_iff (hrules : walk.rules = language.rules)
    (hstructural : walk.options.boundaries = .structural) (hnode : tree.at? place = some node) :
    walk.ScopeAt tree place ↔ node.kind ∈ language.rules.scopes := by
  simp only [ScopeAt, hnode, Option.some.injEq, exists_eq_left', bounds,
    boundary_of_structural hstructural, hrules, List.contains_iff_mem]

/-- Nothing escapes from an owner that is a scope. -/
theorem not_escapes (hrules : walk.rules = language.rules)
    (hstructural : walk.options.boundaries = .structural)
    (howns : tree.OwnsParameter holder owner list parameter)
    (hkind : holder.kind ∈ language.rules.scopes) : ¬ walk.Escapes tree owner parameter := by
  intro hescapes
  apply hescapes owner (List.prefix_refl owner) howns.inside
  exact (scopeAt_iff hrules hstructural howns.owner_at).mpr hkind

/-- A parameter that stands in the list itself escapes from every other owner. -/
theorem escapes_of_child (hlanguage : language = .cpp ∨ language = .go)
    (hrules : walk.rules = language.rules) (hstructural : walk.options.boundaries = .structural)
    {index : Nat} (howns : tree.OwnsParameter holder owner list (list ++ [index]))
    (hkind : holder.kind ∉ language.rules.scopes) :
    walk.Escapes tree owner (list ++ [index]) := by
  intro scope hbelow haround hscope
  obtain ⟨around, hplace, hbounds⟩ := hscope
  have hscopes : around.kind ∈ language.rules.scopes :=
    (scopeAt_iff hrules hstructural hplace).mp ⟨around, hplace, hbounds⟩
  -- The scope is the parameter, the list, a declarator around the list or the owner.
  rcases List.prefix_concat_iff.mp haround with rfl | hupper
  · obtain ⟨parameter, hparameter, hkinds⟩ := howns.parameter_at
    obtain rfl := Option.some.inj (hplace.symm.trans hparameter)
    exact not_mem_scopes hlanguage (Or.inr (Or.inr hkinds)) hscopes
  by_cases hlist : scope = list
  · obtain ⟨parameters, hparameters, hkinds⟩ := howns.list_at
    obtain rfl := Option.some.inj (hplace.symm.trans (hlist ▸ hparameters))
    exact not_mem_scopes hlanguage (Or.inr (Or.inl hkinds)) hscopes
  by_cases howner : owner = scope
  · obtain rfl := Option.some.inj (hplace.symm.trans (howner ▸ howns.owner_at))
    exact hkind hscopes
  · have hdeclarator := howns.nearest scope around ⟨hbelow, howner⟩ ⟨hupper, hlist⟩ hplace
    exact not_mem_scopes hlanguage (Or.inl hdeclarator) hscopes

/-- An identifier outside the owner of a parameter, whose name nothing else declares that is known
there, emits one token. It is the placeholder for variables if the parameter declares the name in
front of it and escapes from an owner that is itself known there, and the name as it is in all other
cases. No parameter escapes from an owner whose kind is a scope. From one of another kind, those
escape that stand in the list itself. -/
theorem emission_outside_owner (hlanguage : language = .cpp ∨ language = .go)
    (hrules : walk.rules = language.rules) (hstructural : walk.options.boundaries = .structural)
    (howns : tree.OwnsParameter holder owner list parameter)
    (hvisited : walk.Visited tree place node) (hpart : walk.part node = .identifier)
    (htext : node.text walk.source ≠ "") (houtside : ¬ owner <+: place)
    (honly : ∀ declaration, declaration ≠ parameter →
      walk.Declares tree declaration (node.text walk.source) → declaration < place →
      ¬ walk.KnownAt tree declaration place) :
    (walk.emissions tree).map Emission.token = (walk.run tree).tokens ∧
      (∃ token, (walk.emissions tree).filter (fun emission => emission.place = place) =
          [⟨place, token⟩] ∧
        (token = .placeholder .variableName ↔
          walk.Declares tree parameter (node.text walk.source) ∧ parameter < place ∧
            walk.Escapes tree owner parameter ∧ walk.KnownAt tree owner place) ∧
        (token ≠ .placeholder .variableName → token = .verbatim (node.text walk.source))) ∧
      (holder.kind ∈ language.rules.scopes → ¬ walk.Escapes tree owner parameter) ∧
      (holder.kind ∉ language.rules.scopes → (∃ index, parameter = list ++ [index]) →
        walk.Escapes tree owner parameter) := by
  refine ⟨tokens_emissions walk tree, ⟨_, emissions_of_identifier hvisited hpart htext, ?_, ?_⟩,
    not_escapes hrules hstructural howns, ?_⟩
  · rw [nameToken_eq_variable_iff,
      isDeclared_arrival_iff (boundary_of_structural hstructural) hvisited,
      ← reaches_outside_iff howns.inside houtside honly]
    simp [State.initial]
  · intro hverbatim
    rw [nameToken, if_neg fun hdeclared => hverbatim (nameToken_eq_variable_iff.mpr hdeclared)]
  · rintro hkind ⟨index, rfl⟩
    exact escapes_of_child hlanguage hrules hstructural howns hkind

/-! ### A parameter that is confined and one that is not -/

theorem visited_of_nodes (hnode : tree.at? place = some node)
    (habove : ∀ entry ∈ tree.nodes, entry.1.IsAbove place → walk.part entry.2 = .construct) :
    walk.Visited tree place node := by
  refine ⟨hnode, ?_⟩
  intro outer holder houter hholder
  exact habove _ (Tree.mem_nodes_of_at? hholder) houter

theorem eq_of_declares
    (honly : ∀ entry ∈ tree.nodes, name ∈ walk.rules.declaredNames walk.source entry.2 →
      entry.1 = parameter) (hdeclares : walk.Declares tree declaration name) :
    declaration = parameter := by
  obtain ⟨holder, hentered, hname⟩ := hdeclares
  exact honly _ (Tree.mem_nodes_of_at? hentered.at_place) hname

def lambdaParameter : Tree :=
  .node (.sound "parameter_declaration" true 3 8 none) [
    .node (.sound "primitive_type" true 3 6 (some "type")) [],
    .node (.sound "identifier" true 7 8 (some "declarator")) []]

/-- The tree of `[](int n) {}(n)`. -/
def calledLambda : Tree :=
  .node (.sound "call_expression" true 0 15 none) [
    .node (.sound "lambda_expression" true 0 12 (some "function")) [
      .node (.sound "lambda_capture_specifier" true 0 2 (some "captures")) [
        .node (.sound "[" false 0 1 none) [],
        .node (.sound "]" false 1 2 none) []],
      .node (.sound "abstract_function_declarator" true 2 9 (some "declarator")) [
        .node (.sound "parameter_list" true 2 9 (some "parameters")) [
          .node (.sound "(" false 2 3 none) [],
          lambdaParameter,
          .node (.sound ")" false 8 9 none) []]],
      .node (.sound "compound_statement" true 10 12 (some "body")) [
        .node (.sound "\x7b" false 10 11 none) [],
        .node (.sound "\x7d" false 11 12 none) []]],
    .node (.sound "argument_list" true 12 15 (some "arguments")) [
      .node (.sound "(" false 12 13 none) [],
      .node (.sound "identifier" true 13 14 none) [],
      .node (.sound ")" false 14 15 none) []]]

def calledLambdaWalk : Walk :=
  ⟨.ofString "[](int n) \x7b\x7d(n)", Language.cpp.rules, ⟨.structural, false⟩⟩

theorem calledLambda_ownsParameter :
    calledLambda.OwnsParameter calledLambda.children[0] [0] [0, 1, 0] [0, 1, 0, 1] where
  owner_at := rfl
  owner_kind := by decide
  owner_above := by decide
  nearest between node houter hinner hnode := by
    have hbetween : ∀ entry ∈ calledLambda.nodes, Place.IsAbove [0] entry.1 →
        entry.1.IsAbove [0, 1, 0] → isDeclarator entry.2.kind := by decide
    exact hbetween (between, node) (Tree.mem_nodes_of_at? hnode) houter hinner
  list_at := ⟨_, rfl, rfl⟩
  list_above := by decide
  parameter_at := ⟨_, rfl, by decide⟩

/-- A lambda opens a scope, so its parameter is not known where it is called. -/
theorem calledLambda_confines_parameter :
    calledLambda.OwnsParameter calledLambda.children[0] [0] [0, 1, 0] [0, 1, 0, 1] ∧
      calledLambdaWalk.Declares calledLambda [0, 1, 0, 1] "n" ∧
      (calledLambdaWalk.emissions calledLambda).filter (fun emission => emission.place = [1, 1]) =
        [⟨[1, 1], .verbatim "n"⟩] := by
  have hdeclares : calledLambdaWalk.Declares calledLambda [0, 1, 0, 1] "n" :=
    ⟨lambdaParameter, ⟨visited_of_nodes rfl (by decide), by decide⟩, by decide⟩
  have honly : ∀ declaration, calledLambdaWalk.Declares calledLambda declaration "n" →
      declaration = [0, 1, 0, 1] := fun _ => eq_of_declares (by decide)
  have hvisited : calledLambdaWalk.Visited calledLambda [1, 1]
      (.node (.sound "identifier" true 13 14 none) []) :=
    visited_of_nodes rfl (by decide)
  have htext : Tree.text (.node (.sound "identifier" true 13 14 none) [])
      calledLambdaWalk.source = "n" := by decide
  obtain ⟨-, ⟨token, htoken, hvariable, hverbatim⟩, hconfined, -⟩ :=
    emission_outside_owner (Or.inl rfl) rfl rfl calledLambda_ownsParameter hvisited (by decide)
      (by simp [htext]) (by decide) fun declaration hother hdeclared =>
        absurd (honly declaration (htext ▸ hdeclared)) hother
  have hescapes := hconfined (by decide)
  have hname : token = .verbatim "n" := by
    rw [← htext]
    apply hverbatim
    intro htaken
    exact hescapes (hvariable.mp htaken).2.2.1
  exact ⟨calledLambda_ownsParameter, hdeclares, hname ▸ htoken⟩

def typeParameter : Tree :=
  .node (.sound "parameter_declaration" true 11 16 none) [
    .node (.sound "identifier" true 11 12 (some "name")) [],
    .node (.sound "type_identifier" true 13 16 (some "type")) []]

/-- The tree of `var f func(n int) = n`. -/
def functionVariable : Tree :=
  .node (.sound "var_declaration" true 0 21 none) [
    .node (.sound "var" false 0 3 none) [],
    .node (.sound "var_spec" true 4 21 none) [
      .node (.sound "identifier" true 4 5 (some "name")) [],
      .node (.sound "function_type" true 6 17 (some "type")) [
        .node (.sound "func" false 6 10 none) [],
        .node (.sound "parameter_list" true 10 17 (some "parameters")) [
          .node (.sound "(" false 10 11 none) [],
          typeParameter,
          .node (.sound ")" false 16 17 none) []]],
      .node (.sound "=" false 18 19 none) [],
      .node (.sound "expression_list" true 20 21 (some "value")) [
        .node (.sound "identifier" true 20 21 none) []]]]

def functionVariableWalk : Walk :=
  ⟨.ofString "var f func(n int) = n", Language.go.rules, ⟨.structural, false⟩⟩

theorem functionVariable_ownsParameter :
    functionVariable.OwnsParameter functionVariable.children[1].children[1] [1, 1] [1, 1, 1]
      [1, 1, 1, 1] where
  owner_at := rfl
  owner_kind := by decide
  owner_above := by decide
  nearest between node houter hinner hnode := by
    have hbetween : ∀ entry ∈ functionVariable.nodes, Place.IsAbove [1, 1] entry.1 →
        entry.1.IsAbove [1, 1, 1] → isDeclarator entry.2.kind := by decide
    exact hbetween (between, node) (Tree.mem_nodes_of_at? hnode) houter hinner
  list_at := ⟨_, rfl, rfl⟩
  list_above := by decide
  parameter_at := ⟨_, rfl, by decide⟩

/-- The parameter of a function type makes a variable of a name outside the type. -/
theorem functionVariable_leaks_parameter :
    ¬ ∀ (source : Source) (language : Language) (distinguishNumbers : Bool)
        (tree holder node : Tree) (owner list parameter place : Place),
      language = .cpp ∨ language = .go →
      tree.OwnsParameter holder owner list parameter →
      Declares ⟨source, language.rules, ⟨.structural, distinguishNumbers⟩⟩ tree parameter
        (node.text source) →
      (∀ declaration, Declares ⟨source, language.rules, ⟨.structural, distinguishNumbers⟩⟩ tree
        declaration (node.text source) → declaration = parameter) →
      Visited ⟨source, language.rules, ⟨.structural, distinguishNumbers⟩⟩ tree place node →
      part ⟨source, language.rules, ⟨.structural, distinguishNumbers⟩⟩ node = .identifier →
      node.text source ≠ "" →
      ¬ owner <+: place →
      (emissions ⟨source, language.rules, ⟨.structural, distinguishNumbers⟩⟩ tree).filter
          (fun emission => emission.place = place) =
        [⟨place, .verbatim (node.text source)⟩] := by
  intro hclaim
  have hdeclares : functionVariableWalk.Declares functionVariable [1, 1, 1, 1] "n" :=
    ⟨typeParameter, ⟨visited_of_nodes rfl (by decide), by decide⟩, by decide⟩
  have honly : ∀ declaration, functionVariableWalk.Declares functionVariable declaration "n" →
      declaration = [1, 1, 1, 1] := fun _ => eq_of_declares (by decide)
  have hvisited : functionVariableWalk.Visited functionVariable [1, 3, 0]
      (.node (.sound "identifier" true 20 21 none) []) :=
    visited_of_nodes rfl (by decide)
  have htext : Tree.text (.node (.sound "identifier" true 20 21 none) [])
      functionVariableWalk.source = "n" := by
    decide
  have hverbatim := hclaim functionVariableWalk.source .go false functionVariable _ _ [1, 1]
    [1, 1, 1] [1, 1, 1, 1] [1, 3, 0] (Or.inr rfl) functionVariable_ownsParameter (htext ▸ hdeclares)
    (fun declaration hdeclared => honly declaration (htext ▸ hdeclared)) hvisited (by decide)
    (by simp [htext]) (by decide)
  revert hverbatim
  decide

end Walk

end CanonicalTokens
