import CanonicalTokens.Proofs.Names.Kinds
import CanonicalTokens.Proofs.Walk.Renaming

/-!
# Names where they are declared

Under boundaries by constructs, what a construct declares is known below it, up to its end. So an
identifier that holds one of these names is a variable at this very place. A C# parameter that is
its own name is no identifier, and its text is emitted as it is.
-/

namespace CanonicalTokens.Walk

variable {walk : Walk} {tree node holder name : Tree} {outer inner place : Place}
  {language : Language}

theorem boundary_of_structural (hstructural : walk.options.boundaries = .structural) :
    walk.boundary = .constructs walk.rules.scopes := by
  unfold boundary Rules.boundary
  rw [hstructural]
  cases walk.rules.braces <;> rfl

theorem part_of_isIdentifier (hrules : walk.rules = language.rules)
    (hkept : walk.part node ≠ .ignored) (hnamed : node.isNamed)
    (hidentifier : language.rules.isIdentifier node.kind) : walk.part node = .identifier := by
  rw [part_of_named hkept hnamed, hrules, Language.literalRule?_of_isIdentifier hidentifier]
  exact if_pos hidentifier

/-- A construct does not close around the nodes below it, so they know the names it declares. -/
theorem reaches_of_isAbove (hentered : walk.Entered tree outer holder)
    (hbound : name ∈ walk.rules.bound holder) (habove : outer.IsAbove place) :
    walk.Reaches tree (name.text walk.source) place := by
  refine ⟨outer, ⟨holder, hentered, List.mem_map_of_mem hbound⟩, habove.lt, ?_⟩
  intro scope hinitial _
  exact habove.of_prefix_left hinitial

/-- The walk declares the names of a construct when it comes to it, and the scope it opens is not
left before the name. -/
theorem emissions_at_bound_identifier (hstructural : walk.options.boundaries = .structural)
    (hentered : walk.Entered tree outer holder) (hbound : name ∈ walk.rules.bound holder)
    (hvisited : walk.Visited tree (outer ++ inner) name) (hpart : walk.part name = .identifier)
    (htext : name.text walk.source ≠ "") :
    (walk.emissions tree).filter (fun emission => emission.place = outer ++ inner) =
      [⟨outer ++ inner, .placeholder .variableName⟩] := by
  have habove : outer.IsAbove (outer ++ inner) := by
    refine ⟨List.prefix_append outer inner, ?_⟩
    intro hsame
    have hplace := hvisited.at_place
    rw [← hsame, hentered.at_place] at hplace
    obtain rfl := Option.some.inj hplace
    rw [hentered.construct] at hpart
    cases hpart
  have hdeclared : (walk.arrival tree .initial (outer ++ inner)).scopes.isDeclared
      (name.text walk.source) :=
    (isDeclared_arrival_iff (boundary_of_structural hstructural) hvisited).mpr
      (Or.inr (reaches_of_isAbove hentered hbound habove))
  rw [emissions_of_identifier hvisited hpart htext, nameToken_eq_variable_iff.mpr hdeclared]

/-- Every node that the walk comes to and that holds a name of a construct around it emits one token
for this name, the placeholder for variables, but for a node that declares itself: this emits its
text as it is, if it emits anything. -/
theorem emission_at_bound (hrules : walk.rules = language.rules)
    (hstructural : walk.options.boundaries = .structural)
    (hnamed : ∀ node ∈ tree.subtrees,
      node.kind = "identifier" ∨ node.kind = "field_identifier" → node.isNamed)
    (hattributes : Rules.Python.AttributesEndInNames tree)
    (hentered : walk.Entered tree outer holder) (hbound : name ∈ walk.rules.bound holder)
    (hvisited : walk.Visited tree (outer ++ inner) name)
    (hkept : ¬ (name.label.missing ∨ walk.rules.isSkipped name.kind))
    (htext : name.text walk.source ≠ "") :
    (walk.emissions tree).map Emission.token = (walk.run tree).tokens ∧
      ((walk.emissions tree).filter (fun emission => emission.place = outer ++ inner) =
          [⟨outer ++ inner, .placeholder .variableName⟩] ↔ ¬ language.DeclaresItself holder) ∧
      (language.DeclaresItself holder →
        (walk.emissions tree).filter (fun emission => emission.place = outer ++ inner) =
          if name.isLeaf && !Text.allBlank (name.text walk.source).toList then
            [⟨outer ++ inner, .verbatim (name.text walk.source)⟩]
          else []) := by
  have hignored : walk.part name ≠ .ignored := by rwa [Ne, part_eq_ignored_iff]
  have hitself : language.DeclaresItself holder →
      (walk.emissions tree).filter (fun emission => emission.place = outer ++ inner) =
        if name.isLeaf && !Text.allBlank (name.text walk.source).toList then
          [⟨outer ++ inner, .verbatim (name.text walk.source)⟩]
        else [] := by
    intro hdeclares
    obtain rfl := Language.eq_of_mem_bound hdeclares (hrules ▸ hbound)
    exact emissions_of_construct ⟨hvisited, hentered.construct⟩
  refine ⟨tokens_emissions walk tree, ⟨?_, ?_⟩, hitself⟩
  · intro hvariable hdeclares
    rw [hitself hdeclares] at hvariable
    split at hvariable
    · simp at hvariable
    · cases hvariable
  · intro hdeclares
    have hbelow : Rules.Python.AttributesEndInNames holder := fun node hnode =>
      hattributes node (Tree.subtrees_subset_of_at? hentered.at_place hnode)
    have hidentifier :=
      Language.isIdentifier_of_mem_bound hbelow hdeclares (hrules ▸ hbound)
    have hisNamed := hnamed name (Tree.mem_subtrees_of_at? hvisited.at_place)
      (Language.kind_of_isIdentifier hidentifier)
    exact emissions_at_bound_identifier hstructural hentered hbound hvisited
      (part_of_isIdentifier hrules hignored hisNamed hidentifier) htext

/-- The tree of `(x) => x`. -/
def listedLambda : Tree :=
  .node (.sound "lambda_expression" true 0 8 none) [
    .node (.sound "parameter_list" true 0 3 (some "parameters")) [
      .node (.sound "(" false 0 1 none) [],
      .node (.sound "parameter" true 1 2 none) [
        .node (.sound "identifier" true 1 2 (some "name")) []],
      .node (.sound ")" false 2 3 none) []],
    .node (.sound "=>" false 4 6 none) [],
    .node (.sound "identifier" true 7 8 (some "body")) []]

def listedWalk : Walk := ⟨.ofString "(x) => x", Language.csharp.rules, ⟨.structural, false⟩⟩

/-- A parameter in a list is an identifier of its own, so it becomes a variable. -/
theorem variable_at_listed_parameter :
    Rules.Python.AttributesEndInNames listedLambda ∧
      (listedWalk.emissions listedLambda).filter (fun emission => emission.place = [0, 1] ++ [0]) =
        [⟨[0, 1] ++ [0], .placeholder .variableName⟩] := by
  have hrules : listedWalk.rules = Language.csharp.rules := rfl
  have hattributes : Rules.Python.AttributesEndInNames listedLambda :=
    .of_forall_ne (by decide)
  have hentered : listedWalk.Entered listedLambda [0, 1]
      (.node (.sound "parameter" true 1 2 none) [
        .node (.sound "identifier" true 1 2 (some "name")) []]) :=
    entered_cons_iff.mpr ⟨by decide, _, rfl,
      entered_cons_iff.mpr ⟨by decide, _, rfl, entered_nil_iff.mpr ⟨rfl, by decide⟩⟩⟩
  have hvisited : listedWalk.Visited listedLambda ([0, 1] ++ [0])
      (.node (.sound "identifier" true 1 2 (some "name")) []) := hentered.visited_child rfl
  obtain ⟨-, hvariable, -⟩ := emission_at_bound hrules rfl (by decide) hattributes hentered
    (List.mem_singleton_self _) hvisited (by decide) (by decide)
  refine ⟨hattributes, hvariable.mpr ?_⟩
  rintro ⟨-, hkind, -⟩
  revert hkind
  decide

/-- A parameter that is a leaf of its own leaks its name where it declares it. -/
theorem bareParameter_leaks :
    ¬ ∀ (source : Source) (language : Language) (distinguishNumbers : Bool)
        (tree holder name : Tree) (outer inner : Place),
      (∀ node ∈ tree.subtrees,
        node.kind = "identifier" ∨ node.kind = "field_identifier" → node.isNamed) →
      Rules.Python.AttributesEndInNames tree →
      Entered ⟨source, language.rules, ⟨.structural, distinguishNumbers⟩⟩ tree outer holder →
      name ∈ language.rules.bound holder →
      Visited ⟨source, language.rules, ⟨.structural, distinguishNumbers⟩⟩ tree (outer ++ inner)
        name →
      ¬ (name.label.missing ∨ language.rules.isSkipped name.kind) →
      name.text source ≠ "" →
      (emissions ⟨source, language.rules, ⟨.structural, distinguishNumbers⟩⟩ tree).filter
          (fun emission => emission.place = outer ++ inner) =
        [⟨outer ++ inner, .placeholder .variableName⟩] := by
  intro hclaim
  have hentered : Entered ⟨.ofString "x => x", Language.csharp.rules, ⟨.structural, false⟩⟩
      bareLambda ([0] ++ [])
      (.node (.sound "implicit_parameter" true 0 1 (some "parameters")) []) :=
    entered_cons_iff.mpr ⟨by decide, _, rfl, entered_nil_iff.mpr ⟨rfl, by decide⟩⟩
  have hvariable := hclaim _ .csharp false _ _ _ [0] [] (by decide)
    (.of_forall_ne (by decide)) hentered (List.mem_singleton_self _) hentered.toVisited
    (by decide) (by decide)
  rw [emissions_of_construct hentered] at hvariable
  revert hvariable
  decide

end CanonicalTokens.Walk
