import CanonicalTokens.Proofs.Names.Alike
import CanonicalTokens.Rules.Cpp

/-!
# Names of C++ declarations that are alike

Declarators are found by their fields, and where a wrapper has no such field, by their kinds. So a
comment is overlooked wherever it stands.
-/

namespace CanonicalTokens.Rules.Cpp

theorem wrapped_eq (forest : List Tree) :
    wrapped forest = (forest.find? (Tree.isUnder "declarator")).toList.flatMap bottom := by
  induction forest with
  | nil => rfl
  | cons tree rest ih =>
    rw [wrapped]
    split
    next hunder => rw [List.find?_cons_of_pos hunder, Option.toList_some, List.flatMap_singleton]
    next hunder => rw [List.find?_cons_of_neg hunder, ih]

theorem wrappedNamed_eq (forest : List Tree) :
    wrappedNamed forest = (forest.filter Tree.isNamed).flatMap bottom := by
  induction forest with
  | nil => rfl
  | cons tree rest ih =>
    rw [wrappedNamed, ih, List.filter_cons]
    split <;> simp

theorem bottom_comment {comment : Tree} (hcomment : comment.IsComment) : bottom comment = [] := by
  obtain ⟨start, stop, rfl⟩ := hcomment
  simp [bottom, wrappers, Label.sound]

variable {permitted : Label → List Tree → List Tree → Prop} {related : Tree → Tree → Prop}
  {tree other : Tree}

/-- Chains of declarators lead to related names, wherever comments stand among them. -/
theorem alike_bottom (halike : Tree.Alike permitted related) (hrelated : related tree other) :
    List.Forall₂ related (bottom tree) (bottom other) := by
  induction tree using Tree.children_induction generalizing other with
  | node label children ih =>
    obtain ⟨image, images⟩ := other
    have hkind : image.kind = label.kind := halike.kind_eq hrelated
    have houtermost : List.Forall₂ related (Tree.outermost ["identifier"] (.node label children))
        (Tree.outermost ["identifier"] (.node image images)) :=
      halike.outermost (by decide) hrelated
    have hnamed := (halike.namedChildren hrelated).flatMap
      (fun child hchild other => ih child (List.mem_of_mem_filter hchild))
      fun comment => bottom_comment
    rw [bottom, bottom, hkind, wrapped_eq, wrapped_eq, wrappedNamed_eq, wrappedNamed_eq,
      ← List.isSome_find?, ← List.isSome_find?]
    by_cases hidentifier : label.kind = "identifier"
    · rw [if_pos hidentifier, if_pos hidentifier]
      exact .cons hrelated .nil
    rw [if_neg hidentifier, if_neg hidentifier]
    by_cases hbinding : label.kind = "structured_binding_declarator"
    · rw [if_pos hbinding, if_pos hbinding]
      exact houtermost
    rw [if_neg hbinding, if_neg hbinding]
    by_cases hwrapper : wrappers.contains label.kind
    · rw [if_pos hwrapper, if_pos hwrapper]
      obtain ⟨hnone, hother⟩ | ⟨child, found, hchild, hfound, hsame⟩ :=
        halike.childUnder? "declarator" hrelated
      · rw [Tree.childUnder?, Tree.children] at hnone hother
        rw [hnone, hother]
        exact hnamed
      · rw [Tree.childUnder?, Tree.children] at hchild hfound
        rw [hchild, hfound]
        simpa using ih child (List.mem_of_find?_eq_some hchild) hsame
    · rw [if_neg hwrapper, if_neg hwrapper]
      exact .nil

theorem alike_declared (halike : Tree.Alike permitted related) (hrelated : related tree other) :
    List.Forall₂ related (declared tree) (declared other) :=
  (Tree.Sprinkled.of_forall₂ (halike.childrenUnder "declarator" hrelated)).flatMap
    (fun _ _ _ => alike_bottom halike) fun _ => bottom_comment

theorem alike_bound (halike : Tree.Alike permitted related) (hrelated : related tree other) :
    List.Forall₂ related (cpp.bound tree) (cpp.bound other) := by
  apply Rules.alike_bound halike hrelated
  simp only [cpp, List.forall_mem_cons, List.not_mem_nil, false_imp_iff, implies_true, and_true]
  have hdeclared := alike_declared halike hrelated
  exact ⟨fun _ => hdeclared, fun _ => hdeclared, fun _ => hdeclared, fun _ => hdeclared⟩

end CanonicalTokens.Rules.Cpp
