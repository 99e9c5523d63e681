import CanonicalTokens.Proofs.Names.Alike
import CanonicalTokens.Rules.CSharp

/-!
# Names of C# declarations that are alike

Two readings look at what stands next to what. A member of an anonymous object has its name directly
before the equals sign, and a bare parameter is the name itself if nothing named is in it. A comment
in between is not overlooked there.
-/

namespace CanonicalTokens.Rules.CSharp

def overlooks (label : Label) (before behind : List Tree) : Bool :=
  if label.kind = "anonymous_object_creation_expression" then
    !(before.getLast?.any (fun name => name.kind = "identifier") && behind.head?.any isEqualsSign)
  else if label.kind = "implicit_parameter" then (before ++ behind).any Tree.isNamed
  else true

variable {permitted : Label → List Tree → List Tree → Prop} {related : Tree → Tree → Prop}
  {tree other : Tree}

theorem assigned_cons (name : Tree) (rest : List Tree) :
    assigned (name :: rest) =
      if name.kind = "identifier" && rest.head?.any isEqualsSign then name :: assigned rest
      else assigned rest := by
  cases rest with
  | nil => simp [assigned]
  | cons next rest => rw [assigned, List.head?_cons, Option.any_some]

section

variable (halike : Tree.Alike permitted related)

include halike

theorem alike_variableNames (hrelated : related tree other) :
    List.Forall₂ related (variableNames tree) (variableNames other) := by
  unfold variableNames
  obtain ⟨hnone, hother⟩ | ⟨pattern, image, hpattern, himage, hsame⟩ :=
    (halike.namedChildren hrelated).find? (fun child => child.kind = "tuple_pattern")
      (fun _ _ hchild => by rw [halike.kind_eq hchild]) fun _ hcomment => by simp [hcomment.kind_eq]
  · rw [hnone, hother]
    exact halike.ownIdentifier hrelated
  · rw [hpattern, himage]
    exact halike.outermost (by decide) hsame

theorem alike_iterated (hrelated : related tree other) :
    List.Forall₂ related (iterated tree) (iterated other) := by
  unfold iterated
  obtain ⟨hnone, hother⟩ | ⟨left, image, hleft, himage, hsame⟩ := halike.childUnder? "left" hrelated
  · rw [hnone, hother]
    exact .nil
  · rw [hleft, himage]
    exact halike.outermost (by decide) hsame

theorem isEqualsSign_eq (hrelated : related tree other) :
    isEqualsSign other = isEqualsSign tree := by
  rw [isEqualsSign, isEqualsSign, halike.isNamed_eq hrelated, halike.kind_eq hrelated]

theorem any_isEqualsSign_eq {forest others : List Tree}
    (hforest : List.Forall₂ related forest others) :
    others.head?.any isEqualsSign = forest.head?.any isEqualsSign := by
  cases hforest with
  | nil => rfl
  | cons hfirst _ =>
    rw [List.head?_cons, List.head?_cons, Option.any_some, Option.any_some,
      isEqualsSign_eq halike hfirst]

theorem alike_assigned {forest others : List Tree} (hforest : List.Forall₂ related forest others) :
    List.Forall₂ related (assigned forest) (assigned others) := by
  induction hforest with
  | nil => exact .nil
  | cons hname hrest ih =>
    rw [assigned_cons, assigned_cons, halike.kind_eq hname, any_isEqualsSign_eq halike hrest]
    split
    · exact .cons hname ih
    · exact ih

end

theorem isEqualsSign_comment {comment : Tree} (hcomment : comment.IsComment) :
    isEqualsSign comment = false := by
  rw [isEqualsSign, hcomment.isNamed]
  rfl

theorem assigned_comment_cons {comment : Tree} (hcomment : comment.IsComment)
    (behind : List Tree) : assigned (comment :: behind) = assigned behind := by
  cases behind with
  | nil => rfl
  | cons next rest => simp [assigned, hcomment.kind_eq]

/-- A comment that does not part a name from its equals sign is overlooked. -/
theorem alike_assigned_comment (halike : Tree.Alike permitted related)
    {before befores behind behinds : List Tree} {comment : Tree}
    (hbefore : List.Forall₂ related before befores)
    (hbehind : List.Forall₂ related behind behinds) (hcomment : comment.IsComment)
    (hparted : ¬ (before.getLast?.any (fun name => name.kind = "identifier") ∧
      behind.head?.any isEqualsSign)) :
    List.Forall₂ related (assigned (before ++ behind))
      (assigned (befores ++ comment :: behinds)) := by
  induction hbefore with
  | nil =>
    rw [List.nil_append, List.nil_append, assigned_comment_cons hcomment]
    exact alike_assigned halike hbehind
  | @cons name image before befores hname hbefore ih =>
    rw [List.cons_append, List.cons_append, assigned_cons, assigned_cons, halike.kind_eq hname]
    cases hbefore with
    | nil =>
      rw [List.nil_append, List.nil_append, assigned_comment_cons hcomment, if_neg, if_neg]
      · exact alike_assigned halike hbehind
      · simp [isEqualsSign_comment hcomment]
      · simpa using hparted
    | @cons next nextImage before befores hnext hbefore =>
      have hlater := ih (by simpa using hparted)
      rw [List.cons_append, List.cons_append, List.head?_cons, List.head?_cons, Option.any_some,
        Option.any_some, isEqualsSign_eq halike hnext]
      split
      · exact .cons hname hlater
      · exact hlater

section

variable (halike : Tree.Alike (fun label before behind => overlooks label before behind) related)

include halike

/-- A member is an identifier right before an equals sign, so the two have to stay together. -/
theorem alike_ownMembers (hkind : tree.kind = "anonymous_object_creation_expression")
    (hrelated : related tree other) :
    List.Forall₂ related (ownMembers tree) (ownMembers other) := by
  have hchildren := halike.children tree other hrelated
  unfold ownMembers
  generalize tree.children = forest, other.children = others at hchildren
  cases hchildren with
  | same hforest => exact alike_assigned halike hforest
  | comment hbefore hbehind hcomment hpermitted =>
    have hlabel : tree.label.kind = "anonymous_object_creation_expression" := hkind
    rw [overlooks, if_pos hlabel] at hpermitted
    refine alike_assigned_comment halike hbefore hbehind hcomment ?_
    rintro ⟨hname, hequals⟩
    simp [hname, hequals] at hpermitted

/-- A parameter without named children is its own name, so no comment may be the first of them. -/
theorem alike_bareParameter (hkind : tree.kind = "implicit_parameter")
    (hrelated : related tree other) :
    List.Forall₂ related (bareParameter tree) (bareParameter other) := by
  have hnamed : other.children.any Tree.isNamed = tree.children.any Tree.isNamed := by
    have hchildren := halike.children tree other hrelated
    generalize tree.children = forest, other.children = others at hchildren
    cases hchildren with
    | same hforest => exact halike.any_isNamed_eq hforest
    | comment hbefore hbehind hcomment hpermitted =>
      have hlabel : tree.label.kind = "implicit_parameter" := hkind
      rw [overlooks, hlabel, if_neg (by decide), if_pos rfl] at hpermitted
      rw [hpermitted]
      simp [hcomment.isNamed]
  have hempty : other.namedChildren.isEmpty = tree.namedChildren.isEmpty := by
    rw [Bool.eq_iff_iff, List.isEmpty_iff, List.isEmpty_iff, Tree.namedChildren,
      Tree.namedChildren, List.filter_eq_nil_iff, List.filter_eq_nil_iff, ← List.any_eq_false,
      ← List.any_eq_false, hnamed]
  unfold bareParameter
  rw [hempty]
  split
  · exact .cons hrelated .nil
  · exact halike.outermost (by decide) hrelated

/-- All C# constructs find related names in related trees. -/
theorem alike_bound (hrelated : related tree other) :
    List.Forall₂ related (csharp.bound tree) (csharp.bound other) := by
  apply Rules.alike_bound halike hrelated
  simp only [csharp, List.forall_mem_cons, List.not_mem_nil, false_imp_iff, implies_true, and_true]
  have hname := halike.nameIdentifiers hrelated
  exact ⟨fun _ => alike_variableNames halike hrelated, fun _ => hname,
    fun hkind => alike_bareParameter halike hkind hrelated,
    fun _ => alike_iterated halike hrelated, fun _ => hname, fun _ => hname, fun _ => hname,
    fun hkind => alike_ownMembers halike hkind hrelated⟩

end

/-! ### Comments that are not overlooked -/

/-- A comment between the name of a member and its equals sign hides one member. -/
theorem length_assigned_parted {comment name equals : Tree} (hcomment : comment.IsComment)
    (hname : name.kind = "identifier") (hequals : isEqualsSign equals) (front rest : List Tree) :
    (assigned (front ++ name :: equals :: rest)).length =
      (assigned (front ++ name :: comment :: equals :: rest)).length + 1 := by
  induction front with
  | nil =>
    simp [assigned_cons name, hname, hequals, isEqualsSign_comment hcomment,
      assigned_comment_cons hcomment]
  | cons first front ih =>
    rw [List.cons_append, List.cons_append, assigned_cons, assigned_cons]
    simp only [List.head?_append, List.head?_cons]
    split
    · rw [List.length_cons, List.length_cons, ih]
    · exact ih

theorem bareParameter_of_empty {tree : Tree} (hnamed : tree.namedChildren = []) :
    bareParameter tree = [tree] := by
  rw [bareParameter, hnamed]
  rfl

theorem bareParameter_of_comment {tree comment : Tree} (hcomment : comment.IsComment)
    (hkind : tree.kind = "implicit_parameter") (hnamed : tree.namedChildren = [comment]) :
    bareParameter tree = [] := by
  have hwanted : tree.kind ∉ ["identifier"] := by
    rw [hkind]
    decide
  rw [bareParameter, hnamed, Tree.outermost_eq hwanted, hnamed, List.flatMap_singleton,
    Tree.outermost_comment (by decide) hcomment]
  rfl

/-- A comment that is not overlooked takes a name away. -/
theorem length_bound_of_not_overlooks {label : Label} {before behind : List Tree} {comment : Tree}
    (hcomment : comment.IsComment) (hoverlooks : overlooks label before behind = false) :
    (csharp.bound (.node label (before ++ behind))).length =
      (csharp.bound (.node label (before ++ comment :: behind))).length + 1 := by
  unfold overlooks at hoverlooks
  split at hoverlooks
  next hkind =>
    have hbinder : ∀ children, csharp.declarations.lookup (Tree.node label children).kind =
        some ownMembers := by
      intro children
      rw [Tree.kind, Tree.label, hkind]
      rfl
    obtain ⟨hname, hequals⟩ : before.getLast?.any (fun name => name.kind = "identifier") ∧
        behind.head?.any isEqualsSign := by simpa using hoverlooks
    obtain ⟨name, hlast, hidentifier⟩ := (Option.any_eq_true _ _).mp hname
    obtain ⟨front, rfl⟩ := List.getLast?_eq_some_iff.mp hlast
    obtain ⟨equals, hfirst, hsign⟩ := (Option.any_eq_true _ _).mp hequals
    obtain ⟨rest, rfl⟩ := List.head?_eq_some_iff.mp hfirst
    rw [bound_of_lookup (hbinder _), bound_of_lookup (hbinder _), ownMembers, ownMembers,
      Tree.children, Tree.children, ← List.append_cons, ← List.append_cons]
    exact length_assigned_parted hcomment (of_decide_eq_true hidentifier) hsign front rest
  next hkind =>
    split at hoverlooks
    next hparameter =>
      have hbinder : ∀ children, csharp.declarations.lookup (Tree.node label children).kind =
          some bareParameter := by
        intro children
        rw [Tree.kind, Tree.label, hparameter]
        rfl
      have hnone : (before ++ behind).filter Tree.isNamed = [] := by
        rw [List.filter_eq_nil_iff, ← List.any_eq_false]
        exact hoverlooks
      have htree : bareParameter (.node label (before ++ behind)) =
          [.node label (before ++ behind)] := bareParameter_of_empty hnone
      rw [List.filter_append, List.append_eq_nil_iff] at hnone
      have hkind : (Tree.node label (before ++ comment :: behind)).kind = "implicit_parameter" :=
        hparameter
      have hother : bareParameter (.node label (before ++ comment :: behind)) = [] := by
        apply bareParameter_of_comment hcomment hkind
        rw [Tree.namedChildren_comment hcomment, hnone.1, hnone.2, List.nil_append]
      rw [bound_of_lookup (hbinder _), bound_of_lookup (hbinder _), htree, hother]
      rfl
    next => cases hoverlooks

end CanonicalTokens.Rules.CSharp
