import Mathlib.Data.List.Forall2
import CanonicalTokens.Proofs.Place
import CanonicalTokens.Rules

/-!
# Names of trees that are alike

Which nodes hold the names of a construct depends on kinds, fields and the order of children, and
neither on texts nor on where the nodes stand in the source. So if two trees are alike, the names of
one are held by nodes that are alike to those of the other, one by one. Trees that are alike may
differ in a comment between their children, as long as it stands where the reading of names
overlooks it. What "alike" means is left open: all that counts is that it passes on to children.
-/

namespace CanonicalTokens

def Label.shape (label : Label) : Label :=
  { label with start := 0, stop := 0 }

namespace Tree

def IsComment (tree : Tree) : Prop :=
  ∃ start stop, tree = .node (.sound "comment" true start stop none) []

theorem IsComment.kind_eq {comment : Tree} (hcomment : comment.IsComment) :
    comment.kind = "comment" := by
  obtain ⟨start, stop, rfl⟩ := hcomment
  rfl

theorem IsComment.isNamed {comment : Tree} (hcomment : comment.IsComment) : comment.isNamed := by
  obtain ⟨start, stop, rfl⟩ := hcomment
  rfl

theorem IsComment.not_isUnder {comment : Tree} (hcomment : comment.IsComment) (field : String) :
    comment.isUnder field = false := by
  obtain ⟨start, stop, rfl⟩ := hcomment
  rfl

theorem namedChildren_comment {label : Label} {before behind : List Tree} {comment : Tree}
    (hcomment : comment.IsComment) :
    (node label (before ++ comment :: behind)).namedChildren =
      before.filter isNamed ++ comment :: behind.filter isNamed := by
  rw [namedChildren, children, List.filter_append, List.filter_cons, if_pos hcomment.isNamed]

/-! ### Forests with comments in between -/

/-- The trees of two forests are related one by one, in order, but for comments in the second. -/
inductive Sprinkled (related : Tree → Tree → Prop) : List Tree → List Tree → Prop
  | nil : Sprinkled related [] []
  | cons {tree other : Tree} {forest others : List Tree} (hrelated : related tree other)
      (hrest : Sprinkled related forest others) :
      Sprinkled related (tree :: forest) (other :: others)
  | comment {comment : Tree} {forest others : List Tree} (hcomment : comment.IsComment)
      (hrest : Sprinkled related forest others) : Sprinkled related forest (comment :: others)

variable {related : Tree → Tree → Prop} {forest others : List Tree}

theorem Sprinkled.of_forall₂ (hforest : List.Forall₂ related forest others) :
    Sprinkled related forest others := by
  induction hforest with
  | nil => exact .nil
  | cons hrelated _ ih => exact .cons hrelated ih

theorem Sprinkled.append {front fronts : List Tree} (hfront : Sprinkled related front fronts)
    (hforest : Sprinkled related forest others) :
    Sprinkled related (front ++ forest) (fronts ++ others) := by
  induction hfront with
  | nil => exact hforest
  | cons hrelated _ ih => exact .cons hrelated ih
  | comment hcomment _ ih => exact .comment hcomment ih

/-- A filter that no comment passes does not see the comments that were sprinkled in. -/
theorem Sprinkled.filter (keep : Tree → Bool) (hforest : Sprinkled related forest others)
    (hkeep : ∀ tree other, related tree other → keep other = keep tree)
    (hcomment : ∀ comment : Tree, comment.IsComment → keep comment = false) :
    List.Forall₂ related (forest.filter keep) (others.filter keep) := by
  induction hforest with
  | nil => exact .nil
  | @cons tree other forest others hrelated _ ih =>
    rw [List.filter_cons, List.filter_cons, hkeep tree other hrelated]
    split
    · exact .cons hrelated ih
    · exact ih
  | comment hstray _ ih =>
    rw [List.filter_cons, hcomment _ hstray]
    exact ih

theorem Sprinkled.filter_isNamed (hforest : Sprinkled related forest others)
    (hnamed : ∀ tree other, related tree other → other.isNamed = tree.isNamed) :
    Sprinkled related (forest.filter isNamed) (others.filter isNamed) := by
  induction hforest with
  | nil => exact .nil
  | @cons tree other forest others hrelated _ ih =>
    rw [List.filter_cons, List.filter_cons, hnamed tree other hrelated]
    split
    · exact .cons hrelated ih
    · exact ih
  | comment hcomment _ ih =>
    rw [List.filter_cons, if_pos hcomment.isNamed]
    exact .comment hcomment ih

/-- What is gathered from all trees of a forest is related if comments give nothing. -/
theorem Sprinkled.flatMap {gather : Tree → List Tree} (hforest : Sprinkled related forest others)
    (hgather : ∀ tree ∈ forest, ∀ other, related tree other →
      List.Forall₂ related (gather tree) (gather other))
    (hcomment : ∀ comment : Tree, comment.IsComment → gather comment = []) :
    List.Forall₂ related (forest.flatMap gather) (others.flatMap gather) := by
  induction hforest with
  | nil => exact .nil
  | @cons tree other forest others hrelated _ ih =>
    have hfirst := hgather tree List.mem_cons_self other hrelated
    have hothers := ih fun later hlater => hgather later (List.mem_cons_of_mem tree hlater)
    rw [List.flatMap_cons, List.flatMap_cons]
    exact List.rel_append hfirst hothers
  | comment hstray _ ih =>
    rw [List.flatMap_cons, hcomment _ hstray, List.nil_append]
    exact ih hgather

/-- The first node of some sort is the same with comments sprinkled in, unless a comment is of that
sort. -/
theorem Sprinkled.find? (wanted : Tree → Bool) (hforest : Sprinkled related forest others)
    (hwanted : ∀ tree other, related tree other → wanted other = wanted tree)
    (hcomment : ∀ comment : Tree, comment.IsComment → wanted comment = false) :
    (forest.find? wanted = none ∧ others.find? wanted = none) ∨
      ∃ tree other, forest.find? wanted = some tree ∧ others.find? wanted = some other ∧
        related tree other := by
  induction hforest with
  | nil => exact Or.inl ⟨rfl, rfl⟩
  | @cons tree other forest others hrelated _ ih =>
    by_cases htree : wanted tree
    · have hother : wanted other := (hwanted tree other hrelated).trans htree
      refine Or.inr ⟨tree, other, ?_, ?_, hrelated⟩
      · exact List.find?_cons_of_pos htree
      · exact List.find?_cons_of_pos hother
    · have hother : ¬ wanted other := by rwa [hwanted tree other hrelated]
      rw [List.find?_cons_of_neg htree, List.find?_cons_of_neg hother]
      exact ih
  | @comment comment forest others hstray _ ih =>
    have hunwanted : ¬ wanted comment := by simp [hcomment comment hstray]
    rw [List.find?_cons_of_neg hunwanted]
    exact ih

/-! ### Trees that are alike -/

/-- The trees of two forests are related one by one, in order, but for at most one comment in the
second. It stands where the trees of the first forest that are before and behind it permit. -/
inductive Commented (related : Tree → Tree → Prop) (permitted : List Tree → List Tree → Prop) :
    List Tree → List Tree → Prop
  | same {forest others : List Tree} (hforest : List.Forall₂ related forest others) :
      Commented related permitted forest others
  | comment {front fronts back backs : List Tree} {comment : Tree}
      (hfront : List.Forall₂ related front fronts) (hback : List.Forall₂ related back backs)
      (hcomment : comment.IsComment) (hpermitted : permitted front back) :
      Commented related permitted (front ++ back) (fronts ++ comment :: backs)

theorem Commented.sprinkled {permitted : List Tree → List Tree → Prop}
    (hforest : Commented related permitted forest others) : Sprinkled related forest others := by
  cases hforest with
  | same hforest => exact .of_forall₂ hforest
  | comment hfront hback hcomment _ =>
    exact (Sprinkled.of_forall₂ hfront).append (.comment hcomment (.of_forall₂ hback))

/-- Related nodes have labels of one shape, and their children are related in turn. Where a comment
may stand between the children of a node depends on its label. -/
structure Alike (permitted : Label → List Tree → List Tree → Prop)
    (related : Tree → Tree → Prop) : Prop where
  shape : ∀ tree other, related tree other → other.label.shape = tree.label.shape
  children : ∀ tree other, related tree other →
    Commented related (permitted tree.label) tree.children other.children

namespace Alike

variable {permitted : Label → List Tree → List Tree → Prop} (halike : Alike permitted related)
  {tree other : Tree}

include halike

theorem kind_eq (hrelated : related tree other) : other.kind = tree.kind := by
  have hkind := congrArg Label.kind (halike.shape tree other hrelated)
  exact hkind

theorem isNamed_eq (hrelated : related tree other) : other.isNamed = tree.isNamed := by
  have hnamed := congrArg Label.named (halike.shape tree other hrelated)
  exact hnamed

theorem isUnder_eq (field : String) (hrelated : related tree other) :
    other.isUnder field = tree.isUnder field := by
  have hfield := congrArg Label.field? (halike.shape tree other hrelated)
  have hsame : other.label.field? = tree.label.field? := hfield
  rw [isUnder, isUnder, hsame]

theorem any_isNamed_eq {forest others : List Tree}
    (hforest : List.Forall₂ related forest others) :
    others.any isNamed = forest.any isNamed := by
  induction hforest with
  | nil => rfl
  | cons hrelated _ ih => rw [List.any_cons, List.any_cons, ih, halike.isNamed_eq hrelated]

theorem filter_isNamed {forest others : List Tree}
    (hforest : List.Forall₂ related forest others) :
    List.Forall₂ related (forest.filter isNamed) (others.filter isNamed) :=
  List.rel_filter (fun _ _ hrelated => by simp only [halike.isNamed_eq hrelated]) hforest

theorem sprinkled (hrelated : related tree other) :
    Sprinkled related tree.children other.children :=
  (halike.children tree other hrelated).sprinkled

theorem namedChildren (hrelated : related tree other) :
    Sprinkled related tree.namedChildren other.namedChildren :=
  (halike.sprinkled hrelated).filter_isNamed fun _ _ => halike.isNamed_eq

theorem childrenUnder (field : String) (hrelated : related tree other) :
    List.Forall₂ related (tree.childrenUnder field) (other.childrenUnder field) :=
  (halike.sprinkled hrelated).filter (isUnder field) (fun _ _ => halike.isUnder_eq field)
    fun _ hcomment => hcomment.not_isUnder field

theorem childUnder? (field : String) (hrelated : related tree other) :
    (tree.childUnder? field = none ∧ other.childUnder? field = none) ∨
      ∃ child image, tree.childUnder? field = some child ∧ other.childUnder? field = some image ∧
        related child image :=
  (halike.sprinkled hrelated).find? (isUnder field) (fun _ _ => halike.isUnder_eq field)
    fun _ hcomment => hcomment.not_isUnder field

end Alike

/-! ### Searches for names -/

theorem outermostNamed_eq (kinds : List String) (forest : List Tree) :
    outermostNamed kinds forest = (forest.filter isNamed).flatMap (outermost kinds) := by
  induction forest with
  | nil => rfl
  | cons tree rest ih =>
    rw [outermostNamed, ih, List.filter_cons]
    split <;> simp

theorem outermost_eq {kinds : List String} {tree : Tree} (hkind : tree.kind ∉ kinds) :
    tree.outermost kinds = tree.namedChildren.flatMap (outermost kinds) := by
  obtain ⟨label, children⟩ := tree
  have hlabel : label.kind ∉ kinds := hkind
  rw [outermost, if_neg (by simpa using hlabel), outermostNamed_eq]
  rfl

theorem outermost_comment {kinds : List String} (hkinds : "comment" ∉ kinds) {comment : Tree}
    (hcomment : comment.IsComment) : comment.outermost kinds = [] := by
  obtain ⟨start, stop, rfl⟩ := hcomment
  simp [outermost, outermostNamed, Label.sound, hkinds]

namespace Alike

variable {permitted : Label → List Tree → List Tree → Prop} (halike : Alike permitted related)
  {tree other : Tree} {kinds : List String}

include halike

/-- Searches for outermost nodes find related nodes in related trees, in the same order. -/
theorem outermost (hkinds : "comment" ∉ kinds) (hrelated : related tree other) :
    List.Forall₂ related (tree.outermost kinds) (other.outermost kinds) := by
  induction tree using children_induction generalizing other with
  | node label children ih =>
    obtain ⟨image, images⟩ := other
    have hkind : image.kind = label.kind := halike.kind_eq hrelated
    have hchildren := (halike.namedChildren hrelated).flatMap
      (fun child hchild other => ih child (List.mem_of_mem_filter hchild))
      fun comment => outermost_comment hkinds
    rw [Tree.outermost, Tree.outermost, hkind]
    split
    · exact .cons hrelated .nil
    · rw [outermostNamed_eq, outermostNamed_eq]
      exact hchildren

theorem outermostUnder (field : String) (hkinds : "comment" ∉ kinds)
    (hrelated : related tree other) :
    List.Forall₂ related (tree.outermostUnder field kinds) (other.outermostUnder field kinds) :=
  (Sprinkled.of_forall₂ (halike.childrenUnder field hrelated)).flatMap
    (fun _ _ _ => halike.outermost hkinds) fun _ => outermost_comment hkinds

theorem nameIdentifiers (hrelated : related tree other) :
    List.Forall₂ related tree.nameIdentifiers other.nameIdentifiers :=
  halike.outermostUnder "name" (by decide) hrelated

/-- The name that a construct has under its field, or else its first identifier, is the same in a
related tree. -/
theorem ownIdentifier (hrelated : related tree other) :
    List.Forall₂ related tree.ownIdentifier other.ownIdentifier := by
  have hnamed : List.Forall₂ related
      (tree.namedChildren.find? fun child => child.kind = "identifier").toList
      (other.namedChildren.find? fun child => child.kind = "identifier").toList := by
    obtain ⟨hnone, hother⟩ | ⟨child, image, hchild, himage, hfound⟩ :=
      (halike.namedChildren hrelated).find? (fun child => child.kind = "identifier")
        (fun _ _ hchild => by rw [halike.kind_eq hchild])
        fun _ hcomment => by simp [hcomment.kind_eq]
    · rw [hnone, hother]
      exact .nil
    · rw [hchild, himage]
      exact .cons hfound .nil
  unfold Tree.ownIdentifier
  obtain ⟨hnone, hother⟩ | ⟨child, image, hchild, himage, -⟩ := halike.childUnder? "name" hrelated
  · rw [hnone, hother]
    exact hnamed
  · rw [hchild, himage]
    exact halike.nameIdentifiers hrelated

end Alike

end Tree

theorem Rules.bound_of_lookup {rules : Rules} {tree : Tree} {binder : Binder}
    (hbinder : rules.declarations.lookup tree.kind = some binder) :
    rules.bound tree = binder tree := by
  rw [bound, hbinder]

/-- If each row of the table finds related names, so does the whole table, whichever row applies. -/
theorem Rules.alike_bound {rules : Rules} {permitted : Label → List Tree → List Tree → Prop}
    {related : Tree → Tree → Prop} {tree other : Tree} (halike : Tree.Alike permitted related)
    (hrelated : related tree other)
    (hbinders : ∀ entry ∈ rules.declarations, tree.kind = entry.1 →
      List.Forall₂ related (entry.2 tree) (entry.2 other)) :
    List.Forall₂ related (rules.bound tree) (rules.bound other) := by
  unfold bound
  rw [halike.kind_eq hrelated]
  cases hbinder : rules.declarations.lookup tree.kind with
  | none => exact .nil
  | some binder =>
    obtain ⟨before, behind, hentries, -⟩ := List.lookup_eq_some_iff.mp hbinder
    have hentry : (tree.kind, binder) ∈ rules.declarations := by simp [hentries]
    exact hbinders (tree.kind, binder) hentry rfl

end CanonicalTokens
