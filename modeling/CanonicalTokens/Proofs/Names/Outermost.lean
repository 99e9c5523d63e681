import CanonicalTokens.Proofs.Names.Searches
import Mathlib.Data.List.Basic

/-!
# Outermost names

Most names of a construct are found by one search: go down from a node through named nodes and stop
at the first of a wanted kind on each way. Its answer is described by the ways alone, and the
description leaves no choice, since there is one list only of given places in document order.

The search starts at a node without asking whether it is named. So under a field, which may hold
anonymous tokens as well, every child is searched, and below a child only named nodes are.
-/

namespace CanonicalTokens.Tree

variable {tree : Tree} {found other : List Tree} {wanted : Place → Tree → Prop} {source : Source}

/-! ### What a description determines -/

/-- There is only one list of wanted nodes in document order. -/
theorem Enumerates.unique (hfound : Enumerates found wanted) (hother : Enumerates other wanted) :
    other = found := by
  obtain ⟨entries, rfl, hordered, hmem⟩ := hfound
  obtain ⟨others, rfl, hothersOrdered, hothers⟩ := hother
  have hirrefl : ∀ first second : Place × Tree, first.1 < second.1 → first ≠ second := by
    rintro first _ hlt rfl
    exact List.lt_irrefl _ hlt
  have hperm : List.Perm others entries := by
    rw [List.perm_ext_iff_of_nodup (hothersOrdered.imp (hirrefl _ _)) (hordered.imp (hirrefl _ _))]
    rintro ⟨place, node⟩
    rw [hmem, hothers]
  have hsame : others = entries := by
    refine hperm.eq_of_pairwise ?_ hothersOrdered hordered
    intro first second _ _ hlt hgt
    exact absurd hgt (List.lt_asymm hlt)
  rw [hsame]

theorem Enumerates.spells_iff (hfound : Enumerates found wanted) {names : List String} :
    Spells source names wanted ↔ names = found.map fun node => node.text source := by
  constructor
  · rintro ⟨other, hother, rfl⟩
    rw [hfound.unique hother]
  · intro hnames
    exact ⟨found, hfound, hnames⟩

/-! ### Children under a field -/

inductive OutermostKindUnderAt (field : String) (kinds : List String) (tree : Tree) :
    Place → Tree → Prop
  | intro {index : Nat} {child node : Tree} {way : Place}
      (hchild : tree.children[index]? = some child) (hunder : child.isUnder field)
      (hnode : child.OutermostKindAt kinds way node) :
      OutermostKindUnderAt field kinds tree (index :: way) node

/-- Searches below a field go through the children under it from left to right. -/
theorem enumerates_outermostUnder (field : String) (kinds : List String) (tree : Tree) :
    Enumerates (tree.outermostUnder field kinds) (OutermostKindUnderAt field kinds tree) := by
  have hchildren : ∀ child ∈ tree.children, child.isUnder field →
      Enumerates (child.outermost kinds) (child.OutermostKindAt kinds) :=
    fun child _ _ => enumerates_outermost kinds child
  refine (enumerates_flatMap hchildren).congr ?_
  intro place node
  constructor
  · rintro ⟨index, child, way, rfl, hchild, hunder, hnode⟩
    exact .intro hchild hunder hnode
  · rintro ⟨hchild, hunder, hnode⟩
    exact ⟨_, _, _, rfl, hchild, hunder, hnode⟩

theorem forall₂_outermost (source : Source) (kinds : List String) (forest : List Tree) :
    List.Forall₂ (fun child names => Spells source names (child.OutermostKindAt kinds)) forest
      (forest.map fun child => (child.outermost kinds).map fun node => node.text source) := by
  rw [List.forall₂_map_right_iff, List.forall₂_same]
  intro child _
  exact ⟨_, enumerates_outermost kinds child, rfl⟩

/-- The names that a search finds are the texts of the outermost nodes of the wanted kinds, and no
other list of texts is. Under a field they are the names of each child in turn. -/
theorem spells_outermost (source : Source) (kinds : List String) (field : String) (tree : Tree) :
    (∀ names, Spells source names (tree.OutermostKindAt kinds) ↔
      names = (tree.outermost kinds).map fun node => node.text source) ∧
    (∀ names, Spells source names (tree.OutermostKindUnderAt field kinds) ↔
      names = (tree.outermostUnder field kinds).map fun node => node.text source) ∧
    ∃ parts : List (List String),
      List.Forall₂ (fun child names => Spells source names (child.OutermostKindAt kinds))
        (tree.children.filter (isUnder field)) parts ∧
      ((tree.outermostUnder field kinds).map fun node => node.text source) = parts.flatten := by
  refine ⟨?_, ?_, _, forall₂_outermost source kinds _, ?_⟩
  · exact fun names => (enumerates_outermost kinds tree).spells_iff
  · exact fun names => (enumerates_outermostUnder field kinds tree).spells_iff
  · rw [outermostUnder, List.map_flatMap, List.flatMap_def]
    rfl

end CanonicalTokens.Tree
