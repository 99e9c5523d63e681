import Mathlib.Logic.Equiv.Basic
import CanonicalTokens.Proofs.Names.Catalogue
import CanonicalTokens.Proofs.Walk.Simulation
import CanonicalTokens.Proofs.Walk.Visibility

/-!
# Texts that differ in names and literal values

Two sources are walked over trees of the same shape. Their names differ by a renaming that keeps
different names different, and their literals by any values of the same class. Then both walks emit
the same tokens, if all other leaves have the same texts. Among these leaves are some that are names
themselves, such as the parameter of `x => x + 1` in C#: such a leaf is emitted as it is although
its name is declared, so that a renaming of it shows. Both walks emit at the same places, so it
shows whatever else is in the texts.
-/

namespace CanonicalTokens

namespace Tree

mutual

/-- The tree without the ranges of its nodes in the source. -/
def shape : Tree → Tree
  | .node label children => .node label.shape (forestShape children)

def forestShape : List Tree → List Tree
  | [] => []
  | tree :: rest => tree.shape :: forestShape rest

end

theorem forall₂_of_forestShape_eq {forest images : List Tree}
    (hshape : forestShape images = forestShape forest) :
    List.Forall₂ (fun tree image => image.shape = tree.shape) forest images := by
  induction forest generalizing images with
  | nil =>
    cases images with
    | nil => exact .nil
    | cons image images => simp [forestShape] at hshape
  | cons tree forest ih =>
    cases images with
    | nil => simp [forestShape] at hshape
    | cons image images =>
      rw [forestShape, forestShape] at hshape
      obtain ⟨hfirst, hrest⟩ := List.cons.inj hshape
      exact .cons hfirst (ih hrest)

theorem label_shape_of_shape_eq {tree image : Tree} (hshape : image.shape = tree.shape) :
    image.label.shape = tree.label.shape := by
  cases tree
  cases image
  rw [shape, shape] at hshape
  injection hshape

theorem forall₂_children {tree image : Tree} (hshape : image.shape = tree.shape) :
    List.Forall₂ (fun child other => other.shape = child.shape ∧
      ∃ index : Nat, tree.children[index]? = some child ∧ image.children[index]? = some other)
      tree.children image.children := by
  obtain ⟨label, children⟩ := tree
  obtain ⟨other, images⟩ := image
  rw [shape, shape] at hshape
  injection hshape with _ hforest
  have hchildren := forall₂_of_forestShape_eq hforest
  obtain ⟨hlength, hget⟩ := List.forall₂_iff_get.mp hchildren
  refine List.forall₂_iff_get.mpr ⟨hlength, fun index htree himage => ?_⟩
  exact ⟨hget index htree himage, index, List.getElem?_eq_getElem htree,
    List.getElem?_eq_getElem himage⟩

theorem child_shape_eq {tree image child below : Tree} {index : Nat}
    (hshape : image.shape = tree.shape) (hchild : tree.children[index]? = some child)
    (hbelow : image.children[index]? = some below) : below.shape = child.shape := by
  obtain ⟨htree, hget⟩ := List.getElem?_eq_some_iff.mp hchild
  obtain ⟨himage, hgetImage⟩ := List.getElem?_eq_some_iff.mp hbelow
  have hpair := (List.forall₂_iff_get.mp (forall₂_children hshape)).2 index htree himage
  rw [List.get_eq_getElem, List.get_eq_getElem, hget, hgetImage] at hpair
  exact hpair.1

theorem shape_at? {tree image node other : Tree} {place : Place}
    (hshape : image.shape = tree.shape) (hnode : tree.at? place = some node)
    (hother : image.at? place = some other) : other.shape = node.shape := by
  induction place generalizing tree image with
  | nil =>
    obtain rfl := Option.some.inj hnode
    obtain rfl := Option.some.inj hother
    exact hshape
  | cons index place ih =>
    obtain ⟨child, hchild, hnode⟩ := at?_cons_eq_some_iff.mp hnode
    obtain ⟨below, hbelow, hother⟩ := at?_cons_eq_some_iff.mp hother
    exact ih (child_shape_eq hshape hchild hbelow) hnode hother

def Corresponding (tree image node other : Tree) : Prop :=
  ∃ place, tree.at? place = some node ∧ image.at? place = some other

/-- What holds of all nodes in a list of all nodes holds at every place. -/
theorem forall_at? {tree image : Tree} (holds : Place → Tree → Tree → Prop)
    (hnodes : ∀ entry ∈ tree.nodes, ∀ other ∈ image.at? entry.1, holds entry.1 entry.2 other)
    {place : Place} {node other : Tree} (hnode : tree.at? place = some node)
    (hother : image.at? place = some other) : holds place node other :=
  hnodes (place, node) (mem_nodes_of_at? hnode) other hother

/-- Nodes at the same place of two trees of one shape have the same kinds and fields, and so have
their children. -/
theorem alike_corresponding (permitted : Label → List Tree → List Tree → Prop)
    (tree image : Tree) :
    Alike permitted fun node other =>
      Corresponding tree image node other ∧ other.shape = node.shape where
  shape node other hsame := label_shape_of_shape_eq hsame.2
  children node other hsame := by
    obtain ⟨⟨place, hnode, hother⟩, hshape⟩ := hsame
    refine .same ((forall₂_children hshape).imp ?_)
    rintro child below ⟨hbelow, index, hchild, himage⟩
    refine ⟨⟨place ++ [index], ?_, ?_⟩, hbelow⟩
    · rw [at?_concat hnode, hchild]
    · rw [at?_concat hother, himage]

end Tree

namespace Walk

/-- The walk takes a name from the node at a place: it declares it for the node or for one above. -/
def TakesName (walk : Walk) (tree : Tree) (place : Place) (node : Tree) : Prop :=
  ∃ outer inner holder, place = outer ++ inner ∧ walk.Entered tree outer holder ∧
    holder.at? inner = some node ∧ node ∈ walk.rules.bound holder

/-- Over the second source, the second tree differs from the first in names and literal values only,
wherever the walk comes. -/
structure Renaming (walk : Walk) (source : Source) (tree image : Tree)
    (relabel : String → String) : Prop where
  injective : Function.Injective relabel
  empty : relabel "" = ""
  shape : image.shape = tree.shape
  identifiers : ∀ place node other, walk.Visited tree place node →
    image.at? place = some other → walk.part node = .identifier →
    other.text source = relabel (node.text walk.source)
  /-- Names that are taken are renamed as well, also those the walk does not come to. -/
  names : ∀ place holder other, walk.Entered tree place holder → image.at? place = some other →
    ∀ pair ∈ (walk.rules.bound holder).zip (walk.rules.bound other),
      Tree.Corresponding holder other pair.1 pair.2 →
      pair.2.text source = relabel (pair.1.text walk.source)
  numbers : ∀ place node other, walk.Visited tree place node → image.at? place = some other →
    walk.part node = .literal .numeric →
    Literal.numberClass (other.text source) = Literal.numberClass (node.text walk.source)
  leaves : ∀ place node other, walk.Visited tree place node → image.at? place = some other →
    walk.part node = .construct → node.isLeaf → ¬ walk.TakesName tree place node →
    other.text source = node.text walk.source
  /-- Names that the first walk emits as they are keep their spelling. -/
  kept : ∀ emission ∈ walk.emissions tree, ∀ node, tree.at? emission.place = some node →
    walk.part node = .identifier → ∀ name, emission.token = .verbatim name → relabel name = name

variable {source other : Source} {language : Language} {options : WalkOptions}
  {tree image : Tree} {relabel : String → String}

/-- A leaf that the walk takes a name from and emits as it is, with the one at its place in the
second tree. -/
def DeclaredLeaf (walk : Walk) (tree image node leaf : Tree) : Prop :=
  ∃ place, walk.Entered tree place node ∧ node.isLeaf ∧ walk.TakesName tree place node ∧
    image.at? place = some leaf

def Paired (walk : Walk) (tree image node other : Tree) : Prop :=
  ∃ place, walk.Visited tree place node ∧ image.at? place = some other ∧
    other.shape = node.shape

theorem Paired.label_shape {walk : Walk} {node leaf : Tree}
    (hpaired : walk.Paired tree image node leaf) : leaf.label.shape = node.label.shape := by
  obtain ⟨place, -, -, hshape⟩ := hpaired
  exact Tree.label_shape_of_shape_eq hshape

theorem Paired.children {walk : Walk} {node leaf : Tree}
    (hpaired : walk.Paired tree image node leaf) (hpart : walk.part node = .construct) :
    List.Forall₂ (walk.Paired tree image) node.children leaf.children := by
  obtain ⟨place, hvisited, himage, hshape⟩ := hpaired
  refine (Tree.forall₂_children hshape).imp ?_
  rintro child below ⟨hbelow, index, hchild, hother⟩
  refine ⟨place ++ [index], Entered.visited_child ⟨hvisited, hpart⟩ hchild, ?_, hbelow⟩
  rw [Tree.at?_concat himage, hother]

theorem Paired.isLeaf_eq {walk : Walk} {node leaf : Tree}
    (hpaired : walk.Paired tree image node leaf) : leaf.isLeaf = node.isLeaf := by
  obtain ⟨place, -, -, hshape⟩ := hpaired
  have hlength := (Tree.forall₂_children hshape).length_eq
  rw [Tree.isLeaf, Tree.isLeaf, Bool.eq_iff_iff, List.isEmpty_iff_length_eq_zero,
    List.isEmpty_iff_length_eq_zero, hlength]

theorem Renaming.leafText_or {node leaf : Tree}
    (hrenaming : Renaming ⟨source, language.rules, options⟩ other tree image relabel)
    (hpaired : Paired ⟨source, language.rules, options⟩ tree image node leaf)
    (hpart : part ⟨source, language.rules, options⟩ node = .construct) (hleaf : node.isLeaf) :
    leaf.text other = node.text source ∨
      DeclaredLeaf ⟨source, language.rules, options⟩ tree image node leaf := by
  obtain ⟨place, hvisited, himage, -⟩ := hpaired
  by_cases htakes : TakesName ⟨source, language.rules, options⟩ tree place node
  · exact Or.inr ⟨place, ⟨hvisited, hpart⟩, hleaf, htakes, himage⟩
  · exact Or.inl (hrenaming.leaves place node leaf hvisited himage hpart hleaf htakes)

/-- Nodes in the same place are walked alike, if the leaves that are declared and emitted as they
are keep their texts. -/
theorem Renaming.simulates
    (hrenaming : Renaming ⟨source, language.rules, options⟩ other tree image relabel)
    (hdeclared : ∀ node leaf, DeclaredLeaf ⟨source, language.rules, options⟩ tree image node leaf →
      leaf.text other = node.text source) :
    Simulates ⟨source, language.rules, options⟩ ⟨other, language.rules, options⟩ relabel
      (Paired ⟨source, language.rules, options⟩ tree image) where
  rules := rfl
  options := rfl
  injective := hrenaming.injective
  empty := hrenaming.empty
  skipped := language.isSkipped_comment
  shape node leaf hpaired := hpaired.label_shape
  children node leaf hpaired hpart := .of_forall₂ (hpaired.children hpart)
  leaf node leaf hpaired _ := hpaired.isLeaf_eq
  leafText := by
    intro node leaf hpaired hpart hleaf
    rcases hrenaming.leafText_or hpaired hpart hleaf with htext | hname
    · exact htext
    · exact hdeclared node leaf hname
  names := by
    rintro node leaf ⟨place, hvisited, himage, hshape⟩ hpart
    -- The reading of names answers with nodes at the same places, whatever their texts are.
    have hbound := language.alike_bound
      (Tree.alike_corresponding _ node leaf) ⟨⟨[], rfl, rfl⟩, hshape⟩
    obtain ⟨hlength, hpairs⟩ := List.forall₂_iff_zip.mp hbound
    refine Rules.declaredNames_eq_map (List.forall₂_iff_zip.mpr ⟨hlength, ?_⟩)
    intro name found hpair
    exact hrenaming.names place node leaf ⟨hvisited, hpart⟩ himage (name, found) hpair
      (hpairs hpair).1
  identifier := by
    rintro node leaf ⟨place, hvisited, himage, -⟩ hpart
    exact hrenaming.identifiers place node leaf hvisited himage hpart
  literal := by
    rintro node leaf rule ⟨place, hvisited, himage, -⟩ hpart
    cases rule with
    | fixed placeholder => rfl
    | numeric => exact hrenaming.numbers place node leaf hvisited himage hpart
    | collapsible collapsed distinct => rfl

/-! ### What renamed leaves show -/

theorem visited_of_shape {walk other : Walk} {place : Place} {node leaf : Tree}
    (hrules : other.rules = walk.rules) (hshape : image.shape = tree.shape)
    (hvisited : walk.Visited tree place node) (himage : image.at? place = some leaf) :
    other.Visited image place leaf := by
  refine ⟨himage, ?_⟩
  intro outer holder habove hholder
  obtain ⟨rest, rfl⟩ := habove.1
  have hnode := hvisited.at_place
  rw [Tree.at?_append, Option.bind_eq_some_iff] at hnode
  obtain ⟨twin, htwin, -⟩ := hnode
  have hsame := Tree.label_shape_of_shape_eq (Tree.shape_at? hshape htwin hholder)
  exact (part_eq_of_shape hrules hsame).trans (hvisited.above outer twin habove htwin)

/-- Emissions are known by their places and their tokens. -/
theorem emissions_ext {emissions others : List Emission}
    (hplaces : others.map Emission.place = emissions.map Emission.place)
    (htokens : others.map Emission.token = emissions.map Emission.token) : others = emissions := by
  have hzip : ∀ list : List Emission,
      List.zipWith Emission.mk (list.map Emission.place) (list.map Emission.token) = list := by
    intro list
    rw [List.zipWith_map, List.zipWith_self, List.map_id'']
    intro emission
    rfl
  rw [← hzip others, ← hzip emissions, hplaces, htokens]

/-- If names that are leaves are blank on both sides or on none, tokens come at the same places. -/
theorem Renaming.emits_eq {node leaf : Tree}
    (hrenaming : Renaming ⟨source, language.rules, options⟩ other tree image relabel)
    (hblank : ∀ node leaf, DeclaredLeaf ⟨source, language.rules, options⟩ tree image node leaf →
      Text.allBlank (leaf.text other).toList = Text.allBlank (node.text source).toList)
    (hpaired : Paired ⟨source, language.rules, options⟩ tree image node leaf) :
    emits ⟨other, language.rules, options⟩ leaf = emits ⟨source, language.rules, options⟩ node := by
  have hsame : part ⟨other, language.rules, options⟩ leaf =
      part ⟨source, language.rules, options⟩ node :=
    part_eq_of_shape rfl hpaired.label_shape
  unfold emits
  rw [hsame]
  cases hpart : part ⟨source, language.rules, options⟩ node with
  | ignored => rfl
  | literal rule => rfl
  | identifier =>
    obtain ⟨place, hvisited, himage, -⟩ := hpaired
    have htext := hrenaming.identifiers place node leaf hvisited himage hpart
    have hempty : leaf.text other = "" ↔ node.text source = "" := by
      rw [htext]
      exact hrenaming.injective.eq_iff' hrenaming.empty
    simp only [ne_eq, hempty]
  | construct =>
    dsimp only
    rw [hpaired.isLeaf_eq]
    cases hleaf : node.isLeaf with
    | false => rfl
    | true =>
      rcases hrenaming.leafText_or hpaired hpart hleaf with htext | hname
      · rw [htext]
      · rw [hblank node leaf hname]

theorem forestPlaces_eq {walk other : Walk} {related : Tree → Tree → Prop}
    {forest images : List Tree} {index : Nat} (hforest : List.Forall₂ related forest images)
    (hplaces : ∀ tree ∈ forest, ∀ image place, related tree image →
      other.emissionPlaces place image = walk.emissionPlaces place tree) :
    other.forestPlaces place index images = walk.forestPlaces place index forest := by
  induction hforest generalizing index with
  | nil => rw [forestPlaces, forestPlaces]
  | @cons tree image forest images hrelated _ ih =>
    rw [forestPlaces, forestPlaces, hplaces tree List.mem_cons_self image _ hrelated,
      ih fun later hlater => hplaces later (List.mem_cons_of_mem tree hlater)]

/-- A renaming makes no visible text blank, so tokens come at the same places. -/
theorem Renaming.emissionPlaces_eq {node leaf : Tree} {place : Place}
    (hrenaming : Renaming ⟨source, language.rules, options⟩ other tree image relabel)
    (hblank : ∀ node leaf, DeclaredLeaf ⟨source, language.rules, options⟩ tree image node leaf →
      Text.allBlank (leaf.text other).toList = Text.allBlank (node.text source).toList)
    (hpaired : Paired ⟨source, language.rules, options⟩ tree image node leaf) :
    emissionPlaces ⟨other, language.rules, options⟩ place leaf =
      emissionPlaces ⟨source, language.rules, options⟩ place node := by
  induction node using Tree.children_induction generalizing leaf place with
  | node label children ih =>
    obtain ⟨below, belows⟩ := leaf
    have hsame : part ⟨other, language.rules, options⟩ (.node below belows) =
        part ⟨source, language.rules, options⟩ (.node label children) :=
      part_eq_of_shape rfl hpaired.label_shape
    rw [emissionPlaces, emissionPlaces, hrenaming.emits_eq hblank hpaired, hsame]
    by_cases hpart : part ⟨source, language.rules, options⟩ (.node label children) = .construct
    · have hforest : List.Forall₂ (Paired ⟨source, language.rules, options⟩ tree image)
          children belows := hpaired.children hpart
      rw [forestPlaces_eq hforest fun child hchild _ _ hbelow => ih child hchild hbelow]
    · rw [if_neg hpart, if_neg hpart]

/-- If the leaves that are declared and emitted as they are keep their texts, a renaming does not
show. -/
theorem Renaming.run_eq
    (hrenaming : Renaming ⟨source, language.rules, options⟩ other tree image relabel)
    (hdeclared : ∀ node leaf, DeclaredLeaf ⟨source, language.rules, options⟩ tree image node leaf →
      leaf.text other = node.text source) :
    Walk.run ⟨other, language.rules, options⟩ image =
      Walk.run ⟨source, language.rules, options⟩ tree := by
  refine (hrenaming.simulates hdeclared).run_eq
    ⟨[], visited_nil_iff.mpr rfl, rfl, hrenaming.shape⟩ ?_
  intro call hcall hpart name hwritten
  obtain ⟨way, hplace, hnode⟩ := Visitor.at?_of_mem_calls hcall
  rw [List.nil_append] at hplace
  have hemission : Emission.mk call.place (.verbatim name) ∈
      emissions ⟨source, language.rules, options⟩ tree := by
    refine List.mem_flatMap.mpr ⟨call, hcall, ?_⟩
    simp [emitted, hwritten]
  exact hrenaming.kept _ hemission call.node (hplace ▸ hnode) hpart name rfl

/-- Where both walks emit at the same places, the same tokens come from the same texts. -/
theorem Renaming.text_eq_of_run_eq {node leaf : Tree}
    (hrenaming : Renaming ⟨source, language.rules, options⟩ other tree image relabel)
    (hblank : ∀ node leaf, DeclaredLeaf ⟨source, language.rules, options⟩ tree image node leaf →
      Text.allBlank (leaf.text other).toList = Text.allBlank (node.text source).toList)
    (hrun : Walk.run ⟨other, language.rules, options⟩ image =
      Walk.run ⟨source, language.rules, options⟩ tree)
    (hdeclared : DeclaredLeaf ⟨source, language.rules, options⟩ tree image node leaf)
    (hshown : ¬ Text.allBlank (node.text source).toList) : leaf.text other = node.text source := by
  have hshownLeaf : ¬ Text.allBlank (leaf.text other).toList := by
    rwa [hblank node leaf hdeclared]
  have hroot : Paired ⟨source, language.rules, options⟩ tree image tree image :=
    ⟨[], visited_nil_iff.mpr rfl, rfl, hrenaming.shape⟩
  -- The tokens are the same in the same places, so each place has the same ones.
  have hemissions : emissions ⟨other, language.rules, options⟩ image =
      emissions ⟨source, language.rules, options⟩ tree := by
    apply emissions_ext
    · rw [places_emissions, places_emissions, hrenaming.emissionPlaces_eq hblank hroot]
    · rw [tokens_emissions, tokens_emissions, hrun]
  obtain ⟨place, hentered, hleaf, -, himage⟩ := hdeclared
  have hpaired : Paired ⟨source, language.rules, options⟩ tree image node leaf :=
    ⟨place, hentered.toVisited, himage, Tree.shape_at? hrenaming.shape hentered.at_place himage⟩
  have hrules : (Walk.mk other language.rules options).rules =
      (Walk.mk source language.rules options).rules := rfl
  have henteredLeaf : Entered ⟨other, language.rules, options⟩ image place leaf :=
    ⟨visited_of_shape hrules hrenaming.shape hentered.toVisited himage,
      (part_eq_of_shape hrules hpaired.label_shape).trans hentered.construct⟩
  have htoken := emissions_at_leaf hentered hleaf hshown
  rw [← hemissions, emissions_at_leaf henteredLeaf (hpaired.isLeaf_eq.trans hleaf) hshownLeaf]
    at htoken
  simpa using htoken

/-- Texts that differ only in names and literal values have the same canonical form, if the names
that are leaves do not differ. The condition is exact as far as these leaves show at all: where they
are blank on both sides or on none, the canonical forms differ as soon as one of them does. -/
theorem run_eq_of_renaming
    (hrenaming : Renaming ⟨source, language.rules, options⟩ other tree image relabel) :
    ((∀ node leaf, DeclaredLeaf ⟨source, language.rules, options⟩ tree image node leaf →
        leaf.text other = node.text source) →
      Walk.run ⟨other, language.rules, options⟩ image =
        Walk.run ⟨source, language.rules, options⟩ tree) ∧
      ((∀ node leaf, DeclaredLeaf ⟨source, language.rules, options⟩ tree image node leaf →
          Text.allBlank (leaf.text other).toList = Text.allBlank (node.text source).toList) →
        Walk.run ⟨other, language.rules, options⟩ image =
          Walk.run ⟨source, language.rules, options⟩ tree →
        ∀ node leaf, DeclaredLeaf ⟨source, language.rules, options⟩ tree image node leaf →
          ¬ Text.allBlank (node.text source).toList → leaf.text other = node.text source) :=
  ⟨hrenaming.run_eq, fun hblank hrun _ _ => hrenaming.text_eq_of_run_eq hblank hrun⟩

/-! ### Parameters of lambda expressions -/

/-- The tree of `lambda yy : yy`. -/
def longerLambda : Tree :=
  .node (.sound "lambda" true 0 14 none) [
    .node (.sound "lambda" false 0 6 none) [],
    .node (.sound "lambda_parameters" true 7 9 (some "parameters")) [
      .node (.sound "identifier" true 7 9 none) []],
    .node (.sound ":" false 10 11 none) [],
    .node (.sound "identifier" true 12 14 (some "body")) []]

def longerSource : Source := .ofString "lambda yy : yy"

theorem longerLambda_leafText {place : Place} {node leaf : Tree}
    (hnode : lambdaTree.at? place = some node) (hleaf : longerLambda.at? place = some leaf) :
    lambdaWalk.part node = .construct → node.isLeaf →
      leaf.text longerSource = node.text lambdaWalk.source :=
  Tree.forall_at? (fun _ node leaf => lambdaWalk.part node = .construct → node.isLeaf →
    leaf.text longerSource = node.text lambdaWalk.source) (by decide) hnode hleaf

theorem renaming_longerLambda :
    Renaming lambdaWalk longerSource lambdaTree longerLambda (Equiv.swap "x" "yy") where
  injective := (Equiv.swap "x" "yy").injective
  empty := by decide
  shape := rfl
  identifiers place node other hvisited hother :=
    Tree.forall_at? (fun _ node other => lambdaWalk.part node = .identifier →
      other.text longerSource = Equiv.swap "x" "yy" (node.text lambdaWalk.source))
      (by decide) hvisited.at_place hother
  names place holder other hentered hother pair hpair _ :=
    Tree.forall_at? (fun _ holder other =>
      ∀ pair ∈ (lambdaWalk.rules.bound holder).zip (lambdaWalk.rules.bound other),
        pair.2.text longerSource = Equiv.swap "x" "yy" (pair.1.text lambdaWalk.source))
      (by decide) hentered.at_place hother pair hpair
  numbers place node other hvisited hother :=
    Tree.forall_at? (fun _ node other => lambdaWalk.part node = .literal .numeric →
      Literal.numberClass (other.text longerSource) =
        Literal.numberClass (node.text lambdaWalk.source)) (by decide) hvisited.at_place hother
  leaves place node leaf hvisited hleaf hpart hisLeaf _ :=
    longerLambda_leafText hvisited.at_place hleaf hpart hisLeaf
  kept emission hemission node hnode hpart name htoken := by
    have hplaceholders : ∀ emission ∈ lambdaWalk.emissions lambdaTree,
        ∀ node ∈ lambdaTree.at? emission.place, lambdaWalk.part node = .identifier →
          emission.token = .placeholder .variableName := by decide
    rw [hplaceholders emission hemission node hnode hpart] at htoken
    cases htoken

/-- The name of a parameter does not show in the tokens, although all that follows it stands
elsewhere. -/
theorem run_longerLambda :
    Renaming lambdaWalk longerSource lambdaTree longerLambda (Equiv.swap "x" "yy") ∧
      Walk.run ⟨longerSource, Language.python.rules, .standard⟩ longerLambda =
        lambdaWalk.run lambdaTree :=
  ⟨renaming_longerLambda, (run_eq_of_renaming renaming_longerLambda).1
    fun _ _ ⟨_, hentered, hisLeaf, _, hleaf⟩ =>
      longerLambda_leafText hentered.at_place hleaf hentered.construct hisLeaf⟩

/-- The tree of `x => x`, and of `y => y` too. -/
def bareLambda : Tree :=
  .node (.sound "lambda_expression" true 0 6 none) [
    .node (.sound "implicit_parameter" true 0 1 (some "parameters")) [],
    .node (.sound "=>" false 2 4 none) [],
    .node (.sound "identifier" true 5 6 (some "body")) []]

def bareWalk : Walk := ⟨.ofString "x => x", Language.csharp.rules, .standard⟩

def bareSource : Source := .ofString "y => y"

theorem takesName_bareParameter :
    bareWalk.TakesName bareLambda [0]
      (.node (.sound "implicit_parameter" true 0 1 (some "parameters")) []) := by
  refine ⟨[0], [], _, rfl, ?_, rfl, List.mem_singleton_self _⟩
  exact entered_cons_iff.mpr ⟨by decide, _, rfl, entered_nil_iff.mpr ⟨rfl, by decide⟩⟩

theorem renaming_bareLambda :
    Renaming bareWalk bareSource bareLambda bareLambda (Equiv.swap "x" "y") where
  injective := (Equiv.swap "x" "y").injective
  empty := by decide
  shape := rfl
  identifiers place node other hvisited hother :=
    Tree.forall_at? (fun _ node other => bareWalk.part node = .identifier →
      other.text bareSource = Equiv.swap "x" "y" (node.text bareWalk.source))
      (by decide) hvisited.at_place hother
  names place holder other hentered hother pair hpair _ :=
    Tree.forall_at? (fun _ holder other =>
      ∀ pair ∈ (bareWalk.rules.bound holder).zip (bareWalk.rules.bound other),
        pair.2.text bareSource = Equiv.swap "x" "y" (pair.1.text bareWalk.source))
      (by decide) hentered.at_place hother pair hpair
  numbers place node other hvisited hother :=
    Tree.forall_at? (fun _ node other => bareWalk.part node = .literal .numeric →
      Literal.numberClass (other.text bareSource) =
        Literal.numberClass (node.text bareWalk.source)) (by decide) hvisited.at_place hother
  leaves place node leaf hvisited hleaf hpart hisLeaf htakes := by
    by_cases hparameter : place = [0]
    · subst hparameter
      obtain rfl := Option.some.inj hvisited.at_place
      exact absurd takesName_bareParameter htakes
    · exact Tree.forall_at? (fun place node leaf => bareWalk.part node = .construct →
        node.isLeaf → place ≠ [0] → leaf.text bareSource = node.text bareWalk.source)
        (by decide) hvisited.at_place hleaf hpart hisLeaf hparameter
  kept emission hemission node hnode hpart name htoken := by
    have hplaceholders : ∀ emission ∈ bareWalk.emissions bareLambda,
        ∀ node ∈ bareLambda.at? emission.place, bareWalk.part node = .identifier →
          emission.token = .placeholder .variableName := by decide
    rw [hplaceholders emission hemission node hnode hpart] at htoken
    cases htoken

/-- A parameter that is a leaf of its own is emitted as it is, so its renaming shows. -/
theorem bareParameter_shows :
    ¬ ∀ (source other : Source) (language : Language) (options : WalkOptions) (tree image : Tree)
        (relabel : String → String),
      Renaming ⟨source, language.rules, options⟩ other tree image relabel →
        Walk.run ⟨other, language.rules, options⟩ image =
          Walk.run ⟨source, language.rules, options⟩ tree := by
  intro hclaim
  have hrun := hclaim _ _ .csharp .standard _ _ _ renaming_bareLambda
  have htokens := congrArg Walked.tokens hrun
  rw [run, run, Visitor.traverse_eq_fold, Visitor.traverse_eq_fold] at htokens
  revert htokens
  decide

end Walk

end CanonicalTokens
