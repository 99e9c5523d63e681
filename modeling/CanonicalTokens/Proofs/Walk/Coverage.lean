import CanonicalTokens.Proofs.Ranges
import CanonicalTokens.Proofs.Walk.Reached
import CanonicalTokens.Proofs.Walk.Visibility
import Mathlib.Data.List.Forall2

/-!
# What of a source its tokens stand for

Every token stands for the text of one node, and the nodes of two tokens have no text in common.
What is not white space stands in the node of some token, unless it belongs to a node that is left
out.
-/

namespace CanonicalTokens

def LiteralRule.placeholders : LiteralRule → List Placeholder
  | fixed placeholder => [placeholder]
  | numeric => [.floatLiteral, .intLiteral]
  | collapsible collapsed distinct => [collapsed, distinct]

theorem LiteralRule.resolve_mem_placeholders (rule : LiteralRule) (text : String)
    (distinguishNumbers : Bool) : rule.resolve text distinguishNumbers ∈ rule.placeholders := by
  cases rule with
  | fixed placeholder => exact List.mem_singleton_self placeholder
  | numeric =>
    rw [resolve, Literal.numberClass]
    split <;> decide
  | collapsible collapsed distinct =>
    rw [resolve]
    split <;> simp [placeholders]

theorem Language.isLiteral_resolve (language : Language) {kind : String} {rule : LiteralRule}
    (hrule : language.rules.literalRule? kind = some rule) (text : String)
    (distinguishNumbers : Bool) : (rule.resolve text distinguishNumbers).isLiteral := by
  have hall : ∀ entry ∈ language.rules.literals, ∀ placeholder ∈ entry.2.placeholders,
      placeholder.isLiteral := by
    cases language <;> decide
  obtain ⟨front, back, hliterals, -⟩ := List.lookup_eq_some_iff.mp hrule
  have hmem : (kind, rule) ∈ language.rules.literals := by simp [hliterals]
  exact hall _ hmem _ (rule.resolve_mem_placeholders text distinguishNumbers)

namespace Walk

variable {walk : Walk} {tree node : Tree} {place : Place} {state : State} {language : Language}

inductive Origin (walk : Walk) (node : Tree) : Token → Prop
  | name (hnamed : node.isNamed) (hidentifier : walk.rules.isIdentifier node.kind) :
      Origin walk node (.placeholder .variableName)
  | literal {rule : LiteralRule} {placeholder : Placeholder} (hnamed : node.isNamed)
      (hrule : walk.rules.literalRule? node.kind = some rule) (hliteral : placeholder.isLiteral)
      (hresolve : rule.resolve (node.text walk.source) walk.options.distinguishNumbers =
        placeholder) :
      Origin walk node (.placeholder placeholder)
  | text (htext : node.text walk.source ≠ "") :
      Origin walk node (.verbatim (node.text walk.source))

def origins (walk : Walk) (tree : Tree) : List (Place × Tree) :=
  (walk.reached [] tree).filter fun entry => walk.emits entry.2

/-- Each token stands for the text of one node, these nodes follow one another in the source, and
all that is visible in a leaf that is not left out is in one of them. -/
structure Accounts (walk : Walk) (tree : Tree) (origins : List (Place × Tree)) : Prop where
  visited : ∀ entry ∈ origins, walk.Visited tree entry.1 entry.2
  tokens : List.Forall₂ (fun entry token => walk.Origin entry.2 token) origins
    (walk.run tree).tokens
  apart : origins.Pairwise fun first second =>
    first.1 < second.1 ∧ first.2.label.stop ≤ second.2.label.start
  covered : ∀ place leaf, tree.at? place = some leaf → leaf.isLeaf →
    (∀ outer holder, outer <+: place → tree.at? outer = some holder →
      ¬ (holder.label.missing ∨ walk.rules.isSkipped holder.kind)) →
    ∀ before character after, walk.source.characters = before ++ character :: after →
      ¬ Text.isBlank character → leaf.label.covers (Source.byteCount before) →
      origins.countP (fun entry => entry.2.label.covers (Source.byteCount before)) = 1

/-! ### The tokens and their nodes -/

/-- A token that is emitted at a node stands for the text of that node. -/
theorem origin_of_mem_written (hrules : walk.rules = language.rules) {token : Token}
    (hmem : token ∈ written (walk.entering place node state)) : walk.Origin node token := by
  rw [written_entering] at hmem
  cases hpart : walk.part node with
  | ignored =>
    rw [hpart] at hmem
    cases hmem
  | literal rule =>
    rw [hpart] at hmem
    obtain rfl := List.mem_singleton.mp hmem
    obtain ⟨hnamed, hrule⟩ := literalRule?_of_part hpart
    exact .literal hnamed hrule (language.isLiteral_resolve (hrules ▸ hrule) _ _) rfl
  | identifier =>
    rw [hpart] at hmem
    obtain ⟨hnamed, hidentifier⟩ := isIdentifier_of_part hpart
    by_cases htext : node.text walk.source = ""
    · simp [htext] at hmem
    · obtain rfl : token = nameToken state.scopes (node.text walk.source) := by
        simpa [htext] using hmem
      unfold nameToken
      split
      · exact .name hnamed hidentifier
      · exact .text htext
  | construct =>
    rw [hpart] at hmem
    obtain ⟨⟨-, hshown⟩, rfl⟩ :
        (node.isLeaf ∧ ¬ Text.allBlank (node.text walk.source).toList) ∧
          token = .verbatim (node.text walk.source) := by
      simpa using hmem
    apply Origin.text
    intro htext
    rw [htext] at hshown
    exact hshown rfl

/-- A node that emits does so once, and the others emit nothing. -/
theorem origin_entering (hrules : walk.rules = language.rules) :
    List.Forall₂ (fun entry token => walk.Origin entry.2 token)
      ([(place, node)].filter fun entry => walk.emits entry.2)
      (written (walk.entering place node state)) := by
  have hlength := @length_written_entering walk node place state
  have horigin := fun token => @origin_of_mem_written walk node place state language hrules token
  generalize written (walk.entering place node state) = tokens at hlength horigin ⊢
  cases hemits : walk.emits node with
  | false =>
    obtain rfl : tokens = [] := by simpa [hemits] using hlength
    simp [hemits]
  | true =>
    obtain ⟨token, rfl⟩ : ∃ token, tokens = [token] := by
      simpa [hemits, List.length_eq_one_iff] using hlength
    simpa [hemits] using horigin token

mutual

/-- Call by call, tokens go with the nodes that emit. -/
theorem origins_calls (hrules : walk.rules = language.rules) (place : Place) (tree : Tree)
    (state : State) :
    List.Forall₂ (fun entry token => walk.Origin entry.2 token)
      ((walk.reached place tree).filter fun entry => walk.emits entry.2)
      ((walk.visitor.calls place tree state).flatMap written) := by
  match tree with
  | .node label children =>
    by_cases hpart : walk.part (.node label children) = .construct
    · have hsilent : ∀ call ∈ walk.visitor.calls place (.node label children) state,
          call.passage = .left → written call = [] := fun call hcall =>
        written_of_left (Visitor.performs_of_mem_calls hcall)
      rw [calls_of_construct hpart] at hsilent ⊢
      rw [reached_of_construct hpart, List.flatMap_cons, List.flatMap_append,
        List.flatMap_singleton, hsilent ⟨place, _, .left, _, _⟩ (by simp) rfl, List.append_nil,
        ← List.singleton_append, List.filter_append]
      exact List.rel_append (origin_entering hrules)
        (origins_forestCalls hrules place 0 children _)
    · rw [calls_of_part_ne hpart, reached_of_part_ne hpart, List.flatMap_singleton]
      exact origin_entering hrules

theorem origins_forestCalls (hrules : walk.rules = language.rules) (place : Place) (index : Nat)
    (forest : List Tree) (state : State) :
    List.Forall₂ (fun entry token => walk.Origin entry.2 token)
      ((walk.forestReached place index forest).filter fun entry => walk.emits entry.2)
      ((walk.visitor.forestCalls place index forest state).flatMap written) := by
  match forest with
  | [] =>
    rw [Visitor.forestCalls, forestReached]
    exact .nil
  | tree :: rest =>
    rw [Visitor.forestCalls, forestReached, List.flatMap_append, List.filter_append]
    exact List.rel_append (origins_calls hrules (place ++ [index]) tree state)
      (origins_forestCalls hrules place (index + 1) rest _)

end

/-! ### Their ranges -/

theorem mem_origins_iff :
    (place, node) ∈ walk.origins tree ↔ walk.Visited tree place node ∧ walk.emits node := by
  rw [origins, List.mem_filter, mem_reached_iff]

/-- No node that emits a token is above another one: a construct emits one only as a leaf. -/
theorem not_prefix_of_emits {first second : Place} {other : Tree}
    (hfirst : walk.Visited tree first node) (hemits : walk.emits node)
    (hsecond : walk.Visited tree second other) (hlt : first < second) : ¬ first <+: second := by
  rintro ⟨rest, rfl⟩
  cases rest with
  | nil =>
    rw [List.append_nil] at hlt
    exact List.lt_irrefl first hlt
  | cons index rest =>
    have hpart := hsecond.above first node (Place.isAbove_append_cons first rest) hfirst.at_place
    have hother := hsecond.at_place
    rw [Tree.at?_append, hfirst.at_place, Option.bind_some, Tree.at?_cons_eq_some_iff] at hother
    obtain ⟨child, hchild, -⟩ := hother
    have hleaf : node.children.isEmpty := by
      unfold emits at hemits
      rw [hpart] at hemits
      exact ((Bool.and_eq_true _ _).mp hemits).1
    rw [List.isEmpty_iff.mp hleaf] at hchild
    cases hchild

theorem pairwise_origins (hranges : tree.RangesNest walk.source) :
    (walk.origins tree).Pairwise fun first second =>
      first.1 < second.1 ∧ first.2.label.stop ≤ second.2.label.start := by
  refine List.Pairwise.imp_of_mem ?_ ((pairwise_reached [] tree).filter _)
  intro first second hfirst hsecond hlt
  obtain ⟨hfirstVisited, hemits⟩ := mem_origins_iff.mp hfirst
  obtain ⟨hsecondVisited, -⟩ := mem_origins_iff.mp hsecond
  exact ⟨hlt, hranges.stop_le_start hfirstVisited.at_place hsecondVisited.at_place hlt
    (not_prefix_of_emits hfirstVisited hemits hsecondVisited hlt)⟩

/-- Ranges that follow one another cover no byte twice. -/
theorem countP_covers_eq_one {entries : List (Place × Tree)} {entry : Place × Tree} {offset : Nat}
    (hapart : entries.Pairwise fun first second =>
      first.1 < second.1 ∧ first.2.label.stop ≤ second.2.label.start)
    (hmem : entry ∈ entries) (hcovers : entry.2.label.covers offset) :
    entries.countP (fun entry => entry.2.label.covers offset) = 1 := by
  obtain ⟨front, back, rfl⟩ := List.append_of_mem hmem
  obtain ⟨-, hback, hfront⟩ := List.pairwise_append.mp hapart
  have hearlier : front.countP (fun other => other.2.label.covers offset) = 0 := by
    rw [List.countP_eq_zero]
    intro other hother
    have hends := (hfront other hother entry List.mem_cons_self).2
    exact Label.not_covers_of_apart hcovers (Or.inl hends)
  have hlater : back.countP (fun other => other.2.label.covers offset) = 0 := by
    rw [List.countP_eq_zero]
    intro other hother
    have hstarts := ((List.pairwise_cons.mp hback).1 other hother).2
    exact Label.not_covers_of_apart hcovers (Or.inr hstarts)
  rw [List.countP_append, List.countP_cons, hearlier, hlater, if_pos hcovers]

/-- On the way to a leaf, the walk stops at the leaf or at a node that it does not visit inside. -/
theorem exists_visited_around {leaf : Tree} (hplace : tree.at? place = some leaf)
    (hleaf : leaf.isLeaf) :
    ∃ outer holder, outer <+: place ∧ walk.Visited tree outer holder ∧
      (walk.part holder = .construct → holder.isLeaf) := by
  induction place generalizing tree with
  | nil =>
    obtain rfl := Option.some.inj hplace
    exact ⟨[], tree, List.nil_prefix, visited_nil_iff.mpr rfl, fun _ => hleaf⟩
  | cons index place ih =>
    by_cases hpart : walk.part tree = .construct
    · obtain ⟨child, hchild, hbelow⟩ := Tree.at?_cons_eq_some_iff.mp hplace
      obtain ⟨outer, holder, haround, hvisited, hinside⟩ := ih hbelow
      exact ⟨index :: outer, holder, List.cons_prefix_cons.mpr ⟨rfl, haround⟩,
        visited_cons_iff.mpr ⟨hpart, child, hchild, hvisited⟩, hinside⟩
    · exact ⟨[], tree, List.nil_prefix, visited_nil_iff.mpr rfl, fun hsame => absurd hsame hpart⟩

theorem emits_of_visible {character : Char} (hpart : walk.part node ≠ .ignored)
    (hleaf : walk.part node = .construct → node.isLeaf)
    (hmem : character ∈ (node.text walk.source).toList) (hvisible : ¬ Text.isBlank character) :
    walk.emits node := by
  unfold emits
  cases hnode : walk.part node with
  | ignored => exact absurd hnode hpart
  | literal rule => rfl
  | identifier =>
    have htext : node.text walk.source ≠ "" := by
      intro hempty
      simp [hempty] at hmem
    simpa using htext
  | construct =>
    have hshown : ¬ Text.allBlank (node.text walk.source).toList := fun hblank =>
      hvisible (List.all_eq_true.mp hblank character hmem)
    simp [hleaf hnode, hshown]

/-- Whatever is visible in a leaf is in the range of a node that emits: the leaf itself, or the name
or literal around it that the walk does not enter. -/
theorem exists_origin_around {leaf : Tree} (hranges : tree.RangesNest walk.source)
    (hplace : tree.at? place = some leaf) (hleaf : leaf.isLeaf)
    (hkept : ∀ outer holder, outer <+: place → tree.at? outer = some holder →
      ¬ (holder.label.missing ∨ walk.rules.isSkipped holder.kind))
    {before after : List Char} {character : Char}
    (hcharacters : walk.source.characters = before ++ character :: after)
    (hvisible : ¬ Text.isBlank character)
    (hcovers : leaf.label.covers (Source.byteCount before)) :
    ∃ entry ∈ walk.origins tree, entry.2.label.covers (Source.byteCount before) := by
  obtain ⟨outer, holder, ⟨rest, rfl⟩, hvisited, hinside⟩ :=
    @exists_visited_around walk tree place leaf hplace hleaf
  have hpart : walk.part holder ≠ .ignored := by
    intro hignored
    exact hkept outer holder (List.prefix_append outer rest) hvisited.at_place
      (part_eq_ignored_iff.mp hignored)
  rw [Tree.at?_append, hvisited.at_place, Option.bind_some] at hplace
  have hwithin := (hranges.of_at? hvisited.at_place).within hplace
  rw [Label.covers_iff] at hcovers
  have hbehind : holder.label.start ≤ Source.byteCount before := by omega
  have hbefore : Source.byteCount before < holder.label.stop := by omega
  obtain ⟨hstart, hstop⟩ :=
    hranges.boundaries holder (Tree.mem_subtrees_of_at? hvisited.at_place)
  have hmem := Source.mem_slice hstart hstop hcharacters hbehind hbefore
  refine ⟨(outer, holder), mem_origins_iff.mpr ⟨hvisited, ?_⟩, ?_⟩
  · exact emits_of_visible hpart hinside hmem hvisible
  · exact Label.covers_iff.mpr ⟨hbehind, hbefore⟩

/-- Where ranges nest, no text is lost, written twice or moved. -/
theorem accounts_origins (hrules : walk.rules = language.rules)
    (hranges : tree.RangesNest walk.source) : walk.Accounts tree (walk.origins tree) where
  visited entry hentry := (mem_origins_iff.mp hentry).1
  tokens := by
    rw [tokens_run]
    exact origins_calls hrules [] tree .initial
  apart := pairwise_origins hranges
  covered := by
    intro place leaf hplace hleaf hkept before character after hcharacters hvisible hcovers
    obtain ⟨entry, hmem, haround⟩ :=
      exists_origin_around hranges hplace hleaf hkept hcharacters hvisible hcovers
    exact countP_covers_eq_one (pairwise_origins hranges) hmem haround

/-- The tree of `ü = "a b"`. -/
def assignmentTree : Tree :=
  .node (.sound "module" true 0 10 none) [
    .node (.sound "expression_statement" true 0 10 none) [
      .node (.sound "assignment" true 0 10 none) [
        .node (.sound "identifier" true 0 2 (some "left")) [],
        .node (.sound "=" false 3 4 none) [],
        .node (.sound "string" true 5 10 (some "right")) [
          .node (.sound "string_start" true 5 6 none) [],
          .node (.sound "string_content" true 6 9 none) [],
          .node (.sound "string_end" true 9 10 none) []]]]]

def assignmentWalk : Walk :=
  ⟨.ofString "ü = \"a b\"", Language.python.rules, .standard⟩

/-- The name takes two bytes, and the string is one token although it has parts and a space. -/
theorem accounts_assignment :
    assignmentTree.RangesNest assignmentWalk.source ∧
      (assignmentWalk.origins assignmentTree).map Prod.fst = [[0, 0, 0], [0, 0, 1], [0, 0, 2]] ∧
      assignmentWalk.Accounts assignmentTree (assignmentWalk.origins assignmentTree) := by
  have hrules : assignmentWalk.rules = Language.python.rules := rfl
  have hranges : assignmentTree.RangesNest assignmentWalk.source := by
    constructor <;> decide
  exact ⟨hranges, by decide, accounts_origins hrules hranges⟩

end Walk

end CanonicalTokens
