import CanonicalTokens.CanonicalForm
import CanonicalTokens.Proofs.Walk.Reached
import CanonicalTokens.Proofs.Walk.Visibility
import Mathlib.Data.List.Forall2

/-!
# What the options of a walk change

Which nodes a walk comes to, and for which of them it emits a token, is up to the rules. Whatever
its options are, a walk emits for the same nodes. What is declared decides only how an identifier is
emitted, and the choice about numbers only how a number is, if it can be collapsed. So where scopes
are bounded alike, the open scopes are the same at every node, and otherwise nothing but identifiers
is affected.
-/

namespace CanonicalTokens.Walk

variable {walk : Walk} {options : WalkOptions} {tree node : Tree} {place : Place}
  {state twin : State} {token other : Token}

def under (walk : Walk) (options : WalkOptions) : Walk :=
  { walk with options := options }

/-! ### What no option changes -/

theorem part_under (walk : Walk) (options : WalkOptions) (node : Tree) :
    (walk.under options).part node = walk.part node := rfl

theorem emits_under (walk : Walk) (options : WalkOptions) (node : Tree) :
    (walk.under options).emits node = walk.emits node := rfl

mutual

theorem emissionPlaces_under (walk : Walk) (options : WalkOptions) (base : Place) (tree : Tree) :
    (walk.under options).emissionPlaces base tree = walk.emissionPlaces base tree := by
  match tree with
  | .node label children =>
    rw [emissionPlaces, emissionPlaces, emits_under, part_under,
      forestPlaces_under walk options base 0 children]

theorem forestPlaces_under (walk : Walk) (options : WalkOptions) (base : Place) (start : Nat)
    (forest : List Tree) :
    (walk.under options).forestPlaces base start forest = walk.forestPlaces base start forest := by
  match forest with
  | [] => rw [forestPlaces, forestPlaces]
  | tree :: rest =>
    rw [forestPlaces, forestPlaces, emissionPlaces_under walk options (base ++ [start]) tree,
      forestPlaces_under walk options base (start + 1) rest]

end

/-! ### The open scopes -/

section Scopes

variable (hboundaries : options.boundaries = walk.options.boundaries)

include hboundaries

theorem boundary_under : (walk.under options).boundary = walk.boundary := by
  rw [boundary, boundary, under, hboundaries]

theorem bounds_under (node : Tree) : (walk.under options).bounds node = walk.bounds node := by
  rw [bounds, bounds, boundary_under hboundaries]

theorem openConstruct_under (node : Tree) (scopes : OpenScopes) :
    (walk.under options).openConstruct node scopes = walk.openConstruct node scopes := by
  rw [openConstruct, openConstruct, bounds_under hboundaries]
  rfl

theorem scopes_emitText_under (node : Tree) (hscopes : twin.scopes = state.scopes) :
    ((walk.under options).emitText node twin).scopes = (walk.emitText node state).scopes := by
  have hpass : ∀ text scopes,
      (walk.under options).passBrace node text scopes = walk.passBrace node text scopes := by
    intro text scopes
    rw [passBrace, passBrace, boundary_under hboundaries]
  have hsource : (walk.under options).source = walk.source := rfl
  unfold emitText
  rw [hsource]
  dsimp only
  split
  · exact hscopes
  · rw [hpass]
    exact congrArg (walk.passBrace node (node.text walk.source)) hscopes

/-- No option but the boundaries has to do with scopes. -/
theorem scopes_enter_under (node : Tree) (hscopes : twin.scopes = state.scopes) :
    ((walk.under options).enter node twin).1.scopes = (walk.enter node state).1.scopes := by
  have hsame := part_under walk options node
  by_cases hpart : walk.part node = .construct
  · rw [enter_of_construct (hsame.trans hpart), enter_of_construct hpart,
      openConstruct_under hboundaries, hscopes]
    dsimp only
    split
    · exact scopes_emitText_under hboundaries node rfl
    · rfl
  · rw [scopes_enter_of_passed (hsame ▸ hpart), scopes_enter_of_passed hpart, hscopes]

theorem scopes_leave_under (node : Tree) (hscopes : twin.scopes = state.scopes) :
    ((walk.under options).leave node twin).scopes = (walk.leave node state).scopes := by
  rw [leave, leave, bounds_under hboundaries]
  split
  · exact congrArg OpenScopes.pop hscopes
  · exact hscopes

end Scopes

mutual

/-- With the same boundaries the scopes behind a tree are the same, whatever becomes of numbers. -/
theorem scopes_fold_under (hboundaries : options.boundaries = walk.options.boundaries)
    (tree : Tree) {state twin : State} (hscopes : twin.scopes = state.scopes) :
    ((walk.under options).visitor.fold tree twin).scopes =
      (walk.visitor.fold tree state).scopes := by
  match tree with
  | .node label children =>
    have hsame := part_under walk options (.node label children)
    have henter := scopes_enter_under hboundaries (.node label children) hscopes
    by_cases hpart : walk.part (.node label children) = .construct
    · rw [fold_of_construct (hsame.trans hpart), fold_of_construct hpart]
      exact scopes_leave_under hboundaries _ (scopes_foldForest_under hboundaries children henter)
    · rw [fold_of_part_ne (hsame ▸ hpart), fold_of_part_ne hpart]
      exact henter

theorem scopes_foldForest_under (hboundaries : options.boundaries = walk.options.boundaries)
    (forest : List Tree) {state twin : State} (hscopes : twin.scopes = state.scopes) :
    ((walk.under options).visitor.foldForest forest twin).scopes =
      (walk.visitor.foldForest forest state).scopes := by
  match forest with
  | [] =>
    rw [Visitor.foldForest, Visitor.foldForest]
    exact hscopes
  | tree :: rest =>
    rw [Visitor.foldForest, Visitor.foldForest]
    exact scopes_foldForest_under hboundaries rest (scopes_fold_under hboundaries tree hscopes)

end

/-- Where scopes are bounded alike, both walks come to a place with the same scopes open. -/
theorem scopes_arrival_under (hboundaries : options.boundaries = walk.options.boundaries)
    (tree : Tree) (place : Place) (hscopes : twin.scopes = state.scopes) :
    ((walk.under options).arrival tree twin place).scopes =
      (walk.arrival tree state place).scopes := by
  induction place generalizing tree state twin with
  | nil => exact hscopes
  | cons index place ih =>
    rw [arrival, arrival]
    split
    · apply ih
      apply scopes_foldForest_under hboundaries
      exact scopes_enter_under hboundaries tree hscopes
    · exact hscopes

theorem tally_under (hboundaries : options.boundaries = walk.options.boundaries) (tree : Tree) :
    ((walk.under options).run tree).tally = (walk.run tree).tally := by
  rw [run, run, Visitor.traverse_eq_fold, Visitor.traverse_eq_fold]
  exact congrArg OpenScopes.tally (scopes_fold_under hboundaries tree rfl)

/-! ### The tokens of one node -/

/-- A number that one walk collapses and the other does not. -/
inductive NumbersApart (walk : Walk) (node : Tree) : Token → Token → Prop
  | collapsed {collapsed distinct : Placeholder} (hnamed : node.isNamed)
      (hrule : walk.rules.literalRule? node.kind = some (.collapsible collapsed distinct)) :
      NumbersApart walk node (.placeholder collapsed) (.placeholder distinct)
  | distinct {collapsed distinct : Placeholder} (hnamed : node.isNamed)
      (hrule : walk.rules.literalRule? node.kind = some (.collapsible collapsed distinct)) :
      NumbersApart walk node (.placeholder distinct) (.placeholder collapsed)

/-- An identifier that one walk takes for a variable and the other emits as it is. -/
inductive NamesApart (walk : Walk) (node : Tree) : Token → Token → Prop
  | variable (hnamed : node.isNamed) (hidentifier : walk.rules.isIdentifier node.kind) :
      NamesApart walk node (.placeholder .variableName) (.verbatim (node.text walk.source))
  | verbatim (hnamed : node.isNamed) (hidentifier : walk.rules.isIdentifier node.kind) :
      NamesApart walk node (.verbatim (node.text walk.source)) (.placeholder .variableName)

/-- A literal resolves in two ways only if its rule can collapse numbers. -/
theorem numbersApart_of_ne {rule : LiteralRule} {text : String} {first second : Bool}
    (hnamed : node.isNamed) (hrule : walk.rules.literalRule? node.kind = some rule)
    (hne : rule.resolve text second ≠ rule.resolve text first) :
    second ≠ first ∧ walk.NumbersApart node (.placeholder (rule.resolve text first))
      (.placeholder (rule.resolve text second)) := by
  cases rule with
  | fixed placeholder => exact absurd rfl hne
  | numeric => exact absurd rfl hne
  | collapsible collapsed distinct =>
    cases first <;> cases second
    · exact absurd rfl hne
    · exact ⟨by decide, .collapsed hnamed hrule⟩
    · exact ⟨by decide, .distinct hnamed hrule⟩
    · exact absurd rfl hne

/-- A name is emitted in two ways only if it is declared in one walk and not in the other. -/
theorem namesApart_of_ne {scopes others : OpenScopes} (hnamed : node.isNamed)
    (hidentifier : walk.rules.isIdentifier node.kind)
    (hne : nameToken others (node.text walk.source) ≠ nameToken scopes (node.text walk.source)) :
    others ≠ scopes ∧ walk.NamesApart node (nameToken scopes (node.text walk.source))
      (nameToken others (node.text walk.source)) := by
  refine ⟨fun hscopes => hne (hscopes ▸ rfl), ?_⟩
  unfold nameToken at hne ⊢
  split <;> split
  · simp_all
  · exact .variable hnamed hidentifier
  · exact .verbatim hnamed hidentifier
  · simp_all

/-- Two walks that come to a node write the same, unless numbers are told apart in one of them only
or the open scopes are not the same. -/
theorem eq_or_apart_of_mem_written
    (htoken : token ∈ written (walk.entering place node state))
    (hother : other ∈ written ((walk.under options).entering place node twin)) :
    other = token ∨
      (options.distinguishNumbers ≠ walk.options.distinguishNumbers ∧
        walk.NumbersApart node token other) ∨
      (twin.scopes ≠ state.scopes ∧ walk.NamesApart node token other) := by
  have hsource : (walk.under options).source = walk.source := rfl
  rw [written_entering] at htoken hother
  rw [part_under, hsource] at hother
  by_cases hsame : other = token
  · exact .inl hsame
  right
  cases hpart : walk.part node with
  | ignored =>
    rw [hpart] at htoken
    cases htoken
  | literal rule =>
    rw [hpart] at htoken hother
    obtain rfl := List.mem_singleton.mp htoken
    obtain rfl := List.mem_singleton.mp hother
    obtain ⟨hnamed, hrule⟩ := literalRule?_of_part hpart
    exact .inl (numbersApart_of_ne hnamed hrule fun hresolved => hsame (hresolved ▸ rfl))
  | identifier =>
    rw [hpart] at htoken hother
    dsimp only at htoken hother
    split at htoken
    · cases htoken
    · rename_i htext
      rw [if_neg htext] at hother
      obtain rfl := List.mem_singleton.mp htoken
      obtain rfl := List.mem_singleton.mp hother
      obtain ⟨hnamed, hidentifier⟩ := isIdentifier_of_part hpart
      exact .inr (namesApart_of_ne hnamed hidentifier hsame)
  | construct =>
    rw [hpart] at htoken hother
    dsimp only at htoken hother
    split at htoken
    · rename_i hshown
      rw [if_pos hshown] at hother
      obtain rfl := List.mem_singleton.mp htoken
      exact absurd (List.mem_singleton.mp hother) hsame
    · cases htoken

/-! ### All tokens -/

/-- Emissions that come from the same nodes in the same order, with tokens that are the same or are
apart at their node in a certain way. -/
def AgreeBut (tree : Tree) (apart : Tree → Token → Token → Prop)
    (emissions others : List Emission) : Prop :=
  List.Forall₂ (fun emission other => emission.place = other.place ∧
    ∃ node, tree.at? emission.place = some node ∧
      (other.token = emission.token ∨ apart node emission.token other.token)) emissions others

theorem places_under (walk : Walk) (options : WalkOptions) (tree : Tree) :
    ((walk.under options).emissions tree).map Emission.place =
      (walk.emissions tree).map Emission.place := by
  rw [places_emissions, places_emissions, emissionPlaces_under]

/-- Token by token, two walks can be compared at their nodes: both emit at the same places. -/
theorem agreeBut_under {apart : Tree → Token → Token → Prop}
    (hapart : ∀ place node token other,
      token ∈ written (walk.entering place node (walk.arrival tree .initial place)) →
      other ∈ written ((walk.under options).entering place node
        ((walk.under options).arrival tree .initial place)) →
      other = token ∨ apart node token other) :
    AgreeBut tree apart (walk.emissions tree) ((walk.under options).emissions tree) := by
  have hplaces : List.Forall₂ (· = ·) ((walk.emissions tree).map Emission.place)
      (((walk.under options).emissions tree).map Emission.place) := by
    rw [places_under, List.forall₂_eq_eq_eq]
  obtain ⟨hlength, hpairs⟩ := List.forall₂_iff_zip.mp
    (List.forall₂_map_left_iff.mp (List.forall₂_map_right_iff.mp hplaces))
  refine List.forall₂_iff_zip.mpr ⟨hlength, ?_⟩
  intro emission other hpair
  have hplace := hpairs hpair
  obtain ⟨hmem, hother⟩ := List.of_mem_zip hpair
  obtain ⟨node, hvisited, htoken⟩ := exists_visited_of_mem_emissions hmem
  obtain ⟨twin, htwin, hothers⟩ := exists_visited_of_mem_emissions hother
  rw [← hplace] at htwin hothers
  obtain rfl := Option.some.inj (hvisited.at_place.symm.trans htwin.at_place)
  exact ⟨hplace, node, hvisited.at_place, hapart _ _ _ _ htoken hothers⟩

structure TouchesOnly (walk : Walk) (options : WalkOptions) (tree : Tree) : Prop where
  length : ((walk.under options).run tree).tokens.length = (walk.run tree).tokens.length
  nodes : ((walk.under options).emissions tree).map Emission.place =
    (walk.emissions tree).map Emission.place
  tokens : (walk.emissions tree).map Emission.token = (walk.run tree).tokens ∧
    ((walk.under options).emissions tree).map Emission.token =
      ((walk.under options).run tree).tokens
  numbers : options.boundaries = walk.options.boundaries →
    ((walk.under options).run tree).tally = (walk.run tree).tally ∧
      AgreeBut tree walk.NumbersApart (walk.emissions tree) ((walk.under options).emissions tree)
  boundaries : options.distinguishNumbers = walk.options.distinguishNumbers →
    AgreeBut tree walk.NamesApart (walk.emissions tree) ((walk.under options).emissions tree)

/-- An option of the walk has an effect on the tokens that it is about, and on no others. -/
theorem touchesOnly_under (walk : Walk) (options : WalkOptions) (tree : Tree) :
    walk.TouchesOnly options tree where
  length := by
    rw [← tokens_emissions, ← tokens_emissions, List.length_map, List.length_map,
      ← List.length_map Emission.place, places_under, List.length_map]
  nodes := places_under walk options tree
  tokens := ⟨tokens_emissions walk tree, tokens_emissions (walk.under options) tree⟩
  numbers hboundaries := by
    refine ⟨tally_under hboundaries tree, agreeBut_under ?_⟩
    intro place node token other htoken hother
    rcases eq_or_apart_of_mem_written htoken hother with hsame | ⟨-, hnumbers⟩ | ⟨hscopes, -⟩
    · exact .inl hsame
    · exact .inr hnumbers
    · exact absurd (scopes_arrival_under hboundaries tree place rfl) hscopes
  boundaries hnumbers := by
    apply agreeBut_under
    intro place node token other htoken hother
    rcases eq_or_apart_of_mem_written htoken hother with hsame | ⟨hoption, -⟩ | ⟨-, hnames⟩
    · exact .inl hsame
    · exact absurd hnumbers hoption
    · exact .inr hnames

/-- The tree of a declaration between braces that belong to no construct, and of its name behind
them. -/
def bracedTree : Tree :=
  .node ⟨"source_file", true, false, false, true, 0, 11, none⟩ [
    .node (.sound "\x7b" false 0 1 none) [],
    .node (.sound "var_declaration" true 2 7 none) [
      .node (.sound "var" false 2 5 none) [],
      .node (.sound "var_spec" true 6 7 none) [
        .node (.sound "identifier" true 6 7 (some "name")) []]],
    .node (.sound "\x7d" false 8 9 none) [],
    .node (.sound "identifier" true 10 11 none) []]

def bracedWalk : Walk :=
  ⟨.ofString "\x7b var x \x7d x", Language.go.rules, .standard⟩

-- Only the braces end the scope of the name.
example :
    (bracedWalk.emissions bracedTree).map Emission.token =
        [.verbatim "\x7b", .verbatim "var", .placeholder .variableName, .verbatim "\x7d",
          .verbatim "x"] ∧
      ((bracedWalk.under ⟨.structural, false⟩).emissions bracedTree).map Emission.token =
        [.verbatim "\x7b", .verbatim "var", .placeholder .variableName, .verbatim "\x7d",
          .placeholder .variableName] := by
  decide

end CanonicalTokens.Walk
