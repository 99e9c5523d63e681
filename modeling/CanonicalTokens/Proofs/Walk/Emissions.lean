import CanonicalTokens.Proofs.Traversal
import CanonicalTokens.Walk

/-!
# Which node a token comes from

The walk comes to a node if all nodes above it are constructs. Every call of the walk's visitor only
adds tokens behind those that are there, so each token belongs to one call and with it to the place
of one node. The emissions of a walk are its tokens with these places; without the places they are
the tokens of the walk. A node that is not visited inside is called once, so its emissions are those
of this call.
-/

namespace CanonicalTokens.Walk

variable {walk : Walk} {tree node : Tree} {place : Place} {state : State}

/-! ### The part of a node -/

theorem part_eq_ignored_iff :
    walk.part node = .ignored ↔ node.label.missing ∨ walk.rules.isSkipped node.kind := by
  rw [← Bool.or_eq_true]
  unfold part
  split
  next hignored => simp [hignored]
  next hkept =>
    rw [iff_false_right hkept]
    split
    · split
      · exact Part.noConfusion
      · split <;> exact Part.noConfusion
    · exact Part.noConfusion

theorem part_of_named (hpart : walk.part node ≠ .ignored) (hnamed : node.isNamed) :
    walk.part node =
      match walk.rules.literalRule? node.kind with
      | some rule => .literal rule
      | none => if walk.rules.isIdentifier node.kind then .identifier else .construct := by
  rw [Ne, part_eq_ignored_iff, ← Bool.or_eq_true] at hpart
  exact (if_neg hpart).trans (if_pos hnamed)

theorem part_of_anonymous (hpart : walk.part node ≠ .ignored) (hnamed : ¬ node.isNamed) :
    walk.part node = .construct := by
  rw [Ne, part_eq_ignored_iff, ← Bool.or_eq_true] at hpart
  exact (if_neg hpart).trans (if_neg hnamed)

theorem literalRule?_of_part {rule : LiteralRule} (hpart : walk.part node = .literal rule) :
    node.isNamed ∧ walk.rules.literalRule? node.kind = some rule := by
  have hkept : walk.part node ≠ .ignored := by simp [hpart]
  by_cases hnamed : node.isNamed
  · rw [part_of_named hkept hnamed] at hpart
    refine ⟨hnamed, ?_⟩
    split at hpart
    next other hrule =>
      obtain rfl := Part.literal.inj hpart
      exact hrule
    next => split at hpart <;> cases hpart
  · rw [part_of_anonymous hkept hnamed] at hpart
    cases hpart

theorem isIdentifier_of_part (hpart : walk.part node = .identifier) :
    node.isNamed ∧ walk.rules.isIdentifier node.kind := by
  have hkept : walk.part node ≠ .ignored := by simp [hpart]
  by_cases hnamed : node.isNamed
  · rw [part_of_named hkept hnamed] at hpart
    refine ⟨hnamed, ?_⟩
    split at hpart
    next => cases hpart
    next =>
      split at hpart
      next hidentifier => exact hidentifier
      next => cases hpart
  · rw [part_of_anonymous hkept hnamed] at hpart
    cases hpart

/-! ### Nodes that the walk comes to -/

/-- The walk comes to the node at a place: every node above it is visited inside. -/
structure Visited (walk : Walk) (tree : Tree) (place : Place) (node : Tree) : Prop where
  at_place : tree.at? place = some node
  above : ∀ outer holder, outer.IsAbove place → tree.at? outer = some holder →
    walk.part holder = .construct

structure Entered (walk : Walk) (tree : Tree) (place : Place) (node : Tree) : Prop
    extends Visited walk tree place node where
  construct : walk.part node = .construct

theorem visited_nil_iff : walk.Visited tree [] node ↔ tree = node := by
  constructor
  · intro hvisited
    exact Option.some.inj hvisited.at_place
  · rintro rfl
    exact ⟨rfl, fun outer _ habove => absurd habove Place.not_isAbove_nil⟩

/-- The walk comes to a node of a child if it enters the tree and comes to it from the child. -/
theorem visited_cons_iff {index : Nat} :
    walk.Visited tree (index :: place) node ↔
      walk.part tree = .construct ∧
        ∃ child, tree.children[index]? = some child ∧ walk.Visited child place node := by
  constructor
  · intro hvisited
    obtain ⟨child, hchild, hnode⟩ := Tree.at?_cons_eq_some_iff.mp hvisited.at_place
    obtain ⟨hpart, habove⟩ := (Tree.forall_above_cons_iff hchild).mp hvisited.above
    exact ⟨hpart, child, hchild, hnode, habove⟩
  · rintro ⟨hpart, child, hchild, hvisited⟩
    exact ⟨Tree.at?_cons_eq_some_iff.mpr ⟨child, hchild, hvisited.at_place⟩,
      (Tree.forall_above_cons_iff hchild).mpr ⟨hpart, hvisited.above⟩⟩

theorem Entered.visited_child (hentered : walk.Entered tree place node) {index : Nat}
    {child : Tree} (hchild : node.children[index]? = some child) :
    walk.Visited tree (place ++ [index]) child := by
  refine ⟨by rw [Tree.at?_concat hentered.at_place, hchild], ?_⟩
  rintro outer holder ⟨hinitial, hne⟩ hholder
  have hupper : outer <+: place := (List.prefix_concat_iff.mp hinitial).resolve_left hne
  by_cases hplace : outer = place
  · obtain rfl := hplace
    obtain rfl := Option.some.inj (hentered.at_place.symm.trans hholder)
    exact hentered.construct
  · exact hentered.above outer holder ⟨hupper, hplace⟩ hholder

/-! ### Entering a node -/

theorem enter_of_construct (hpart : walk.part node = .construct) :
    walk.enter node state =
      (if node.isLeaf then
        walk.emitText node { state with scopes := walk.openConstruct node state.scopes }
      else { state with scopes := walk.openConstruct node state.scopes }, true) := by
  rw [enter, hpart]

theorem enter_of_identifier (hpart : walk.part node = .identifier) :
    walk.enter node state = (state.emitName (node.text walk.source), false) := by
  rw [enter, hpart]

theorem enter_of_passed (hpart : walk.part node ≠ .construct) :
    (walk.enter node state).2 = false := by
  unfold enter
  split
  · rfl
  · rfl
  · rfl
  · contradiction

theorem fold_of_part_ne (hpart : walk.part node ≠ .construct) :
    walk.visitor.fold node state = (walk.enter node state).1 :=
  Visitor.fold_of_passed (Prod.ext rfl (enter_of_passed hpart))

theorem fold_of_construct (hpart : walk.part node = .construct) :
    walk.visitor.fold node state =
      walk.leave node (walk.visitor.foldForest node.children (walk.enter node state).1) := by
  rw [enter_of_construct hpart]
  exact Visitor.fold_of_entered (enter_of_construct hpart)

def entering (walk : Walk) (place : Place) (node : Tree) (state : State) : Call State :=
  ⟨place, node, .entered (walk.enter node state).2, state, (walk.enter node state).1⟩

theorem calls_of_part_ne (hpart : walk.part node ≠ .construct) :
    walk.visitor.calls place node state = [walk.entering place node state] := by
  rw [Visitor.calls_of_passed (Prod.ext rfl (enter_of_passed hpart)), entering,
    enter_of_passed hpart]
  rfl

theorem calls_of_construct (hpart : walk.part node = .construct) :
    walk.visitor.calls place node state =
      walk.entering place node state ::
        (walk.visitor.forestCalls place 0 node.children (walk.enter node state).1 ++
          [⟨place, node, .left, walk.visitor.foldForest node.children (walk.enter node state).1,
            walk.visitor.fold node state⟩]) := by
  rw [fold_of_construct hpart, entering, enter_of_construct hpart]
  exact Visitor.calls_of_entered (enter_of_construct hpart)

theorem entering_mem_calls_self :
    walk.entering place node state ∈ walk.visitor.calls place node state := by
  by_cases hpart : walk.part node = .construct
  · rw [calls_of_construct hpart]
    exact List.mem_cons_self
  · rw [calls_of_part_ne hpart]
    exact List.mem_cons_self

def arrival (walk : Walk) : Tree → State → Place → State
  | _, state, [] => state
  | tree, state, index :: place =>
    match tree.children[index]? with
    | some child =>
      arrival walk child
        (walk.visitor.foldForest (tree.children.take index) (walk.enter tree state).1) place
    | none => state

theorem arrival_cons {child : Tree} {index : Nat} (hchild : tree.children[index]? = some child) :
    walk.arrival tree state (index :: place) =
      walk.arrival child
        (walk.visitor.foldForest (tree.children.take index) (walk.enter tree state).1) place := by
  rw [arrival, hchild]

/-- Every node that the walk comes to is entered, in the state of its arrival. -/
theorem entering_mem_calls {base : Place} (hvisited : walk.Visited tree place node) :
    walk.entering (base ++ place) node (walk.arrival tree state place) ∈
      walk.visitor.calls base tree state := by
  induction place generalizing base tree state with
  | nil =>
    obtain rfl := visited_nil_iff.mp hvisited
    rw [List.append_nil, arrival]
    exact entering_mem_calls_self
  | cons index place ih =>
    obtain ⟨hpart, child, hchild, hbelow⟩ := visited_cons_iff.mp hvisited
    rw [calls_of_construct hpart, arrival_cons hchild]
    apply List.mem_cons_of_mem
    apply List.mem_append_left
    rw [Visitor.mem_forestCalls_iff]
    refine ⟨index, child, hchild, ?_⟩
    have hplace : base ++ index :: place = base ++ [index] ++ place := List.append_cons ..
    rw [hplace, Nat.zero_add]
    exact ih hbelow

/-! ### Emissions -/

structure Emission where
  place : Place
  token : Token
  deriving DecidableEq, Repr

def written (call : Call State) : List Token :=
  call.after.tokens.toList.drop call.before.tokens.size

def emitted (call : Call State) : List Emission :=
  (written call).map (Emission.mk call.place)

def emissions (walk : Walk) (tree : Tree) : List Emission :=
  (walk.visitor.calls [] tree .initial).flatMap emitted

theorem prefix_emit (state : State) (token : Token) :
    state.tokens.toList <+: (state.emit token).tokens.toList := by
  simp [State.emit]

theorem prefix_emitName (state : State) (name : String) :
    state.tokens.toList <+: (state.emitName name).tokens.toList := by
  unfold State.emitName
  split
  · exact List.prefix_refl _
  · split <;> exact prefix_emit state _

theorem prefix_emitText (node : Tree) (state : State) :
    state.tokens.toList <+: (walk.emitText node state).tokens.toList := by
  unfold emitText
  dsimp only
  split
  · exact List.prefix_refl _
  · exact prefix_emit state _

/-- Entering a node adds tokens behind those there are. -/
theorem prefix_enter (node : Tree) (state : State) :
    state.tokens.toList <+: (walk.enter node state).1.tokens.toList := by
  cases hpart : walk.part node with
  | ignored =>
    have henter : walk.enter node state = (state, false) := by rw [enter, hpart]
    simp [henter]
  | literal rule =>
    rw [enter, hpart]
    exact prefix_emit state _
  | identifier =>
    rw [enter_of_identifier hpart]
    exact prefix_emitName state _
  | construct =>
    rw [enter_of_construct hpart]
    dsimp only
    split
    · exact prefix_emitText node { state with scopes := walk.openConstruct node state.scopes }
    · exact List.prefix_refl _

theorem tokens_leave (node : Tree) (state : State) :
    (walk.leave node state).tokens = state.tokens := by
  unfold leave
  split <;> rfl

/-- A call keeps the tokens from before and adds those it writes. -/
theorem tokens_of_performs {call : Call State} (hperforms : walk.visitor.Performs call) :
    call.after.tokens.toList = call.before.tokens.toList ++ written call := by
  have hinitial : call.before.tokens.toList <+: call.after.tokens.toList := by
    unfold Visitor.Performs at hperforms
    split at hperforms
    · have hafter : (walk.enter call.node call.before).1 = call.after := congrArg Prod.fst hperforms
      exact hafter ▸ prefix_enter call.node call.before
    · have hafter : walk.leave call.node call.before = call.after := hperforms
      simp [← hafter, tokens_leave]
  exact (List.prefix_iff_eq_append.mp hinitial).symm

theorem tokens_of_linked {calls : List (Call State)} {final : State}
    (hlinked : Visitor.Linked state calls final)
    (hperforms : ∀ call ∈ calls, walk.visitor.Performs call) :
    final.tokens.toList = state.tokens.toList ++ calls.flatMap written := by
  induction hlinked with
  | nil => simp
  | cons call _ ih =>
    rw [ih fun other hother => hperforms other (List.mem_cons_of_mem call hother),
      tokens_of_performs (hperforms call List.mem_cons_self), List.flatMap_cons, List.append_assoc]

theorem tokens_run (walk : Walk) (tree : Tree) :
    (walk.run tree).tokens = (walk.visitor.calls [] tree .initial).flatMap written := by
  have hlinked := Visitor.linked_calls walk.visitor [] tree .initial
  have htokens := tokens_of_linked hlinked fun call => Visitor.performs_of_mem_calls
  rw [run, Visitor.traverse_eq_fold, htokens]
  rfl

/-- Without the places, the emissions of a walk are its tokens. -/
theorem tokens_emissions (walk : Walk) (tree : Tree) :
    (walk.emissions tree).map Emission.token = (walk.run tree).tokens := by
  rw [tokens_run]
  simp [emissions, emitted, List.map_flatMap, Function.comp_def]

theorem filter_emitted_of_ne {calls : List (Call State)}
    (helsewhere : ∀ call ∈ calls, call.place ≠ place) :
    (calls.flatMap emitted).filter (fun emission => emission.place = place) = [] := by
  rw [List.filter_eq_nil_iff]
  intro emission hemission
  obtain ⟨call, hcall, hemitted⟩ := List.mem_flatMap.mp hemission
  obtain ⟨token, -, rfl⟩ := List.mem_map.mp hemitted
  simpa using helsewhere call hcall

theorem filter_emitted_self (call : Call State) :
    (emitted call).filter (fun emission => emission.place = call.place) = emitted call := by
  rw [List.filter_eq_self]
  intro emission hemission
  obtain ⟨token, -, rfl⟩ := List.mem_map.mp hemission
  simp

/-- Calls at other places emit nothing at this one. -/
theorem filter_emitted_of_around {before between after : List (Call State)}
    (haround : Visitor.Around place before after) :
    ((before ++ between ++ after).flatMap emitted).filter
        (fun emission => emission.place = place) =
      (between.flatMap emitted).filter (fun emission => emission.place = place) := by
  have hbefore : ∀ call ∈ before, call.place ≠ place := by
    intro call hcall hplace
    exact List.lt_irrefl place (hplace ▸ haround.earlier call hcall)
  have hafter : ∀ call ∈ after, call.place ≠ place := by
    rintro call hcall rfl
    exact haround.outside call hcall (List.prefix_refl _)
  rw [List.flatMap_append, List.flatMap_append, List.filter_append, List.filter_append,
    filter_emitted_of_ne hbefore, filter_emitted_of_ne hafter, List.nil_append, List.append_nil]

theorem written_of_left {call : Call State} (hperforms : walk.visitor.Performs call)
    (hleft : call.passage = .left) : written call = [] := by
  unfold Visitor.Performs at hperforms
  rw [hleft] at hperforms
  have hafter : walk.leave call.node call.before = call.after := hperforms
  simp [written, ← hafter, tokens_leave]

theorem emitted_of_left {call : Call State} (hperforms : walk.visitor.Performs call)
    (hleft : call.passage = .left) : emitted call = [] := by
  rw [emitted, written_of_left hperforms hleft, List.map_nil]

/-- A node that the walk comes to emits what the call that enters it adds, and nothing else. -/
theorem emissions_at_visited (hvisited : walk.Visited tree place node) :
    (walk.emissions tree).filter (fun emission => emission.place = place) =
      emitted (walk.entering place node (walk.arrival tree .initial place)) := by
  have hmem : walk.entering place node (walk.arrival tree .initial place) ∈
      walk.visitor.calls [] tree .initial := entering_mem_calls hvisited
  have hself := filter_emitted_self
    (walk.entering place node (walk.arrival tree .initial place))
  have hnested := Visitor.nested_calls walk.visitor [] tree .initial
  cases hinside : (walk.enter node (walk.arrival tree .initial place)).2 with
  | false =>
    obtain ⟨before, after, hcalls, haround⟩ :=
      hnested.passed _ hmem (congrArg Passage.entered hinside)
    have helsewhere : Visitor.Around place before after := haround
    rw [emissions, hcalls, List.append_cons, filter_emitted_of_around helsewhere,
      List.flatMap_singleton]
    exact hself
  | true =>
    -- Leaving the node adds nothing, and all calls in between are made below it.
    obtain ⟨before, inside, leaving, after, hcalls, -, hleft, hbelow, haround⟩ :=
      hnested.visited _ hmem (congrArg Passage.entered hinside)
    have helsewhere : Visitor.Around place before after := haround
    have hleaving : leaving ∈ walk.visitor.calls [] tree .initial := by simp [hcalls]
    have hsilent := emitted_of_left (Visitor.performs_of_mem_calls hleaving) hleft
    have hdeeper : ∀ call ∈ inside, call.place ≠ place := by
      intro call hcall hplace
      exact (hbelow call hcall).2 hplace.symm
    have hsplit : walk.visitor.calls [] tree .initial =
        before ++ (walk.entering place node (walk.arrival tree .initial place) ::
          (inside ++ [leaving])) ++ after := by simp [hcalls]
    rw [emissions, hsplit, filter_emitted_of_around helsewhere, List.flatMap_cons,
      List.flatMap_append, List.flatMap_singleton, hsilent, List.append_nil, List.filter_append,
      filter_emitted_of_ne hdeeper, List.append_nil]
    exact hself

/-! ### The tokens of one node -/

def nameToken (scopes : OpenScopes) (name : String) : Token :=
  if scopes.isDeclared name then .placeholder .variableName else .verbatim name

theorem emitName_of_ne_empty {name : String} (hname : name ≠ "") :
    state.emitName name = state.emit (nameToken state.scopes name) := by
  have hnonempty : ¬ name.isEmpty := by simpa using hname
  rw [State.emitName, if_neg hnonempty, nameToken]
  split <;> rfl

/-- Whether the walk emits a token for a node when it comes to it, whatever is declared then. -/
def emits (walk : Walk) (node : Tree) : Bool :=
  match walk.part node with
  | .ignored => false
  | .literal _ => true
  | .identifier => node.text walk.source ≠ ""
  | .construct => node.isLeaf && !Text.allBlank (node.text walk.source).toList

theorem written_of_emit {call : Call State} {token : Token}
    (htokens : call.after.tokens = call.before.tokens.push token) : written call = [token] := by
  simp [written, htokens]

theorem written_of_silent {call : Call State} (htokens : call.after.tokens = call.before.tokens) :
    written call = [] := by
  simp [written, htokens]

/-- What a node adds when the walk comes to it. -/
theorem written_entering :
    written (walk.entering place node state) =
      match walk.part node with
      | .ignored => []
      | .literal rule =>
        [.placeholder (rule.resolve (node.text walk.source) walk.options.distinguishNumbers)]
      | .identifier =>
        if node.text walk.source = "" then []
        else [nameToken state.scopes (node.text walk.source)]
      | .construct =>
        if node.isLeaf && !Text.allBlank (node.text walk.source).toList then
          [.verbatim (node.text walk.source)]
        else [] := by
  cases hpart : walk.part node with
  | ignored =>
    apply written_of_silent
    rw [entering, enter, hpart]
  | literal rule =>
    apply written_of_emit
    rw [entering, enter, hpart]
    rfl
  | identifier =>
    dsimp only
    split
    next htext =>
      apply written_of_silent
      rw [entering, enter_of_identifier hpart, htext]
      rfl
    next htext =>
      apply written_of_emit
      rw [entering, enter_of_identifier hpart, emitName_of_ne_empty htext]
      rfl
  | construct =>
    dsimp only
    split
    next hshown =>
      obtain ⟨hleaf, hvisible⟩ := (Bool.and_eq_true _ _).mp hshown
      apply written_of_emit
      simp_all [entering, enter_of_construct hpart, emitText, State.emit]
    next hsilent =>
      apply written_of_silent
      by_cases hleaf : node.isLeaf
      · simp_all [entering, enter_of_construct hpart, emitText]
      · rw [entering, enter_of_construct hpart, if_neg hleaf]

theorem emissions_of_identifier (hvisited : walk.Visited tree place node)
    (hpart : walk.part node = .identifier) (htext : node.text walk.source ≠ "") :
    (walk.emissions tree).filter (fun emission => emission.place = place) =
      [⟨place, nameToken (walk.arrival tree .initial place).scopes (node.text walk.source)⟩] := by
  rw [emissions_at_visited hvisited, emitted, written_entering, hpart]
  dsimp only
  rw [if_neg htext]
  rfl

theorem emissions_of_construct (hentered : walk.Entered tree place node) :
    (walk.emissions tree).filter (fun emission => emission.place = place) =
      if node.isLeaf && !Text.allBlank (node.text walk.source).toList then
        [⟨place, .verbatim (node.text walk.source)⟩]
      else [] := by
  rw [emissions_at_visited hentered.toVisited, emitted, written_entering, hentered.construct]
  dsimp only
  split <;> rfl

theorem emissions_at_leaf (hentered : walk.Entered tree place node) (hleaf : node.isLeaf)
    (hshown : ¬ Text.allBlank (node.text walk.source).toList) :
    (walk.emissions tree).filter (fun emission => emission.place = place) =
      [⟨place, .verbatim (node.text walk.source)⟩] := by
  rw [emissions_of_construct hentered]
  simp [hleaf, hshown]

/-- Entering a node writes one token or none. -/
theorem length_written_entering :
    (written (walk.entering place node state)).length = (walk.emits node).toNat := by
  rw [written_entering]
  unfold emits
  cases walk.part node with
  | ignored => rfl
  | literal rule => rfl
  | identifier =>
    dsimp only
    split <;> simp_all
  | construct =>
    dsimp only
    split
    next hshown => rw [hshown, List.length_singleton, Bool.toNat_true]
    next hsilent => rw [Bool.eq_false_iff.mpr hsilent, List.length_nil, Bool.toNat_false]

theorem places_emitted_entering :
    (emitted (walk.entering place node state)).map Emission.place =
      if walk.emits node then [place] else [] := by
  have hlength : (written (walk.entering place node state)).length = (walk.emits node).toNat :=
    length_written_entering
  unfold emitted
  generalize written (walk.entering place node state) = tokens at hlength ⊢
  cases hemits : walk.emits node with
  | false =>
    obtain rfl : tokens = [] := by simpa [hemits] using hlength
    rfl
  | true =>
    obtain ⟨token, rfl⟩ : ∃ token, tokens = [token] := by
      simpa [hemits, List.length_eq_one_iff] using hlength
    rfl

/-! ### Where a walk emits -/

mutual

def emissionPlaces (walk : Walk) (place : Place) : Tree → List Place
  | .node label children =>
    (if walk.emits (.node label children) then [place] else []) ++
      if walk.part (.node label children) = .construct then
        walk.forestPlaces place 0 children
      else []

def forestPlaces (walk : Walk) (place : Place) (index : Nat) : List Tree → List Place
  | [] => []
  | tree :: rest =>
    walk.emissionPlaces (place ++ [index]) tree ++ walk.forestPlaces place (index + 1) rest

end

mutual

/-- Where tokens are emitted can be told without the state: what is declared changes tokens, not
their places. -/
theorem places_calls (place : Place) (tree : Tree) (state : State) :
    ((walk.visitor.calls place tree state).flatMap emitted).map Emission.place =
      walk.emissionPlaces place tree := by
  match tree with
  | .node label children =>
    rw [emissionPlaces]
    by_cases hpart : walk.part (.node label children) = .construct
    · have hsilent : ∀ call ∈ walk.visitor.calls place (.node label children) state,
          call.passage = .left → emitted call = [] := fun call hcall =>
        emitted_of_left (Visitor.performs_of_mem_calls hcall)
      rw [calls_of_construct hpart] at hsilent ⊢
      rw [List.flatMap_cons, List.flatMap_append, List.flatMap_singleton,
        hsilent ⟨place, _, .left, _, _⟩ (by simp) rfl, List.append_nil, List.map_append,
        places_emitted_entering, Tree.children, places_forestCalls place 0 children, if_pos hpart]
    · rw [calls_of_part_ne hpart, List.flatMap_singleton, places_emitted_entering, if_neg hpart,
        List.append_nil]

theorem places_forestCalls (place : Place) (index : Nat) (forest : List Tree) (state : State) :
    ((walk.visitor.forestCalls place index forest state).flatMap emitted).map Emission.place =
      walk.forestPlaces place index forest := by
  match forest with
  | [] => rw [Visitor.forestCalls, forestPlaces, List.flatMap_nil, List.map_nil]
  | tree :: rest =>
    rw [Visitor.forestCalls, forestPlaces, List.flatMap_append, List.map_append,
      places_calls (place ++ [index]) tree, places_forestCalls place (index + 1) rest]

end

/-- Where a walk emits can be read off the tree: it does not depend on what is declared. -/
theorem places_emissions (walk : Walk) (tree : Tree) :
    (walk.emissions tree).map Emission.place = walk.emissionPlaces [] tree :=
  places_calls [] tree .initial

end CanonicalTokens.Walk
