import CanonicalTokens.Proofs.Scope.Levels
import CanonicalTokens.Proofs.Walk.Reached
import CanonicalTokens.Proofs.Walk.Visibility

/-!
# Where a declared name is known between braces

Where braces bound scopes, they count as they come, whatever they belong to and whether they match.
The depth of braces starts at one and never falls below it. A scope is known by its level, which is
the depth at which it was opened; it is closed as soon as the depth falls below its level. So a name
is known as long as the depth has not been lower than where the name was declared, and a name
declared at depth one is known for the rest of the walk.
-/

namespace CanonicalTokens

namespace Walk

variable {walk : Walk} {tree node : Tree} {place : Place} {state : State} {name : String}

/-! ### Depth -/

def isToken (walk : Walk) (text : String) (node : Tree) : Bool :=
  walk.part node = .construct && node.isLeaf && !node.isNamed && node.text walk.source = text

def depthBehind (walk : Walk) (depth : Nat) (node : Tree) : Nat :=
  if walk.isToken curlyBraces.opening node then depth + 1
  else if walk.isToken curlyBraces.closing node then max 1 (depth - 1)
  else depth

def reachedBefore (walk : Walk) (tree : Tree) (place : Place) : List (Place × Tree) :=
  (walk.reached [] tree).filter fun entry => entry.1 < place

def depthAfter (walk : Walk) (depth : Nat) (entries : List (Place × Tree)) : Nat :=
  entries.foldl (fun depth entry => walk.depthBehind depth entry.2) depth

def braceDepth (walk : Walk) (tree : Tree) (place : Place) : Nat :=
  walk.depthAfter 1 (walk.reachedBefore tree place)

/-- From one place to another, the depth of braces is never lower than at the first one. -/
def StaysWithin (walk : Walk) (tree : Tree) (declaration place : Place) : Prop :=
  ∀ between, declaration < between → between < place ∨ between = place →
    walk.braceDepth tree declaration ≤ walk.braceDepth tree between

theorem depthAfter_cons (depth : Nat) (entry : Place × Tree) (entries : List (Place × Tree)) :
    walk.depthAfter depth (entry :: entries) =
      walk.depthAfter (walk.depthBehind depth entry.2) entries := rfl

theorem depthBehind_pos {depth : Nat} (hdepth : 0 < depth) (node : Tree) :
    0 < walk.depthBehind depth node := by
  unfold depthBehind
  split
  · omega
  · split <;> omega

theorem depthAfter_pos {depth : Nat} (hdepth : 0 < depth) (entries : List (Place × Tree)) :
    0 < walk.depthAfter depth entries := by
  induction entries generalizing depth with
  | nil => exact hdepth
  | cons entry entries ih => exact ih (depthBehind_pos hdepth entry.2)

/-! ### The open scopes -/

def introduced (walk : Walk) (node : Tree) : List String :=
  if walk.part node = .construct then walk.rules.declaredNames walk.source node else []

/-- The open scopes behind a node, apart from what is done below it. -/
def scopesBehind (walk : Walk) (stack : OpenScopes) (node : Tree) : OpenScopes :=
  if walk.isToken curlyBraces.opening node then (stack.declareAll (walk.introduced node)).push
  else if walk.isToken curlyBraces.closing node then (stack.declareAll (walk.introduced node)).pop
  else stack.declareAll (walk.introduced node)

/-- The depth of the open scopes goes with the braces, whatever is declared. -/
theorem depth_scopesBehind (stack : OpenScopes) (node : Tree) :
    (walk.scopesBehind stack node).depth = walk.depthBehind stack.depth node := by
  have hdeclared : (stack.declareAll (walk.introduced node)).depth = stack.depth := by
    rw [OpenScopes.depth, OpenScopes.depth, OpenScopes.enclosing_declareAll]
  unfold scopesBehind depthBehind
  split
  · rw [OpenScopes.depth_push, hdeclared]
  · split
    · rw [OpenScopes.depth_pop, hdeclared]
    · exact hdeclared

/-- Behind a node the scopes hold the names from before and those introduced by the node, down to
the depth behind it. -/
theorem hasAt_scopesBehind {stack : OpenScopes} {level : Nat} :
    (walk.scopesBehind stack node).HasAt level name ↔
      (stack.HasAt level name ∨ level + 1 = stack.depth ∧ name ∈ walk.introduced node) ∧
        level < walk.depthBehind stack.depth node := by
  rw [← OpenScopes.hasAt_declareAll, ← depth_scopesBehind]
  have hkept : ∀ kept : OpenScopes,
      (kept.HasAt level name ↔ (stack.declareAll (walk.introduced node)).HasAt level name) →
      (kept.HasAt level name ↔
        (stack.declareAll (walk.introduced node)).HasAt level name ∧ level < kept.depth) := by
    intro kept hsame
    rw [← hsame]
    exact ⟨fun hname => ⟨hname, hname.lt_depth⟩, And.left⟩
  unfold scopesBehind
  split
  · exact hkept _ OpenScopes.hasAt_push
  · split
    · exact OpenScopes.hasAt_pop
    · exact hkept _ Iff.rfl

theorem depth_foldl_scopesBehind (stack : OpenScopes) (entries : List (Place × Tree)) :
    (entries.foldl (fun stack entry => walk.scopesBehind stack entry.2) stack).depth =
      walk.depthAfter stack.depth entries := by
  induction entries generalizing stack with
  | nil => rfl
  | cons entry entries ih => rw [List.foldl_cons, ih, depth_scopesBehind, depthAfter_cons]

/-- A name is known behind some nodes if it was known before at a level that the depth has not gone
below since, or if one of the nodes declares it and the depth has not gone below where it did. -/
theorem isDeclared_foldl_iff {stack : OpenScopes} {entries : List (Place × Tree)} :
    (entries.foldl (fun stack entry => walk.scopesBehind stack entry.2) stack).isDeclared name ↔
      (∃ level, stack.HasAt level name ∧
        ∀ initial, initial <+: entries → level < walk.depthAfter stack.depth initial) ∨
      ∃ before entry after, entries = before ++ entry :: after ∧ name ∈ walk.introduced entry.2 ∧
        ∀ initial, initial <+: after →
          walk.depthAfter stack.depth before ≤
            walk.depthAfter stack.depth (before ++ entry :: initial) := by
  have hbehind : ∀ (stack : OpenScopes) (entry : Place × Tree) (level : Nat) (name : String),
      (walk.scopesBehind stack entry.2).HasAt level name ↔
        (stack.HasAt level name ∨ level + 1 = stack.depth ∧ name ∈ walk.introduced entry.2) ∧
          level < (walk.scopesBehind stack entry.2).depth := by
    intro stack entry level name
    rw [hasAt_scopesBehind, depth_scopesBehind]
  rw [OpenScopes.isDeclared_iff_exists_hasAt]
  simp only [OpenScopes.hasAt_foldl_iff hbehind, depth_foldl_scopesBehind]
  constructor
  · rintro ⟨level, hname | ⟨before, entry, after, hentries, hname, hdepth, hkept⟩⟩
    · exact Or.inl ⟨level, hname⟩
    · refine Or.inr ⟨before, entry, after, hentries, hname, ?_⟩
      intro initial hinitial
      rw [hdepth]
      exact hkept initial hinitial
  · rintro (⟨level, hname⟩ | ⟨before, entry, after, hentries, hname, hkept⟩)
    · exact ⟨level, Or.inl hname⟩
    · have hpos := walk.depthAfter_pos stack.depth_pos before
      refine ⟨walk.depthAfter stack.depth before - 1,
        Or.inr ⟨before, entry, after, hentries, hname, by omega, ?_⟩⟩
      intro initial hinitial
      have hle := hkept initial hinitial
      omega

/-! ### Braces and the walk -/

theorem isToken_iff (hpart : walk.part node = .construct) (hleaf : node.isLeaf)
    (hnamed : ¬ node.isNamed) {text : String} :
    walk.isToken text node ↔ node.text walk.source = text := by
  simp [isToken, hpart, hleaf, hnamed]

theorem passBrace_eq {braces : Braces} (hboundary : walk.boundary = .braces braces)
    (hpart : walk.part node = .construct) (hleaf : node.isLeaf) (stack : OpenScopes) :
    walk.passBrace node (node.text walk.source) stack =
      if walk.isToken braces.opening node then stack.push
      else if walk.isToken braces.closing node then stack.pop
      else stack := by
  rw [passBrace, hboundary]
  by_cases hnamed : node.isNamed
  · simp [isToken, hnamed]
  · simp only [isToken_iff hpart hleaf hnamed, if_neg hnamed]

theorem isToken_eq_false_of_blank {text : String} (htext : ¬ Text.allBlank text.toList)
    (hblank : Text.allBlank (node.text walk.source).toList) : walk.isToken text node = false := by
  have hne : node.text walk.source ≠ text := by
    rintro rfl
    exact htext hblank
  simp [isToken, hne]

/-- Where braces bound the scopes, entering a node does to them what its brace and its names say. -/
theorem scopes_enter_of_braces (hboundary : walk.boundary = .braces curlyBraces) :
    (walk.enter node state).1.scopes = walk.scopesBehind state.scopes node := by
  have hbounds : walk.bounds node = false := by rw [bounds, hboundary]
  by_cases hpart : walk.part node = .construct
  · have hopened : walk.openConstruct node state.scopes =
        state.scopes.declareAll (walk.introduced node) := by
      rw [openConstruct, introduced, if_pos hpart, hbounds]
      rfl
    rw [enter_of_construct hpart, hopened, scopesBehind]
    by_cases hleaf : node.isLeaf
    · simp only [hleaf, if_true, emitText]
      by_cases hblank : Text.allBlank (node.text walk.source).toList
      · rw [isToken_eq_false_of_blank (by decide) hblank,
          isToken_eq_false_of_blank (by decide) hblank, if_pos hblank]
        rfl
      · rw [if_neg hblank]
        exact passBrace_eq hboundary hpart hleaf _
    · simp [hleaf, isToken]
  · rw [scopes_enter_of_passed hpart, scopesBehind]
    simp [isToken, introduced, hpart, OpenScopes.declareAll]

theorem leave_of_braces (hboundary : walk.boundary = .braces curlyBraces) :
    walk.leave node state = state := by
  have hbounds : walk.bounds node = false := by rw [bounds, hboundary]
  simp [leave, hbounds]

mutual

/-- Between braces nothing is closed on the way up: a walk is one pass over the nodes in order. -/
theorem scopes_fold_of_braces (hboundary : walk.boundary = .braces curlyBraces) (base : Place)
    (tree : Tree) (state : State) :
    (walk.visitor.fold tree state).scopes =
      (walk.reached base tree).foldl (fun stack entry => walk.scopesBehind stack entry.2)
        state.scopes := by
  match tree with
  | .node label children =>
    by_cases hpart : walk.part (.node label children) = .construct
    · rw [fold_of_construct hpart, leave_of_braces hboundary, Tree.children,
        reached_of_construct hpart, List.foldl_cons, ← scopes_enter_of_braces hboundary]
      exact scopes_foldForest_of_braces hboundary base 0 children _
    · rw [fold_of_part_ne hpart, reached_of_part_ne hpart, scopes_enter_of_braces hboundary]
      rfl

/-- Leaving a node does nothing here, so the scopes behind a forest come from the nodes reached in
it, one after the other. -/
theorem scopes_foldForest_of_braces (hboundary : walk.boundary = .braces curlyBraces)
    (base : Place) (start : Nat) (forest : List Tree) (state : State) :
    (walk.visitor.foldForest forest state).scopes =
      (walk.forestReached base start forest).foldl
        (fun stack entry => walk.scopesBehind stack entry.2) state.scopes := by
  match forest with
  | [] =>
    rw [Visitor.foldForest, forestReached]
    rfl
  | tree :: rest =>
    rw [Visitor.foldForest, forestReached, List.foldl_append,
      ← scopes_fold_of_braces hboundary (base ++ [start]) tree state]
    exact scopes_foldForest_of_braces hboundary base (start + 1) rest _

end

/-- When the walk comes to a node, the scopes come from the nodes reached before it. -/
theorem exists_reached_eq_append (hboundary : walk.boundary = .braces curlyBraces) (base : Place)
    (hvisited : walk.Visited tree place node) :
    ∃ before after, walk.reached base tree = before ++ (base ++ place, node) :: after ∧
      (walk.arrival tree state place).scopes =
        before.foldl (fun stack entry => walk.scopesBehind stack entry.2) state.scopes := by
  induction place generalizing base tree state with
  | nil =>
    obtain rfl := visited_nil_iff.mp hvisited
    rw [List.append_nil, arrival]
    cases tree
    exact ⟨[], _, by rw [reached, List.nil_append], rfl⟩
  | cons index place ih =>
    obtain ⟨hpart, child, hchild, hbelow⟩ := visited_cons_iff.mp hvisited
    obtain ⟨before, after, hreached, harrival⟩ := @ih child
      (walk.visitor.foldForest (tree.children.take index) (walk.enter tree state).1)
      (base ++ [index]) hbelow
    refine ⟨(base, tree) :: (walk.forestReached base 0 (tree.children.take index) ++ before),
      after ++ walk.forestReached base (index + 1) (tree.children.drop (index + 1)), ?_, ?_⟩
    · rw [reached_of_construct hpart, forestReached_eq_append 0 hchild, Nat.zero_add, hreached]
      simp
    · rw [arrival_cons hchild, harrival, scopes_foldForest_of_braces hboundary base 0,
        scopes_enter_of_braces hboundary, List.foldl_cons, List.foldl_append]

/-! ### Places in between -/

theorem filter_before_initial (place : Place) {entries : List (Place × Tree)}
    (hordered : entries.Pairwise fun first second => first.1 < second.1) :
    entries.filter (fun entry => entry.1 < place) <+: entries := by
  induction entries with
  | nil => exact List.prefix_refl _
  | cons entry entries ih =>
    obtain ⟨hlater, hrest⟩ := List.pairwise_cons.mp hordered
    by_cases hbefore : entry.1 < place
    · rw [List.filter_cons_of_pos (by simpa using hbefore)]
      exact List.cons_prefix_cons.mpr ⟨rfl, ih hrest⟩
    · have hnone : entries.filter (fun entry => entry.1 < place) = [] := by
        rw [List.filter_eq_nil_iff]
        intro other hother
        have hlt := hlater other hother
        simpa using fun hbehind => hbefore (List.lt_trans hlt hbehind)
      rw [List.filter_cons_of_neg (by simpa using hbefore), hnone]
      exact List.nil_prefix

/-- The nodes are reached in document order, so those before a place are a front part of them. -/
theorem reachedBefore_of_eq_append {before after : List (Place × Tree)} {entry : Place × Tree}
    (hreached : walk.reached [] tree = before ++ entry :: after) :
    walk.reachedBefore tree entry.1 = before := by
  have hordered := walk.pairwise_reached [] tree
  rw [hreached, List.pairwise_append, List.pairwise_cons] at hordered
  obtain ⟨-, ⟨hlater, -⟩, hearlier⟩ := hordered
  have hbefore : before.filter (fun other => other.1 < entry.1) = before := by
    rw [List.filter_eq_self]
    intro other hother
    simpa using hearlier other hother entry List.mem_cons_self
  have hafter : (entry :: after).filter (fun other => other.1 < entry.1) = [] := by
    rw [List.filter_eq_nil_iff]
    intro other hother
    rw [decide_eq_true_eq]
    rcases List.mem_cons.mp hother with rfl | hother
    · exact List.lt_irrefl other.1
    · exact List.lt_asymm (hlater other hother)
  rw [reachedBefore, hreached, List.filter_append, hbefore, hafter, List.append_nil]

theorem reachedBefore_of_lt_or_eq {between : Place} (hle : between < place ∨ between = place) :
    walk.reachedBefore tree between =
      (walk.reachedBefore tree place).filter fun entry => entry.1 < between := by
  unfold reachedBefore
  rw [List.filter_filter]
  apply List.filter_congr
  intro entry _
  rcases hle with hlt | rfl
  · have hboth : entry.1 < between → entry.1 < place := fun hbefore => List.lt_trans hbefore hlt
    simpa using hboth
  · simp

theorem declares_of_mem_introduced {entry : Place × Tree} (hmem : entry ∈ walk.reached [] tree)
    (hname : name ∈ walk.introduced entry.2) : walk.Declares tree entry.1 name := by
  have hvisited : walk.Visited tree entry.1 entry.2 := mem_reached_iff.mp hmem
  unfold introduced at hname
  split at hname
  · rename_i hpart
    exact ⟨entry.2, ⟨hvisited, hpart⟩, hname⟩
  · cases hname

/-- In the order of the nodes, the places in between are where an initial part of what stands
between two nodes has been passed. -/
theorem staysWithin_iff {front back after : List (Place × Tree)} {entry target : Place × Tree}
    (hreached : walk.reached [] tree = front ++ entry :: (back ++ target :: after)) :
    walk.StaysWithin tree entry.1 target.1 ↔
      ∀ initial, initial <+: back →
        walk.depthAfter 1 front ≤ walk.depthAfter 1 (front ++ entry :: initial) := by
  have hfirst : walk.braceDepth tree entry.1 = walk.depthAfter 1 front := by
    rw [braceDepth, reachedBefore_of_eq_append hreached]
  have hsplit : walk.reached [] tree = (front ++ entry :: back) ++ target :: after := by
    simp [hreached]
  have htarget := reachedBefore_of_eq_append hsplit
  have hordered := walk.pairwise_reached [] tree
  rw [hreached, List.pairwise_append, List.pairwise_cons, List.pairwise_append,
    List.pairwise_cons] at hordered
  obtain ⟨-, ⟨hlater, hback, -, hbefore⟩, hearlier⟩ := hordered
  unfold StaysWithin
  rw [hfirst]
  constructor
  · rintro hstays initial ⟨rest, rfl⟩
    -- What follows the initial part begins at a place in between, or at the target itself.
    obtain ⟨between, hlt, hle, hinitial⟩ : ∃ between, entry.1 < between ∧
        (between < target.1 ∨ between = target.1) ∧
        walk.reachedBefore tree between = front ++ entry :: initial := by
      cases rest with
      | nil =>
        rw [List.append_nil] at htarget
        exact ⟨target.1, hlater target (by simp), Or.inr rfl, htarget⟩
      | cons next rest =>
        have hsplit : walk.reached [] tree =
            (front ++ entry :: initial) ++ next :: (rest ++ target :: after) := by simp [hreached]
        have hnext := reachedBefore_of_eq_append hsplit
        exact ⟨next.1, hlater next (by simp),
          Or.inl (hbefore next (by simp) target List.mem_cons_self), hnext⟩
    have hlow := hstays between hlt hle
    rwa [braceDepth, hinitial] at hlow
  · intro hkept between hlt hle
    have hfront : front.filter (fun other => other.1 < between) = front := by
      rw [List.filter_eq_self]
      intro other hother
      simpa using List.lt_trans (hearlier other hother entry List.mem_cons_self) hlt
    have hbetween : walk.reachedBefore tree between =
        front ++ entry :: back.filter (fun other => other.1 < between) := by
      rw [reachedBefore_of_lt_or_eq hle, htarget, List.filter_append, hfront,
        List.filter_cons_of_pos (by simpa using hlt)]
    rw [braceDepth, hbetween]
    exact hkept _ (filter_before_initial between hback)

/-- A name is declared at a node if it was declared before and the depth of braces did not fall
below that of its declaration since. -/
theorem isDeclared_arrival_iff_of_braces (hboundary : walk.boundary = .braces curlyBraces)
    (hvisited : walk.Visited tree place node) :
    (walk.arrival tree .initial place).scopes.isDeclared name ↔
      ∃ declaration, walk.Declares tree declaration name ∧ declaration < place ∧
        walk.StaysWithin tree declaration place := by
  obtain ⟨before, after, hreached, harrival⟩ :=
    @exists_reached_eq_append walk tree node place .initial hboundary [] hvisited
  rw [List.nil_append] at hreached
  have hbefore : walk.reachedBefore tree place = before := reachedBefore_of_eq_append hreached
  have hnone : ∀ level, ¬ State.initial.scopes.HasAt level name := by
    intro level hname
    have hdeclared := OpenScopes.isDeclared_iff_exists_hasAt.mpr ⟨level, hname⟩
    simp [State.initial] at hdeclared
  rw [harrival, isDeclared_foldl_iff]
  constructor
  · rintro (⟨level, hname, -⟩ | ⟨front, entry, back, rfl, hname, hkept⟩)
    · exact absurd hname (hnone level)
    have hmem : entry ∈ walk.reachedBefore tree place := by simp [hbefore]
    obtain ⟨hentry, hlt⟩ := List.mem_filter.mp hmem
    rw [List.append_assoc] at hreached
    exact ⟨entry.1, declares_of_mem_introduced hentry hname, of_decide_eq_true hlt,
      (staysWithin_iff hreached).mpr hkept⟩
  · rintro ⟨declaration, ⟨holder, hentered, hname⟩, hlt, hstays⟩
    have hmem : (declaration, holder) ∈ before := by
      rw [← hbefore]
      exact List.mem_filter.mpr ⟨mem_reached_iff.mpr hentered.toVisited, by simpa using hlt⟩
    obtain ⟨front, back, rfl⟩ := List.append_of_mem hmem
    rw [List.append_assoc] at hreached
    refine Or.inr ⟨front, (declaration, holder), back, rfl, ?_, ?_⟩
    · rwa [introduced, if_pos hentered.construct]
    · exact (staysWithin_iff hreached).mp hstays

theorem staysWithin_of_depth_one {declaration : Place}
    (hdepth : walk.braceDepth tree declaration = 1) : walk.StaysWithin tree declaration place := by
  intro between _ _
  rw [hdepth]
  exact depthAfter_pos Nat.one_pos _

/-- Every identifier that the walk comes to between braces emits one token. It is the placeholder
for variables if an earlier construct declares the name and the depth of braces has not been lower
since than it was there; otherwise the name stays as it is. What is declared at depth one is known
from there on, however many braces close. -/
theorem emission_between_braces
    (hrules : walk.rules = Language.csharp.rules ∨ walk.rules = Language.go.rules)
    (hlegacy : walk.options.boundaries = .legacy) (hvisited : walk.Visited tree place node)
    (hpart : walk.part node = .identifier) (htext : node.text walk.source ≠ "") :
    (walk.emissions tree).map Emission.token = (walk.run tree).tokens ∧
      ∃ token, (walk.emissions tree).filter (fun emission => emission.place = place) =
          [⟨place, token⟩] ∧
        (token = .placeholder .variableName ↔
          ∃ declaration, walk.Declares tree declaration (node.text walk.source) ∧
            declaration < place ∧ walk.StaysWithin tree declaration place) ∧
        (token ≠ .placeholder .variableName → token = .verbatim (node.text walk.source)) ∧
        (∀ declaration, walk.Declares tree declaration (node.text walk.source) →
          declaration < place → walk.braceDepth tree declaration = 1 →
          token = .placeholder .variableName) := by
  have hboundary : walk.boundary = .braces curlyBraces := by
    rcases hrules with hrules | hrules <;> rw [boundary, hrules, hlegacy] <;> rfl
  have hvariable : nameToken (walk.arrival tree .initial place).scopes (node.text walk.source) =
      .placeholder .variableName ↔
        ∃ declaration, walk.Declares tree declaration (node.text walk.source) ∧
          declaration < place ∧ walk.StaysWithin tree declaration place := by
    rw [nameToken_eq_variable_iff, isDeclared_arrival_iff_of_braces hboundary hvisited]
  refine ⟨tokens_emissions walk tree, _, emissions_of_identifier hvisited hpart htext, hvariable,
    ?_, ?_⟩
  · intro hverbatim
    rw [nameToken, if_neg fun hdeclared => hverbatim (nameToken_eq_variable_iff.mpr hdeclared)]
  · intro declaration hdeclares hlt hdepth
    exact hvariable.mpr ⟨declaration, hdeclares, hlt, staysWithin_of_depth_one hdepth⟩

/-- The tree of a text in which a brace is closed before and behind a declaration. -/
def surplusTree : Tree :=
  .node ⟨"source_file", true, false, false, true, 0, 11, none⟩ [
    .node (.sound "\x7d" false 0 1 none) [],
    .node (.sound "var_declaration" true 2 7 none) [
      .node (.sound "var" false 2 5 none) [],
      .node (.sound "var_spec" true 6 7 none) [
        .node (.sound "identifier" true 6 7 (some "name")) []]],
    .node (.sound "\x7d" false 8 9 none) [],
    .node (.sound "identifier" true 10 11 none) []]

def surplusWalk : Walk :=
  ⟨.ofString "\x7d var x \x7d x", Language.go.rules, .standard⟩

/-- Braces that close nothing leave the depth as it is, so the name is still known behind them. -/
theorem emission_behind_surplus_brace :
    surplusWalk.rules = Language.go.rules ∧ surplusWalk.options.boundaries = .legacy ∧
      surplusWalk.Visited surplusTree [3] (.node (.sound "identifier" true 10 11 none) []) ∧
      (surplusWalk.emissions surplusTree).filter (fun emission => emission.place = [3]) =
        [⟨[3], .placeholder .variableName⟩] := by
  have hvisited : surplusWalk.Visited surplusTree [3]
      (.node (.sound "identifier" true 10 11 none) []) :=
    visited_cons_iff.mpr ⟨by decide, _, rfl, visited_nil_iff.mpr rfl⟩
  have htext : Tree.text (.node (.sound "identifier" true 10 11 none) []) surplusWalk.source =
      "x" := by decide
  have hdeclares : surplusWalk.Declares surplusTree [1, 1] "x" := by
    refine declares_cons_iff.mpr ⟨by decide, _, rfl, ?_⟩
    exact declares_cons_iff.mpr ⟨by decide, _, rfl, declares_nil_iff.mpr (by decide)⟩
  obtain ⟨-, token, hemissions, -, -, hroot⟩ := emission_between_braces (Or.inr rfl) rfl hvisited
    (by decide) (by simp [htext])
  rw [htext] at hroot
  rw [hroot [1, 1] hdeclares (by decide) (by decide)] at hemissions
  exact ⟨rfl, rfl, hvisited, hemissions⟩

end Walk

end CanonicalTokens
