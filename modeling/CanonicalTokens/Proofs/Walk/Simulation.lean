import CanonicalTokens.Proofs.Names.Alike
import CanonicalTokens.Proofs.Walk.Emissions

/-!
# Two walks in step

A walk over another text sees other names. If names are told apart in the same way, under a renaming
that keeps different names different, the two walks stay in step: the open scopes of the second are
those of the first with the names renamed, and the tokens are the same, as long as the renaming
keeps every name that is emitted as it is. Comments in the second tree change nothing, since every
walk skips them.
-/

namespace CanonicalTokens

namespace OpenScopes

variable {relabel : String → String}

def rename (relabel : String → String) (stack : OpenScopes) : OpenScopes where
  innermost := stack.innermost.map relabel
  enclosing := stack.enclosing.map (List.map relabel)
  tally := stack.tally

theorem rename_push (stack : OpenScopes) :
    (stack.rename relabel).push = stack.push.rename relabel := by
  simp [OpenScopes.rename, push, depth]

theorem rename_pop (stack : OpenScopes) :
    (stack.rename relabel).pop = stack.pop.rename relabel := by
  unfold OpenScopes.rename pop
  cases stack.enclosing <;> rfl

theorem contains_map (hinjective : Function.Injective relabel) (names : List String)
    (name : String) : (names.map relabel).contains (relabel name) = names.contains name := by
  simp [hinjective.eq_iff]

theorem rename_declare (hinjective : Function.Injective relabel) (stack : OpenScopes)
    (name : String) :
    (stack.rename relabel).declare (relabel name) = (stack.declare name).rename relabel := by
  unfold declare
  rw [OpenScopes.rename, contains_map hinjective]
  split <;> rfl

theorem rename_declareAll (hinjective : Function.Injective relabel) (stack : OpenScopes)
    (names : List String) :
    (stack.rename relabel).declareAll (names.map relabel) =
      (stack.declareAll names).rename relabel := by
  unfold declareAll
  induction names generalizing stack with
  | nil => rfl
  | cons name names ih =>
    rw [List.map_cons, List.foldl_cons, List.foldl_cons, rename_declare hinjective, ih]

theorem isDeclared_rename (hinjective : Function.Injective relabel) (stack : OpenScopes)
    (name : String) : (stack.rename relabel).isDeclared (relabel name) = stack.isDeclared name := by
  unfold isDeclared
  rw [OpenScopes.rename, contains_map hinjective, List.any_map]
  simp only [Function.comp_def, contains_map hinjective]

end OpenScopes

theorem Rules.declaredNames_eq_map {rules : Rules} {source other : Source} {tree image : Tree}
    {relabel : String → String}
    (hbound : List.Forall₂ (fun name found => found.text other = relabel (name.text source))
      (rules.bound tree) (rules.bound image)) :
    rules.declaredNames other image = (rules.declaredNames source tree).map relabel := by
  unfold declaredNames
  generalize rules.bound tree = names, rules.bound image = others at hbound
  induction hbound with
  | nil => rfl
  | cons htext _ ih => rw [List.map_cons, List.map_cons, List.map_cons, ih, htext]

namespace Walk

def State.rename (relabel : String → String) (state : State) : State :=
  ⟨state.scopes.rename relabel, state.tokens⟩

/-- A call for an identifier that emits the name as it is emits one that the relabel keeps. -/
def Keeps (walk : Walk) (relabel : String → String) (call : Call State) : Prop :=
  walk.part call.node = .identifier → ∀ name, written call = [.verbatim name] → relabel name = name

theorem part_eq_of_shape {walk other : Walk} {tree image : Tree}
    (hrules : other.rules = walk.rules) (hshape : image.label.shape = tree.label.shape) :
    other.part image = walk.part tree := by
  have hmissing : image.label.missing = tree.label.missing := congrArg (·.missing) hshape
  have hkind : image.label.kind = tree.label.kind := congrArg (·.kind) hshape
  have hnamed : image.label.named = tree.label.named := congrArg (·.named) hshape
  unfold part Tree.kind Tree.isNamed
  rw [hrules, hmissing, hkind, hnamed]

/-- The second walk does at every related node what the first does, under the relabel. -/
structure Simulates (walk other : Walk) (relabel : String → String)
    (related : Tree → Tree → Prop) : Prop where
  rules : other.rules = walk.rules
  options : other.options = walk.options
  injective : Function.Injective relabel
  empty : relabel "" = ""
  skipped : walk.rules.isSkipped "comment"
  shape : ∀ tree image, related tree image → image.label.shape = tree.label.shape
  children : ∀ tree image, related tree image → walk.part tree = .construct →
    Tree.Sprinkled related tree.children image.children
  leaf : ∀ tree image, related tree image → walk.part tree = .construct →
    image.isLeaf = tree.isLeaf
  leafText : ∀ tree image, related tree image → walk.part tree = .construct → tree.isLeaf →
    image.text other.source = tree.text walk.source
  names : ∀ tree image, related tree image → walk.part tree = .construct →
    walk.rules.declaredNames other.source image =
      (walk.rules.declaredNames walk.source tree).map relabel
  identifier : ∀ tree image, related tree image → walk.part tree = .identifier →
    image.text other.source = relabel (tree.text walk.source)
  literal : ∀ tree image rule, related tree image → walk.part tree = .literal rule →
    rule.resolve (image.text other.source) walk.options.distinguishNumbers =
      rule.resolve (tree.text walk.source) walk.options.distinguishNumbers

namespace Simulates

variable {walk other : Walk} {relabel : String → String} {related : Tree → Tree → Prop}
  (hsimulates : Simulates walk other relabel related) {tree image : Tree} {state : State}

include hsimulates

theorem part_eq (hrelated : related tree image) : other.part image = walk.part tree :=
  part_eq_of_shape hsimulates.rules (hsimulates.shape tree image hrelated)

theorem boundary_eq : other.boundary = walk.boundary := by
  rw [boundary, boundary, hsimulates.rules, hsimulates.options]

theorem bounds_eq (hrelated : related tree image) : other.bounds image = walk.bounds tree := by
  have hkind : image.kind = tree.kind :=
    congrArg (·.kind) (hsimulates.shape tree image hrelated)
  rw [bounds, bounds, hsimulates.boundary_eq, hkind]

/-- Entering a construct opens the same scope and declares the renamed names. -/
theorem openConstruct_rename (hrelated : related tree image)
    (hpart : walk.part tree = .construct) (scopes : OpenScopes) :
    other.openConstruct image (scopes.rename relabel) =
      (walk.openConstruct tree scopes).rename relabel := by
  have hopened :
      (if walk.bounds tree then (scopes.rename relabel).push else scopes.rename relabel) =
        (if walk.bounds tree then scopes.push else scopes).rename relabel := by
    split
    · exact OpenScopes.rename_push scopes
    · rfl
  rw [openConstruct, openConstruct, hsimulates.bounds_eq hrelated, hsimulates.rules,
    hsimulates.names tree image hrelated hpart, hopened,
    OpenScopes.rename_declareAll hsimulates.injective]

/-- Braces are anonymous and keep their texts, so they open and close scopes in both walks. -/
theorem passBrace_rename (hrelated : related tree image) (text : String) (scopes : OpenScopes) :
    other.passBrace image text (scopes.rename relabel) =
      (walk.passBrace tree text scopes).rename relabel := by
  have hnamed : image.isNamed = tree.isNamed :=
    congrArg (·.named) (hsimulates.shape tree image hrelated)
  unfold passBrace
  rw [hsimulates.boundary_eq, hnamed]
  cases walk.boundary with
  | constructs kinds => rfl
  | braces braces =>
    dsimp only
    split
    · rfl
    · split
      · exact OpenScopes.rename_push scopes
      · split
        · exact OpenScopes.rename_pop scopes
        · rfl

theorem emitText_rename (hrelated : related tree image) (hpart : walk.part tree = .construct)
    (hleaf : tree.isLeaf) :
    other.emitText image (state.rename relabel) = (walk.emitText tree state).rename relabel := by
  unfold emitText
  rw [hsimulates.leafText tree image hrelated hpart hleaf]
  dsimp only
  split
  · rfl
  · exact congrArg (fun scopes => State.mk scopes (state.tokens.push _))
      (hsimulates.passBrace_rename hrelated (tree.text walk.source) state.scopes)

/-- A renamed name is declared where the name is. If it is not, it is emitted as it is, and then it
has to be kept. -/
theorem emitName_rename {name : String}
    (hkept : ∀ token, (state.emitName name).tokens = state.tokens.push (.verbatim token) →
      relabel token = token) :
    (state.rename relabel).emitName (relabel name) = (state.emitName name).rename relabel := by
  by_cases hname : name = ""
  · rw [hname, hsimulates.empty]
    rfl
  -- A name without text emits nothing, so the renaming must not take the text from another name.
  have hrenamed : relabel name ≠ "" := by
    intro hempty
    exact hname (hsimulates.injective (hempty.trans hsimulates.empty.symm))
  rw [emitName_of_ne_empty hname] at hkept ⊢
  rw [emitName_of_ne_empty hrenamed]
  have hscopes : (state.rename relabel).scopes = state.scopes.rename relabel := rfl
  have htoken : nameToken (state.rename relabel).scopes (relabel name) =
      nameToken state.scopes name := by
    unfold nameToken at hkept ⊢
    rw [hscopes, OpenScopes.isDeclared_rename hsimulates.injective]
    split
    · rfl
    · rename_i hdeclared
      rw [if_neg hdeclared] at hkept
      rw [hkept name rfl]
  rw [htoken]
  rfl

/-- What the second walk does at a related node is what the first one does, under the relabel. -/
theorem enter_rename {place : Place} (hrelated : related tree image)
    (hkept : walk.Keeps relabel (walk.entering place tree state)) :
    other.enter image (state.rename relabel) =
      ((walk.enter tree state).1.rename relabel, (walk.enter tree state).2) := by
  have hpart := hsimulates.part_eq hrelated
  cases hcase : walk.part tree with
  | ignored =>
    rw [hcase] at hpart
    rw [enter, enter, hpart, hcase]
  | literal rule =>
    rw [hcase] at hpart
    rw [enter, enter, hpart, hcase]
    dsimp only
    rw [hsimulates.options, hsimulates.literal tree image rule hrelated hcase]
    rfl
  | identifier =>
    rw [hcase] at hpart
    rw [enter_of_identifier hpart, enter_of_identifier hcase,
      hsimulates.identifier tree image hrelated hcase, hsimulates.emitName_rename]
    intro token htoken
    refine hkept hcase token ?_
    rw [written, entering, enter_of_identifier hcase, htoken]
    simp
  | construct =>
    rw [hcase] at hpart
    have hopened : State.mk (other.openConstruct image (state.rename relabel).scopes)
        (state.rename relabel).tokens =
        (State.mk (walk.openConstruct tree state.scopes) state.tokens).rename relabel :=
      congrArg (State.mk · state.tokens)
        (hsimulates.openConstruct_rename hrelated hcase state.scopes)
    rw [enter_of_construct hpart, enter_of_construct hcase, hopened,
      hsimulates.leaf tree image hrelated hcase]
    dsimp only
    split
    · rename_i hleaf
      rw [hsimulates.emitText_rename hrelated hcase hleaf]
    · rfl

theorem leave_rename (hrelated : related tree image) :
    other.leave image (state.rename relabel) = (walk.leave tree state).rename relabel := by
  unfold leave
  rw [hsimulates.bounds_eq hrelated]
  split
  · exact congrArg (State.mk · state.tokens) (OpenScopes.rename_pop state.scopes)
  · rfl

theorem fold_comment {comment : Tree} (hcomment : comment.IsComment) (state : State) :
    other.visitor.fold comment state = state := by
  have hskipped : other.rules.isSkipped comment.kind := by
    rw [hsimulates.rules, hcomment.kind_eq, hsimulates.skipped]
  have hpart : other.part comment = .ignored := by simp [part, hskipped]
  have hpassed : other.part comment ≠ .construct := by simp [hpart]
  rw [fold_of_part_ne hpassed, enter, hpart]

/-- Comments in between are ignored, and related trees are walked one after the other. -/
theorem foldForest_rename {forest images : List Tree}
    (hforest : Tree.Sprinkled related forest images)
    (hfold : ∀ tree ∈ forest, ∀ image place state, related tree image →
      (∀ call ∈ walk.visitor.calls place tree state, walk.Keeps relabel call) →
      other.visitor.fold image (state.rename relabel) =
        (walk.visitor.fold tree state).rename relabel)
    {place : Place} {index : Nat} {state : State}
    (hkept : ∀ call ∈ walk.visitor.forestCalls place index forest state, walk.Keeps relabel call) :
    other.visitor.foldForest images (state.rename relabel) =
      (walk.visitor.foldForest forest state).rename relabel := by
  induction hforest generalizing index state with
  | nil => rw [Visitor.foldForest, Visitor.foldForest]
  | @cons tree image forest images hrelated _ ih =>
    rw [Visitor.forestCalls] at hkept
    rw [Visitor.foldForest, Visitor.foldForest,
      hfold tree List.mem_cons_self image (place ++ [index]) state hrelated
        fun call hmem => hkept call (List.mem_append_left _ hmem)]
    exact ih (fun tree hmem => hfold tree (List.mem_cons_of_mem _ hmem))
      fun call hmem => hkept call (List.mem_append_right _ hmem)
  | comment hcomment _ ih =>
    rw [Visitor.foldForest, hsimulates.fold_comment hcomment]
    exact ih hfold hkept

/-- The walks stay in step below related nodes, as long as the first emits names as they are only if
the renaming keeps them. -/
theorem fold_rename {place : Place} (hrelated : related tree image)
    (hkept : ∀ call ∈ walk.visitor.calls place tree state, walk.Keeps relabel call) :
    other.visitor.fold image (state.rename relabel) =
      (walk.visitor.fold tree state).rename relabel := by
  -- The state is left open: the siblings to the left of a tree have changed it.
  induction tree using Tree.children_induction generalizing image place state with
  | node label children ih =>
    have hpart := hsimulates.part_eq hrelated
    have hentering : walk.Keeps relabel (walk.entering place (.node label children) state) :=
      hkept _ entering_mem_calls_self
    by_cases hcase : walk.part (.node label children) = .construct
    · have hforest := hsimulates.children _ image hrelated hcase
      have hbelow : ∀ call ∈ walk.visitor.forestCalls place 0 children
          (walk.enter (.node label children) state).1, walk.Keeps relabel call := by
        intro call hmem
        apply hkept
        rw [calls_of_construct hcase]
        exact List.mem_cons_of_mem _ (List.mem_append_left _ hmem)
      have hfold := hsimulates.foldForest_rename hforest
        (fun child hchild image place state hsame hcalls => ih child hchild hsame hcalls) hbelow
      rw [fold_of_construct (hpart.trans hcase), fold_of_construct hcase,
        hsimulates.enter_rename hrelated hentering, hfold, hsimulates.leave_rename hrelated]
    · rw [fold_of_part_ne (hpart ▸ hcase), fold_of_part_ne hcase,
        hsimulates.enter_rename hrelated hentering]

end Simulates

/-- Walks in step give the same tokens and the same tally. -/
theorem Simulates.run_eq {walk other : Walk} {relabel : String → String}
    {related : Tree → Tree → Prop} (hsimulates : Simulates walk other relabel related)
    {tree image : Tree} (hrelated : related tree image)
    (hkept : ∀ call ∈ walk.visitor.calls [] tree .initial, walk.Keeps relabel call) :
    other.run image = walk.run tree := by
  have hinitial : State.initial.rename relabel = .initial := rfl
  have hfold := hsimulates.fold_rename hrelated hkept
  rw [hinitial] at hfold
  rw [run, run, Visitor.traverse_eq_fold, Visitor.traverse_eq_fold, hfold]
  rfl

end Walk

end CanonicalTokens
