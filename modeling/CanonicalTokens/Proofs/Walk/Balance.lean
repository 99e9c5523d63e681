import CanonicalTokens.Proofs.Scope.Account
import CanonicalTokens.Proofs.Walk.History
import CanonicalTokens.Proofs.Walk.Reached
import CanonicalTokens.TokenCheck
import Mathlib.Data.List.Basic

/-!
# Two ways to count braces

Whether braces are balanced is counted twice: by a check on the tokens, which ends at the first
closer that comes while none is open, and by the stack of scopes, which refuses such a closer and
goes on counting. After a refused closer a surplus of openers may make the totals equal again, so
the totals alone do not decide. Both counts accept a sequence if and only if no initial part of it
has more closers than openers and the totals are equal.

Where braces bound scopes, the openings and closings in the history of a walk are the braces among
its tokens, in the same order, as long as no name and no literal text looks like a brace.
-/

namespace CanonicalTokens

/-! ### Brackets among tokens -/

namespace TokenCheck

variable {opening closing : String} {tokens : List String} {depth left : Nat}

theorem forall_prefix_cons_iff {Item : Type} {first : Item} {rest : List Item}
    {property : List Item → Prop} :
    (∀ part, part <+: first :: rest → property part) ↔
      property [] ∧ ∀ part, part <+: rest → property (first :: part) := by
  constructor
  · intro hall
    exact ⟨hall [] List.nil_prefix,
      fun part hpart => hall (first :: part) (List.cons_prefix_cons.mpr ⟨rfl, hpart⟩)⟩
  · rintro ⟨hnil, hcons⟩ part hpart
    rcases List.prefix_cons_iff.mp hpart with rfl | ⟨further, rfl, hfurther⟩
    · exact hnil
    · exact hcons further hfurther

/-- The count ends with a number if no initial part has more closers than there are openers in it
and before it, and this number is what the openers are ahead by. -/
theorem unclosed?_eq_some_iff (hne : opening ≠ closing) :
    unclosed? opening closing depth tokens = some left ↔
      (∀ part, part <+: tokens → part.count closing ≤ depth + part.count opening) ∧
        depth + tokens.count opening = left + tokens.count closing := by
  induction tokens generalizing depth with
  | nil =>
    rw [unclosed?, Option.some.injEq]
    simp
  | cons token rest ih =>
    rw [forall_prefix_cons_iff, unclosed?.eq_def]
    dsimp only
    by_cases hopening : token = opening
    · obtain rfl := hopening
      rw [if_pos rfl, ih]
      simp only [List.count_cons_self, List.count_cons_of_ne hne, List.count_nil, Nat.zero_le,
        true_and, Nat.add_assoc, Nat.add_comm 1]
    · rw [if_neg hopening]
      by_cases hclosing : token = closing
      · obtain rfl := hclosing
        rw [if_pos rfl]
        simp only [List.count_cons_self, List.count_cons_of_ne hopening, List.count_nil,
          Nat.zero_le, true_and]
        cases depth with
        | zero =>
          -- The closer alone is an initial part with more closers than openers.
          simp only [reduceCtorEq, false_iff, not_and]
          intro hprefixes
          have hfirst := hprefixes [] List.nil_prefix
          simp at hfirst
        | succ outer =>
          dsimp only
          rw [ih]
          apply and_congr
          · apply forall₂_congr
            intro part _
            omega
          · omega
      · rw [if_neg hclosing, ih]
        simp only [List.count_cons_of_ne hopening, List.count_cons_of_ne hclosing, List.count_nil,
          Nat.zero_le, true_and]

/-- The check succeeds if every opener has its closer and no closer comes too early. -/
theorem runAll_balanced_iff (hne : opening ≠ closing) :
    (runAll tokens [.balanced opening closing]).2 = none ↔
      (∀ part, part <+: tokens → part.count closing ≤ part.count opening) ∧
        tokens.count opening = tokens.count closing := by
  have hcount : (runAll tokens [.balanced opening closing]).2 = none ↔
      unclosed? opening closing 0 tokens = some 0 := by
    rw [runAll, run, failure?]
    cases unclosed? opening closing 0 tokens with
    | none => simp
    | some left =>
      dsimp only [compareCounts]
      by_cases hleft : left = 0 <;> simp [hleft, run]
  simp only [hcount, unclosed?_eq_some_iff hne, Nat.zero_add]

end TokenCheck

/-! ### Brackets in a history -/

def ScopeStep.isBracket : ScopeStep → Bool
  | push => true
  | pop => true
  | _ => false

def bracketStep? (opening closing token : String) : Option ScopeStep :=
  if token = opening then some .push
  else if token = closing then some .pop
  else none

theorem bracketStep?_eq_push_iff {opening closing token : String} :
    bracketStep? opening closing token = some .push ↔ token = opening := by
  unfold bracketStep?
  split
  · simp_all
  · split <;> simp_all

theorem bracketStep?_eq_pop_iff {opening closing token : String} (hne : opening ≠ closing) :
    bracketStep? opening closing token = some .pop ↔ token = closing := by
  unfold bracketStep?
  split
  · simp_all
  · split <;> simp_all

theorem bracketStep?_eq_none {opening closing token : String}
    (htoken : ¬ (token = opening ∨ token = closing)) :
    bracketStep? opening closing token = none := by
  rw [not_or] at htoken
  rw [bracketStep?, if_neg htoken.1, if_neg htoken.2]

theorem bracketSteps_singleton (opening closing token : String) :
    [token].filterMap (bracketStep? opening closing) =
      if token = opening then [.push] else if token = closing then [.pop] else [] := by
  unfold bracketStep?
  rw [List.filterMap_cons]
  split <;> split <;> simp_all

namespace OpenScopes

/-- Whether steps are balanced can be told from the items they are read off, however many items give
no step. -/
theorem isBalanced_replay_filterMap_iff {Item : Type} (step? : Item → Option ScopeStep)
    (items : List Item) :
    (replay (items.filterMap step?)).tally.isBalanced ↔
      (∀ part, part <+: items →
        part.countP (fun item => step? item == some .pop) ≤
          part.countP (fun item => step? item == some .push)) ∧
        items.countP (fun item => step? item == some .push) =
          items.countP (fun item => step? item == some .pop) := by
  rw [isBalanced_replay_iff, List.count_filterMap, List.count_filterMap]
  apply and_congr_left'
  constructor
  · intro hall part hpart
    have hcounts := hall (part.filterMap step?) (hpart.filterMap step?)
    rwa [List.count_filterMap, List.count_filterMap] at hcounts
  · intro hall behind hbehind
    obtain ⟨part, hpart, rfl⟩ := List.prefix_filterMap_iff.mp hbehind
    rw [List.count_filterMap, List.count_filterMap]
    exact hall part hpart

/-- Only openings and closings matter for balance. -/
theorem isBalanced_replay_filter_iff (history : List ScopeStep) :
    (replay (history.filter ScopeStep.isBracket)).tally.isBalanced ↔
      (replay history).tally.isBalanced := by
  have hpush : (fun step => Option.guard ScopeStep.isBracket step == some .push) =
      (· == ScopeStep.push) := by
    funext step
    cases step <;> rfl
  have hpop : (fun step => Option.guard ScopeStep.isBracket step == some .pop) =
      (· == ScopeStep.pop) := by
    funext step
    cases step <;> rfl
  rw [← List.filterMap_eq_filter, isBalanced_replay_filterMap_iff, isBalanced_replay_iff]
  simp only [hpush, hpop, List.count]

/-- Tokens are balanced if no front part closes more brackets than it opens, and all of them close
as many. -/
theorem isBalanced_replay_tokens_iff {opening closing : String} (hne : opening ≠ closing)
    (tokens : List String) :
    (replay (tokens.filterMap (bracketStep? opening closing))).tally.isBalanced ↔
      (∀ part, part <+: tokens → part.count closing ≤ part.count opening) ∧
        tokens.count opening = tokens.count closing := by
  have hpush : (fun token => bracketStep? opening closing token == some .push) =
      (· == opening) := by
    funext token
    rw [Bool.eq_iff_iff, beq_iff_eq, beq_iff_eq, bracketStep?_eq_push_iff]
  have hpop : (fun token => bracketStep? opening closing token == some .pop) =
      (· == closing) := by
    funext token
    rw [Bool.eq_iff_iff, beq_iff_eq, beq_iff_eq, bracketStep?_eq_pop_iff hne]
  rw [isBalanced_replay_filterMap_iff]
  simp only [hpush, hpop, List.count]

end OpenScopes

/-! ### Braces of a walk -/

namespace Walk

variable {walk : Walk} {tree node : Tree} {call : Call State}

/-- What is emitted with the text of a brace comes from an anonymous node: no name and no named leaf
that is emitted as it is has this text. -/
def BracesAreTokens (walk : Walk) (tree : Tree) : Prop :=
  ∀ emission ∈ walk.emissions tree,
    emission.token.text = curlyBraces.opening ∨ emission.token.text = curlyBraces.closing →
      ∃ node, tree.at? emission.place = some node ∧ ¬ node.isNamed

/-- Where braces bound the scopes, the only scopes that open and close at a node are those of
braces. -/
theorem filter_entrySteps (hboundary : walk.boundary = .braces curlyBraces) (node : Tree) :
    (walk.entrySteps node).filter ScopeStep.isBracket = walk.braceSteps node := by
  have hbounds : walk.bounds node = false := by rw [bounds, hboundary]
  have hconstruct : (walk.constructSteps node).filter ScopeStep.isBracket = [] := by
    unfold constructSteps
    split
    · rw [hbounds, if_neg Bool.false_ne_true, List.nil_append, List.filter_eq_nil_iff]
      intro step hstep
      obtain ⟨name, -, rfl⟩ := List.mem_map.mp hstep
      exact Bool.false_ne_true
    · rfl
  have hbraces : (walk.braceSteps node).filter ScopeStep.isBracket = walk.braceSteps node := by
    fun_cases walk.braceSteps node <;> rfl
  rw [entrySteps, List.filter_append, hconstruct, hbraces, List.nil_append]

/-- The tokens that an anonymous node emits are its braces. -/
theorem brackets_of_anonymous (hboundary : walk.boundary = .braces curlyBraces) {place : Place}
    {state : State} (hnamed : ¬ node.isNamed) :
    ((written (walk.entering place node state)).map Token.text).filterMap
        (bracketStep? curlyBraces.opening curlyBraces.closing) = walk.braceSteps node := by
  by_cases hpart : walk.part node = .construct
  · rw [written_entering, hpart, braceSteps, hboundary]
    dsimp only
    by_cases hblank : Text.allBlank (node.text walk.source).toList
    · simp [hblank]
    · by_cases hleaf : node.isLeaf
      · simp only [hleaf, hblank, isToken_iff hpart hleaf hnamed]
        exact bracketSteps_singleton _ _ _
      · simp [hleaf, isToken]
  · have hignored : walk.part node = .ignored := by
      by_contra hkept
      exact hpart (part_of_anonymous hkept hnamed)
    rw [written_entering, hignored, braceSteps_of_passed hpart]
    rfl

/-- Each call emits the brackets that it opens and closes scopes for, if tokens with the text of a
brace come from braces alone. -/
theorem brackets_of_performs (hboundary : walk.boundary = .braces curlyBraces)
    (hperforms : walk.visitor.Performs call)
    (hbraces : ∀ token ∈ written call,
      token.text = curlyBraces.opening ∨ token.text = curlyBraces.closing →
        ¬ call.node.isNamed) :
    ((written call).map Token.text).filterMap
        (bracketStep? curlyBraces.opening curlyBraces.closing) =
      (walk.callSteps call).filter ScopeStep.isBracket := by
  rcases call with ⟨place, node, inside | _, before, after⟩
  · rw [callSteps, filter_entrySteps hboundary]
    by_cases hnamed : node.isNamed
    · have hnone : walk.braceSteps node = [] := by
        rw [braceSteps, hboundary]
        simp [isToken, hnamed]
      rw [hnone, List.filterMap_eq_nil_iff]
      intro text htext
      obtain ⟨token, htoken, rfl⟩ := List.mem_map.mp htext
      exact bracketStep?_eq_none fun hbrace => hbraces token htoken hbrace hnamed
    · obtain ⟨rfl, rfl⟩ : (walk.enter node before).1 = after ∧
          (walk.enter node before).2 = inside := Prod.ext_iff.mp hperforms
      exact brackets_of_anonymous hboundary hnamed
  · have hbounds : walk.bounds node = false := by rw [bounds, hboundary]
    rw [written_of_left hperforms rfl, callSteps]
    simp [hbounds]

/-- The braces among the tokens of a walk are the openings and closings in its history. -/
theorem brackets_run (hboundary : walk.boundary = .braces curlyBraces)
    (hbraces : walk.BracesAreTokens tree) :
    ((walk.run tree).tokens.map Token.text).filterMap
        (bracketStep? curlyBraces.opening curlyBraces.closing) =
      (walk.history tree).filter ScopeStep.isBracket := by
  rw [tokens_run, history, List.map_flatMap, List.filterMap_flatMap, List.filter_flatMap]
  apply List.flatMap_congr
  intro call hcall
  apply brackets_of_performs hboundary (Visitor.performs_of_mem_calls hcall)
  intro token htoken hbrace
  have hemission : ⟨call.place, token⟩ ∈ walk.emissions tree :=
    List.mem_flatMap.mpr ⟨call, hcall, List.mem_map_of_mem htoken⟩
  obtain ⟨node, hnode, hnamed⟩ := hbraces _ hemission hbrace
  obtain ⟨way, hplace, hcalled⟩ := Visitor.at?_of_mem_calls hcall
  obtain rfl : call.place = way := hplace
  obtain rfl := Option.some.inj (hnode.symm.trans hcalled)
  exact hnamed

/-- The check on the tokens of a walk and the tally of its scopes agree about braces, and the check
says of any tokens and any two brackets that no initial part has more closers than openers and that
there are as many of them. -/
theorem balanced_iff_isBalanced :
    (∀ (walk : Walk) (tree : Tree),
      walk.rules = Language.csharp.rules ∨ walk.rules = Language.go.rules →
      walk.options.boundaries = .legacy → walk.BracesAreTokens tree →
      ((TokenCheck.runAll ((walk.run tree).tokens.map Token.text)
          [.balanced curlyBraces.opening curlyBraces.closing]).2 = none ↔
        (walk.run tree).tally.isBalanced)) ∧
    ∀ (tokens : List String) (opening closing : String), opening ≠ closing →
      ((TokenCheck.runAll tokens [.balanced opening closing]).2 = none ↔
        (∀ part, part <+: tokens → part.count closing ≤ part.count opening) ∧
          tokens.count opening = tokens.count closing) := by
  constructor
  · intro walk tree hrules hlegacy hbraces
    have hboundary : walk.boundary = .braces curlyBraces := by
      rcases hrules with hrules | hrules <;> rw [boundary, hrules, hlegacy] <;> rfl
    have hne : curlyBraces.opening ≠ curlyBraces.closing := by decide
    rw [TokenCheck.runAll_balanced_iff hne, ← OpenScopes.isBalanced_replay_tokens_iff hne,
      brackets_run hboundary hbraces, OpenScopes.isBalanced_replay_filter_iff, ← tally_run]
  · intro tokens opening closing hne
    exact TokenCheck.runAll_balanced_iff hne

/-- The tree of a text in which a brace is closed before one is opened. -/
def crossedTree : Tree :=
  .node ⟨"source_file", true, false, false, true, 0, 3, none⟩ [
    .node (.sound "\x7d" false 0 1 none) [],
    .node (.sound "\x7b" false 2 3 none) []]

def crossedWalk : Walk :=
  ⟨.ofString "\x7d \x7b", Language.go.rules, .standard⟩

theorem bracesAreTokens_crossed : crossedWalk.BracesAreTokens crossedTree := by
  intro emission hemission _
  have hplace : emission.place ∈ crossedWalk.emissionPlaces [] crossedTree := by
    rw [← places_emissions]
    exact List.mem_map_of_mem hemission
  have hplaces : crossedWalk.emissionPlaces [] crossedTree = [[0], [1]] := by decide
  rw [hplaces, List.mem_pair] at hplace
  rcases hplace with hplace | hplace <;> rw [hplace] <;> exact ⟨_, rfl, by decide⟩

/-- One brace of each kind is not enough if they stand in the wrong order. -/
theorem not_isBalanced_crossed :
    crossedWalk.rules = Language.go.rules ∧ crossedWalk.options.boundaries = .legacy ∧
      crossedWalk.BracesAreTokens crossedTree ∧
      (crossedWalk.run crossedTree).tokens.map Token.text = ["\x7d", "\x7b"] ∧
      (crossedWalk.run crossedTree).tally.isBalanced = false ∧
      ∀ part, part <+: ["(", "(", ")", ")"] → part.count ")" ≤ part.count "(" := by
  have htokens : (crossedWalk.run crossedTree).tokens.map Token.text = ["\x7d", "\x7b"] := by
    rw [run, Visitor.traverse_eq_fold]
    decide
  have hagree := balanced_iff_isBalanced.1 crossedWalk crossedTree (Or.inr rfl) rfl
    bracesAreTokens_crossed
  rw [htokens] at hagree
  have hparts := (balanced_iff_isBalanced.2 ["(", "(", ")", ")"] "(" ")" (by decide)).mp rfl
  refine ⟨rfl, rfl, bracesAreTokens_crossed, htokens, ?_, hparts.1⟩
  rw [← Bool.not_eq_true, ← hagree]
  decide

end Walk

end CanonicalTokens
