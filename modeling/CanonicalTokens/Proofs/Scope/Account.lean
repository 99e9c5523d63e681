import CanonicalTokens.Proofs.Scope.History
import Mathlib.Data.Set.Card
import Mathlib.Order.Bounds.Basic

/-!
# What a tally says about a history

The tally of a stack counts what has been done to it, and the depth is a walk that takes a step up
with every opening and a step down with every closing, but never below one. So the counts have a
meaning in terms of the openings and closings alone: the refused closings are the most by which
closings were ahead of openings at any moment, and the greatest depth is the most by which openings
were ahead of closings over any stretch.

A scope is known by the history in front of its opening, the root by having none. With that, the
count of declarations is the number of pairs of a scope and a name declared in it.
-/

namespace CanonicalTokens.OpenScopes

def rise (steps : List ScopeStep) : ℤ :=
  steps.count .push - steps.count .pop

/-- The innermost scope behind a history: it has stayed open since its opening, and every scope that
was opened within it is closed. -/
def Innermost (history : List ScopeStep) : Option (List ScopeStep) → Prop
  | none => (replay history).depth = 1
  | some before => ∃ inside, history = before ++ .push :: inside ∧ StaysOpen before inside ∧
      (replay history).depth = (replay before).depth + 1

def declarations (history : List ScopeStep) : Set (Option (List ScopeStep) × String) :=
  {entry | ∃ before after, history = before ++ .declare entry.2 :: after ∧ Innermost before entry.1}

structure Accounts (stack : OpenScopes) (history : List ScopeStep) : Prop where
  depth_pos : 1 ≤ stack.depth
  depth : (stack.depth : ℤ) = 1 + stack.tally.opened - stack.tally.closed
  opened : stack.tally.opened = history.count .push
  closed : stack.tally.closed + stack.tally.unmatchedCloses = history.count .pop
  unmatchedCloses :
    IsGreatest {surplus : ℤ | ∃ part, part <+: history ∧ surplus = -rise part}
      stack.tally.unmatchedCloses
  maxDepth :
    IsGreatest {depth : ℤ | ∃ part, part <:+: history ∧ depth = 1 + rise part} stack.tally.maxDepth
  declared : (declarations history).encard = stack.tally.declared
  isBalanced : stack.tally.isBalanced ↔
    (∀ part, part <+: history → part.count .pop ≤ part.count .push) ∧
      history.count .push = history.count .pop

variable {stack : OpenScopes} {step : ScopeStep} {history before after inside : List ScopeStep}
  {name : String}

/-! ### Steps -/

inductive Moves (stack behind : OpenScopes) : ScopeStep → Prop
  | up (hdepth : behind.depth = stack.depth + 1)
      (htally : behind.tally = { stack.tally with
        opened := stack.tally.opened + 1
        maxDepth := max stack.tally.maxDepth behind.depth }) : Moves stack behind .push
  | down (hdepth : behind.depth + 1 = stack.depth)
      (htally : behind.tally = { stack.tally with closed := stack.tally.closed + 1 }) :
      Moves stack behind .pop
  | refused (hroot : stack.depth = 1) (hdepth : behind.depth = 1)
      (htally : behind.tally = { stack.tally with
        unmatchedCloses := stack.tally.unmatchedCloses + 1 }) : Moves stack behind .pop
  | level {step : ScopeStep} (hpush : step ≠ .push) (hpop : step ≠ .pop)
      (hdepth : behind.depth = stack.depth)
      (htally : behind.tally = { stack.tally with declared := behind.tally.declared }) :
      Moves stack behind step

/-- A step opens a scope, closes one, is refused at the root, declares a name anew or changes
nothing. -/
theorem moves_perform (stack : OpenScopes) (step : ScopeStep) :
    stack.Moves (stack.perform step) step := by
  cases step with
  | push =>
    refine .up stack.depth_push ?_
    rw [perform, depth_push]
    rfl
  | pop =>
    cases henclosing : stack.enclosing with
    | nil => apply Moves.refused <;> simp [perform, pop, OpenScopes.depth, henclosing]
    | cons outer further =>
      apply Moves.down <;> simp [perform, pop, OpenScopes.depth, henclosing]
  | declare name =>
    refine .level (by simp) (by simp) (stack.depth_declare name) ?_
    simp only [perform, OpenScopes.declare]
    split <;> rfl
  | lookUp name => exact .level (by simp) (by simp) rfl rfl

/-! ### Depth -/

@[simp]
theorem rise_push : rise [.push] = 1 := rfl

@[simp]
theorem rise_pop : rise [.pop] = -1 := rfl

theorem rise_of_ne (hpush : step ≠ .push) (hpop : step ≠ .pop) : rise [step] = 0 := by
  simp [rise, hpush, hpop]

theorem rise_append (before after : List ScopeStep) :
    rise (before ++ after) = rise before + rise after := by
  simp only [rise, List.count_append]
  omega

theorem opened_replay (history : List ScopeStep) :
    (replay history).tally.opened = history.count .push := by
  induction history using List.reverseRecOn with
  | nil => rfl
  | append_singleton history step ih =>
    rw [replay_concat, List.count_append, ← ih]
    cases moves_perform (replay history) step with
    | up hdepth htally => simp [htally]
    | down hdepth htally => simp [htally]
    | refused hroot hdepth htally => simp [htally]
    | level hpush hpop hdepth htally =>
      rw [htally]
      simp [hpush]

/-- Each closing step is counted once, as a scope that was closed or as a refusal. -/
theorem closed_replay (history : List ScopeStep) :
    (replay history).tally.closed + (replay history).tally.unmatchedCloses =
      history.count .pop := by
  induction history using List.reverseRecOn with
  | nil => rfl
  | append_singleton history step ih =>
    rw [replay_concat, List.count_append, ← ih]
    cases moves_perform (replay history) step with
    | up hdepth htally => simp [htally]
    | down hdepth htally =>
      simp [htally]
      omega
    | refused hroot hdepth htally => simp [htally, Nat.add_assoc]
    | level hpush hpop hdepth htally =>
      rw [htally]
      simp [hpop]

/-- The depth is what the openings are ahead of the closings, but for those that were refused. -/
theorem depth_replay (history : List ScopeStep) :
    ((replay history).depth : ℤ) =
      1 + rise history + (replay history).tally.unmatchedCloses := by
  induction history using List.reverseRecOn with
  | nil => rfl
  | append_singleton history step ih =>
    rw [replay_concat, rise_append]
    cases moves_perform (replay history) step with
    | up hdepth htally =>
      simp only [rise_push, htally, hdepth]
      omega
    | down hdepth htally =>
      simp only [rise_pop, htally]
      omega
    | refused hroot hdepth htally =>
      simp only [rise_pop, htally, hdepth]
      omega
    | level hpush hpop hdepth htally =>
      rw [htally, hdepth, rise_of_ne hpush hpop]
      dsimp only
      omega

/-! ### Greatest values on the way -/

/-- A number that keeps up with the last value of a growing list is the greatest value of its front
parts. -/
theorem isGreatest_of_concat {Item : Type} (value greatest : List Item → ℤ)
    (hnil : greatest [] = value [])
    (hconcat : ∀ items item,
      greatest (items ++ [item]) = max (value (items ++ [item])) (greatest items))
    (items : List Item) :
    IsGreatest {level | ∃ part, part <+: items ∧ level = value part} (greatest items) := by
  induction items using List.reverseRecOn with
  | nil =>
    rw [hnil]
    refine ⟨⟨[], List.prefix_refl _, rfl⟩, ?_⟩
    rintro level ⟨part, hpart, rfl⟩
    rw [List.prefix_nil.mp hpart]
  | append_singleton items item ih =>
    have hset : {level | ∃ part, part <+: items ++ [item] ∧ level = value part} =
        insert (value (items ++ [item])) {level | ∃ part, part <+: items ∧ level = value part} := by
      ext level
      constructor
      · rintro ⟨part, hpart, rfl⟩
        rcases List.prefix_concat_iff.mp hpart with rfl | hearlier
        · exact Set.mem_insert _ _
        · exact Set.mem_insert_of_mem _ ⟨part, hearlier, rfl⟩
      · rintro (rfl | ⟨part, hpart, rfl⟩)
        · exact ⟨items ++ [item], List.prefix_refl _, rfl⟩
        · exact ⟨part, hpart.trans (List.prefix_append _ _), rfl⟩
    rw [hset, hconcat]
    exact ih.insert _

/-- There are as many refusals as the greatest surplus of closing steps in a front part. -/
theorem isGreatest_unmatchedCloses (history : List ScopeStep) :
    IsGreatest {surplus : ℤ | ∃ part, part <+: history ∧ surplus = -rise part}
      (replay history).tally.unmatchedCloses := by
  apply isGreatest_of_concat (fun history => -rise history)
    (fun history => ((replay history).tally.unmatchedCloses : ℤ))
  · rfl
  · intro history step
    have hbefore := depth_replay history
    have hbehind := depth_replay (history ++ [step])
    have hpos := (replay (history ++ [step])).depth_pos
    rw [replay_concat] at hbehind hpos ⊢
    cases moves_perform (replay history) step with
    | up hdepth htally =>
      simp only [htally] at hbehind ⊢
      omega
    | down hdepth htally =>
      simp only [htally] at hbehind ⊢
      omega
    | refused hroot hdepth htally =>
      simp only [htally] at hbehind ⊢
      omega
    | level hpush hpop hdepth htally =>
      rw [htally] at hbehind ⊢
      dsimp only at hbehind ⊢
      omega

/-- The greatest depth keeps up with the depth at every step. -/
theorem maxDepth_perform (hle : stack.depth ≤ stack.tally.maxDepth) :
    (stack.perform step).tally.maxDepth =
      max (stack.perform step).depth stack.tally.maxDepth := by
  cases moves_perform stack step with
  | up hdepth htally =>
    rw [htally]
    exact Nat.max_comm _ _
  | down hdepth htally =>
    simp only [htally]
    omega
  | refused hroot hdepth htally =>
    simp only [htally]
    omega
  | level hpush hpop hdepth htally =>
    rw [htally, hdepth]
    exact (Nat.max_eq_right hle).symm

theorem depth_le_maxDepth (history : List ScopeStep) :
    (replay history).depth ≤ (replay history).tally.maxDepth := by
  induction history using List.reverseRecOn with
  | nil => exact Nat.le_refl 1
  | append_singleton history step ih =>
    rw [replay_concat, maxDepth_perform ih]
    exact Nat.le_max_left _ _

theorem isGreatest_depth (history : List ScopeStep) :
    IsGreatest {depth : ℤ | ∃ part, part <+: history ∧ depth = (replay part).depth}
      (replay history).tally.maxDepth := by
  apply isGreatest_of_concat (fun history => ((replay history).depth : ℤ))
    (fun history => ((replay history).tally.maxDepth : ℤ))
  · rfl
  · intro history step
    rw [replay_concat, maxDepth_perform (depth_le_maxDepth history)]
    omega

/-- A refused closing leaves the depth at the root, so the greatest depth is that of some part of
the history on its own, wherever it starts. -/
theorem isGreatest_maxDepth (history : List ScopeStep) :
    IsGreatest {depth : ℤ | ∃ part, part <:+: history ∧ depth = 1 + rise part}
      (replay history).tally.maxDepth := by
  obtain ⟨⟨deepest, hdeepest, hmax⟩, hbound⟩ := isGreatest_depth history
  constructor
  · -- The deepest point is reached by the steps behind the moment with most closings ahead.
    obtain ⟨⟨front, ⟨part, rfl⟩, hfront⟩, -⟩ := isGreatest_unmatchedCloses deepest
    have hdepth := depth_replay (front ++ part)
    rw [rise_append] at hdepth
    refine ⟨part, (List.suffix_append front part).isInfix.trans hdeepest.isInfix, ?_⟩
    omega
  · rintro depth ⟨part, ⟨front, back, rfl⟩, rfl⟩
    have hfront := (isGreatest_unmatchedCloses (front ++ part)).2
      ⟨front, List.prefix_append front part, rfl⟩
    have hdepth := depth_replay (front ++ part)
    rw [rise_append] at hdepth
    calc 1 + rise part
        ≤ (replay (front ++ part)).depth := by omega
      _ ≤ (replay (front ++ part ++ back)).tally.maxDepth :=
          hbound ⟨front ++ part, List.prefix_append _ back, rfl⟩

/-- A tally is balanced if and only if the steps are balanced as brackets. -/
theorem isBalanced_replay_iff (history : List ScopeStep) :
    (replay history).tally.isBalanced ↔
      (∀ part, part <+: history → part.count .pop ≤ part.count .push) ∧
        history.count .push = history.count .pop := by
  have hopened := opened_replay history
  have hclosed := closed_replay history
  obtain ⟨⟨worst, hworst, hmost⟩, hbound⟩ := isGreatest_unmatchedCloses history
  simp only [ScopeTally.isBalanced, Bool.and_eq_true, decide_eq_true_eq]
  constructor
  · rintro ⟨hsame, hnone⟩
    refine ⟨?_, by omega⟩
    intro part hpart
    have hle := hbound ⟨part, hpart, rfl⟩
    simp only [rise] at hle
    omega
  · rintro ⟨hpart, htotal⟩
    have hle := hpart worst hworst
    simp only [rise] at hmost
    omega

/-! ### Declarations -/

theorem eq_or_between_of_append_eq {Item : Type} {front back other rest : List Item}
    {first second : Item} (hsame : front ++ first :: back = other ++ second :: rest) :
    (front = other ∧ first = second ∧ back = rest) ∨
      (∃ between, other = front ++ first :: between ∧ back = between ++ second :: rest) ∨
      ∃ between, front = other ++ second :: between ∧ rest = between ++ first :: back := by
  rcases List.append_eq_append_iff.mp hsame with ⟨between, rfl, hback⟩ | ⟨between, rfl, hrest⟩
  · rcases List.cons_eq_append_iff.mp hback with ⟨rfl, heq⟩ | ⟨further, rfl, rfl⟩
    · obtain ⟨rfl, rfl⟩ := List.cons.inj heq
      exact Or.inl ⟨by simp, rfl, rfl⟩
    · exact Or.inr (Or.inl ⟨further, rfl, rfl⟩)
  · rcases List.cons_eq_append_iff.mp hrest with ⟨rfl, heq⟩ | ⟨further, rfl, rfl⟩
    · obtain ⟨rfl, rfl⟩ := List.cons.inj heq
      exact Or.inl ⟨by simp, rfl, rfl⟩
    · exact Or.inr (Or.inr ⟨further, rfl, rfl⟩)

theorem StaysOpen.of_prefix {part : List ScopeStep} (hopen : StaysOpen before inside)
    (hpart : part <+: inside) : StaysOpen before part :=
  fun further hfurther => hopen further (hfurther.trans hpart)

/-- At every depth between the root and the present one, a scope was opened that is still open. -/
theorem exists_stays_open {level : Nat} (hlevel : 1 ≤ level)
    (hlt : level < (replay history).depth) :
    ∃ before inside, history = before ++ .push :: inside ∧ StaysOpen before inside ∧
      (replay before).depth = level := by
  induction history using List.reverseRecOn with
  | nil => exact absurd hlt (Nat.not_lt.mpr hlevel)
  | append_singleton history step ih =>
    rw [replay_concat] at hlt
    by_cases hbefore : level < (replay history).depth
    · obtain ⟨before, inside, rfl, hopen, hdepth⟩ := ih hbefore
      refine ⟨before, inside ++ [step], by simp, ?_, hdepth⟩
      intro part hpart
      rcases List.prefix_concat_iff.mp hpart with rfl | hearlier
      · rw [← List.cons_append, ← List.append_assoc, replay_concat]
        omega
      · exact hopen part hearlier
    · cases moves_perform (replay history) step with
      | up hdepth htally =>
        refine ⟨history, [], rfl, ?_, by omega⟩
        intro part hpart
        rw [List.prefix_nil.mp hpart, replay_concat, hdepth]
        exact Nat.lt_succ_self _
      | down hdepth htally => omega
      | refused hroot hdepth htally => omega
      | level hpush hpop hdepth htally => omega

theorem exists_innermost (history : List ScopeStep) : ∃ scope, Innermost history scope := by
  have hpos := (replay history).depth_pos
  by_cases hroot : (replay history).depth = 1
  · exact ⟨none, hroot⟩
  · have hlevel : 1 ≤ (replay history).depth - 1 := by omega
    have hlt : (replay history).depth - 1 < (replay history).depth := by omega
    obtain ⟨before, inside, hhistory, hopen, hdepth⟩ := exists_stays_open hlevel hlt
    exact ⟨some before, inside, hhistory, hopen, by omega⟩

/-- At most one opening is that of the innermost scope: of two, the later one lies inside the other
and would be closed. -/
theorem innermost_unique {scope other : Option (List ScopeStep)}
    (hscope : Innermost history scope) (hother : Innermost history other) : scope = other := by
  cases scope with
  | none =>
    cases other with
    | none => rfl
    | some second =>
      obtain ⟨inside, -, -, hdepth⟩ := hother
      have hroot : (replay history).depth = 1 := hscope
      have hpos := (replay second).depth_pos
      omega
  | some first =>
    obtain ⟨inside, rfl, hopen, hdepth⟩ := hscope
    cases other with
    | none =>
      have hroot : (replay (first ++ .push :: inside)).depth = 1 := hother
      have hpos := (replay first).depth_pos
      omega
    | some second =>
      obtain ⟨others, hhistory, hopenOther, hdepthOther⟩ := hother
      rcases eq_or_between_of_append_eq hhistory with
        ⟨rfl, -, -⟩ | ⟨between, rfl, rfl⟩ | ⟨between, rfl, rfl⟩
      · rfl
      · have hlt := hopen between (List.prefix_append between _)
        omega
      · have hlt := hopenOther between (List.prefix_append between _)
        omega

/-- A scope that is innermost now was so at every earlier moment with the same depth, unless the
depth fell in between. -/
theorem innermost_of_mem_inside {scope : Option (List ScopeStep)}
    (hscope : Innermost (before ++ .declare name :: after) scope)
    (hdepth : (replay before).depth = (replay (before ++ .declare name :: after)).depth)
    (hkept : ∀ part, part <+: after →
      (replay before).depth ≤ (replay (before ++ .declare name :: part)).depth) :
    Innermost before scope := by
  cases scope with
  | none => exact hdepth.trans hscope
  | some opening =>
    obtain ⟨inside, hhistory, hopen, hscope⟩ := hscope
    rcases eq_or_between_of_append_eq hhistory with
      ⟨-, hstep, -⟩ | ⟨between, rfl, rfl⟩ | ⟨between, rfl, rfl⟩
    · cases hstep
    · have hle := hkept between (List.prefix_append between _)
      omega
    · exact ⟨between, rfl, hopen.of_prefix (List.prefix_append between _), hdepth.trans hscope⟩

/-- If the same scope is innermost at two moments, it stayed open in between. -/
theorem le_depth_of_innermost {scope : Option (List ScopeStep)}
    (hscope : Innermost (before ++ .declare name :: after) scope)
    (hbefore : Innermost before scope) :
    (replay before).depth = (replay (before ++ .declare name :: after)).depth ∧
      ∀ part, part <+: after →
        (replay before).depth ≤ (replay (before ++ .declare name :: part)).depth := by
  cases scope with
  | none =>
    have hroot : (replay (before ++ .declare name :: after)).depth = 1 := hscope
    have hrootBefore : (replay before).depth = 1 := hbefore
    refine ⟨by omega, ?_⟩
    intro part _
    rw [hrootBefore]
    exact (replay _).depth_pos
  | some opening =>
    obtain ⟨between, rfl, -, hdepthBefore⟩ := hbefore
    obtain ⟨inside, hhistory, hopen, hdepth⟩ := hscope
    obtain rfl : inside = between ++ .declare name :: after := by
      rw [List.append_assoc, List.cons_append] at hhistory
      exact (List.cons.inj (List.append_cancel_left hhistory)).2.symm
    refine ⟨by omega, ?_⟩
    intro part hpart
    have hdeep := hopen (between ++ .declare name :: part)
      ((List.prefix_append_right_inj between).mpr (List.cons_prefix_cons.mpr ⟨rfl, hpart⟩))
    rw [← List.cons_append, ← List.append_assoc] at hdeep
    omega

/-- The innermost scope has the names that were declared in it. -/
theorem mem_innermost_replay_iff {scope : Option (List ScopeStep)}
    (hscope : Innermost history scope) :
    name ∈ (replay history).innermost ↔ (scope, name) ∈ declarations history := by
  have hpos := (replay history).depth_pos
  have hlevel : (replay history).depth - 1 + 1 = (replay history).depth := by omega
  rw [← hasAt_innermost hlevel, hasAt_replay_iff, hlevel]
  constructor
  · rintro ⟨before, after, rfl, hdepth, hkept⟩
    refine ⟨before, after, rfl, innermost_of_mem_inside hscope hdepth ?_⟩
    intro part hpart
    have hlt := hkept part hpart
    omega
  · rintro ⟨before, after, rfl, hbefore⟩
    obtain ⟨hdepth, hkept⟩ := le_depth_of_innermost hscope hbefore
    refine ⟨before, after, rfl, hdepth, ?_⟩
    intro part hpart
    exact Nat.lt_of_lt_of_le (by omega) (hkept part hpart)

/-- A step adds to the declarations only if it declares a name, and then in the innermost scope. -/
theorem declarations_concat (history : List ScopeStep) (step : ScopeStep) :
    declarations (history ++ [step]) =
      {entry | step = .declare entry.2 ∧ Innermost history entry.1} ∪ declarations history := by
  ext entry
  constructor
  · rintro ⟨before, after, hhistory, hbefore⟩
    rcases List.eq_nil_or_concat' after with rfl | ⟨after, last, rfl⟩
    · obtain ⟨rfl, rfl⟩ := List.append_singleton_inj.mp hhistory
      exact Or.inl ⟨rfl, hbefore⟩
    · rw [← List.cons_append, ← List.append_assoc] at hhistory
      obtain ⟨rfl, rfl⟩ := List.append_singleton_inj.mp hhistory
      exact Or.inr ⟨before, after, rfl, hbefore⟩
  · rintro (⟨rfl, hscope⟩ | ⟨before, after, rfl, hbefore⟩)
    · exact ⟨history, [], rfl, hscope⟩
    · exact ⟨before, after ++ [step], by simp, hbefore⟩

theorem declarations_declare {scope : Option (List ScopeStep)} (hscope : Innermost history scope)
    (name : String) :
    declarations (history ++ [.declare name]) = insert (scope, name) (declarations history) := by
  rw [declarations_concat, Set.insert_eq]
  congr 1
  ext ⟨other, otherName⟩
  constructor
  · rintro ⟨hname, hother⟩
    rw [Set.mem_singleton_iff, innermost_unique hscope hother, ScopeStep.declare.inj hname]
  · intro hentry
    obtain ⟨rfl, rfl⟩ := Prod.mk.inj hentry
    exact ⟨rfl, hscope⟩

theorem declarations_of_ne (history : List ScopeStep) (hstep : ∀ name, step ≠ .declare name) :
    declarations (history ++ [step]) = declarations history := by
  rw [declarations_concat, Set.union_eq_right]
  rintro entry ⟨hdeclare, -⟩
  exact absurd hdeclare (hstep entry.2)

theorem declared_perform_of_ne (stack : OpenScopes) (hstep : ∀ name, step ≠ .declare name) :
    (stack.perform step).tally.declared = stack.tally.declared := by
  cases step with
  | push => rfl
  | pop =>
    simp only [perform, pop]
    split <;> rfl
  | declare name => exact absurd rfl (hstep name)
  | lookUp name => rfl

theorem exists_mem_declarations_iff {history : List ScopeStep} {name : String} :
    (∃ entry ∈ declarations history, entry.2 = name) ↔ .declare name ∈ history := by
  constructor
  · rintro ⟨entry, ⟨before, after, rfl, -⟩, rfl⟩
    simp
  · intro hdeclare
    obtain ⟨before, after, rfl⟩ := List.append_of_mem hdeclare
    obtain ⟨scope, hscope⟩ := exists_innermost before
    exact ⟨(scope, name), ⟨before, after, rfl, hscope⟩, rfl⟩

/-- The tally counts each name once for each scope it is declared in. -/
theorem encard_declarations (history : List ScopeStep) :
    (declarations history).encard = (replay history).tally.declared := by
  induction history using List.reverseRecOn with
  | nil =>
    have hnone : declarations [] = ∅ := by
      ext entry
      simp [declarations]
    rw [hnone]
    exact Set.encard_empty
  | append_singleton history step ih =>
    rw [replay_concat]
    by_cases hdeclare : ∃ name, step = .declare name
    · obtain ⟨name, rfl⟩ := hdeclare
      obtain ⟨scope, hscope⟩ := exists_innermost history
      have hmem : name ∈ (replay history).innermost ↔ (scope, name) ∈ declarations history :=
        mem_innermost_replay_iff hscope
      rw [declarations_declare hscope, perform, declare]
      split
      next hknown =>
        rw [Set.insert_eq_of_mem (hmem.mp (List.contains_iff_mem.mp hknown)), ih]
      next hnew =>
        rw [List.contains_iff_mem] at hnew
        rw [Set.encard_insert_of_notMem fun hentry => hnew (hmem.mpr hentry), ih]
        rfl
    · have hstep : ∀ name, step ≠ .declare name := fun name hname => hdeclare ⟨name, hname⟩
      rw [declarations_of_ne history hstep, declared_perform_of_ne _ hstep, ih]

/-- The tally of a stack is a faithful account of everything that has been done to it. -/
theorem accounts_replay (history : List ScopeStep) : (replay history).Accounts history where
  depth_pos := (replay history).depth_pos
  depth := by
    have hdepth := depth_replay history
    have hopened := opened_replay history
    have hclosed := closed_replay history
    simp only [rise] at hdepth
    omega
  opened := opened_replay history
  closed := closed_replay history
  unmatchedCloses := isGreatest_unmatchedCloses history
  maxDepth := isGreatest_maxDepth history
  declared := encard_declarations history
  isBalanced := isBalanced_replay_iff history

end CanonicalTokens.OpenScopes
