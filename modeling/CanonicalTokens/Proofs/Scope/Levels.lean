import CanonicalTokens.Scope
import Mathlib.Data.List.Basic
import Mathlib.Data.List.Induction

/-!
# Levels of scopes

A scope is known by its level, which is the number of scopes around it. Opening and closing a scope
leave the names at all lower levels alone, so a name that was declared at some level stays there as
long as the depth has not fallen to that level. This holds of any chain of events that act on the
stack in this way, whatever they are.
-/

namespace CanonicalTokens

namespace OpenScopes

variable {stack : OpenScopes} {names : List String} {name : String} {level : Nat}

def HasAt (stack : OpenScopes) (level : Nat) (name : String) : Prop :=
  ∃ scope, (stack.enclosing.reverse ++ [stack.innermost])[level]? = some scope ∧ name ∈ scope

theorem HasAt.lt_depth (hname : stack.HasAt level name) : level < stack.depth := by
  obtain ⟨scope, hscope, -⟩ := hname
  have hlength := (List.getElem?_eq_some_iff.mp hscope).1
  simpa [depth] using hlength

/-- To look a name up is to find it at some level, be it shadowed or not. -/
theorem isDeclared_iff_exists_hasAt : stack.isDeclared name ↔ ∃ level, stack.HasAt level name := by
  have hmem : stack.isDeclared name ↔
      ∃ scope ∈ stack.enclosing.reverse ++ [stack.innermost], name ∈ scope := by
    rw [isDeclared_iff]
    simp [or_comm]
  rw [hmem]
  simp only [List.mem_iff_getElem?, HasAt]
  constructor
  · rintro ⟨scope, ⟨level, hscope⟩, hname⟩
    exact ⟨level, scope, hscope, hname⟩
  · rintro ⟨level, scope, hscope, hname⟩
    exact ⟨scope, ⟨level, hscope⟩, hname⟩

theorem hasAt_iff :
    stack.HasAt level name ↔
      (∃ scope, stack.enclosing.reverse[level]? = some scope ∧ name ∈ scope) ∨
        level + 1 = stack.depth ∧ name ∈ stack.innermost := by
  unfold HasAt depth
  rcases Nat.lt_trichotomy level stack.enclosing.length with hlt | heq | hgt
  · rw [List.getElem?_append_left (by simpa using hlt)]
    simp [Nat.ne_of_lt hlt]
  · simp [heq]
  · have hfar : level - stack.enclosing.length ≠ 0 := by omega
    rw [List.getElem?_append_right (by simp; omega)]
    simp [Nat.ne_of_gt hgt, Nat.le_of_lt hgt, hfar]

theorem hasAt_innermost (hlevel : level + 1 = stack.depth) :
    stack.HasAt level name ↔ name ∈ stack.innermost := by
  have houtside : stack.enclosing.reverse[level]? = none := by
    rw [List.getElem?_eq_none_iff, List.length_reverse]
    unfold depth at hlevel
    omega
  rw [hasAt_iff, houtside]
  simp [hlevel]

theorem hasAt_push : stack.push.HasAt level name ↔ stack.HasAt level name := by
  rw [hasAt_iff]
  simp [push, HasAt]

theorem hasAt_declareAll :
    (stack.declareAll names).HasAt level name ↔
      stack.HasAt level name ∨ level + 1 = stack.depth ∧ name ∈ names := by
  have hdepth : (stack.declareAll names).depth = stack.depth := by
    rw [depth, depth, enclosing_declareAll]
  rw [hasAt_iff, hasAt_iff, enclosing_declareAll, mem_innermost_declareAll, hdepth, or_assoc,
    and_or_left]

/-- Closing a scope takes away one level, and the others keep their names. -/
theorem hasAt_pop :
    stack.pop.HasAt level name ↔ stack.HasAt level name ∧ level < stack.pop.depth := by
  cases henclosing : stack.enclosing with
  | nil =>
    have hroot : stack.pop.HasAt level name ↔ stack.HasAt level name := by
      simp [HasAt, pop, henclosing]
    have hdepth : stack.pop.depth = stack.depth := by simp [pop, depth, henclosing]
    rw [hroot, hdepth]
    exact ⟨fun hname => ⟨hname, hname.lt_depth⟩, And.left⟩
  | cons outer further =>
    have hlevels : stack.pop.HasAt level name ↔
        ∃ scope, stack.enclosing.reverse[level]? = some scope ∧ name ∈ scope := by
      simp [HasAt, pop, henclosing]
    have hdepth : stack.depth = stack.pop.depth + 1 := by simp [pop, depth, henclosing]
    rw [@hasAt_iff stack, ← hlevels]
    constructor
    · intro hname
      exact ⟨Or.inl hname, hname.lt_depth⟩
    · rintro ⟨hname | ⟨hlevel, -⟩, hlt⟩
      · exact hname
      · omega

/-! ### Chains of events -/

section Chain

variable {Event : Type} {events : List Event} {behind : OpenScopes → Event → OpenScopes}
  {introduced : Event → List String}

/-- If each event declares its names in the innermost scope and may then open or close a scope, the
names at a level behind a chain of events are those that were there and those that an event has
declared there, both unless the depth has fallen to the level since. -/
theorem hasAt_foldl_iff
    (hbehind : ∀ (stack : OpenScopes) (event : Event) (level : Nat) (name : String),
      (behind stack event).HasAt level name ↔
        (stack.HasAt level name ∨ level + 1 = stack.depth ∧ name ∈ introduced event) ∧
          level < (behind stack event).depth) :
    (events.foldl behind stack).HasAt level name ↔
      (stack.HasAt level name ∧
        ∀ initial, initial <+: events → level < (initial.foldl behind stack).depth) ∨
      ∃ before event after, events = before ++ event :: after ∧ name ∈ introduced event ∧
        (before.foldl behind stack).depth = level + 1 ∧
        ∀ initial, initial <+: after →
          level < ((before ++ event :: initial).foldl behind stack).depth := by
  induction events using List.reverseRecOn with
  | nil =>
    rw [List.foldl_nil]
    constructor
    · intro hname
      refine Or.inl ⟨hname, ?_⟩
      intro initial hinitial
      obtain rfl := List.prefix_nil.mp hinitial
      exact hname.lt_depth
    · rintro (⟨hname, -⟩ | ⟨before, event, after, hevents, -⟩)
      · exact hname
      · simp at hevents
  | append_singleton events last ih =>
    rw [List.foldl_concat, hbehind, ih]
    constructor
    · rintro ⟨(⟨hname, hkept⟩ | ⟨before, event, after, rfl, hname, hdepth, hkept⟩) |
        ⟨hlevel, hname⟩, hlow⟩
      · refine Or.inl ⟨hname, ?_⟩
        intro initial hinitial
        rcases List.prefix_concat_iff.mp hinitial with rfl | hearlier
        · rwa [List.foldl_concat]
        · exact hkept initial hearlier
      · refine Or.inr ⟨before, event, after ++ [last], by simp, hname, hdepth, ?_⟩
        intro initial hinitial
        rcases List.prefix_concat_iff.mp hinitial with rfl | hearlier
        · rw [← List.cons_append, ← List.append_assoc, List.foldl_concat]
          exact hlow
        · exact hkept initial hearlier
      · refine Or.inr ⟨events, last, [], rfl, hname, hlevel.symm, ?_⟩
        intro initial hinitial
        obtain rfl := List.prefix_nil.mp hinitial
        rwa [List.foldl_concat]
    · rintro (⟨hname, hkept⟩ | ⟨before, event, after, hevents, hname, hdepth, hkept⟩)
      · have hlow := hkept (events ++ [last]) (List.prefix_refl _)
        rw [List.foldl_concat] at hlow
        refine ⟨Or.inl (Or.inl ⟨hname, ?_⟩), hlow⟩
        intro initial hinitial
        exact hkept initial (hinitial.trans (List.prefix_append events [last]))
      · have hlow := hkept after (List.prefix_refl _)
        rw [← hevents, List.foldl_concat] at hlow
        refine ⟨?_, hlow⟩
        rcases List.eq_nil_or_concat' after with rfl | ⟨after, other, rfl⟩
        · obtain ⟨rfl, rfl⟩ := List.append_singleton_inj.mp hevents
          exact Or.inr ⟨hdepth.symm, hname⟩
        · rw [← List.cons_append, ← List.append_assoc] at hevents
          obtain ⟨rfl, rfl⟩ := List.append_singleton_inj.mp hevents
          refine Or.inl (Or.inr ⟨before, event, after, rfl, hname, hdepth, ?_⟩)
          intro initial hinitial
          exact hkept initial (hinitial.trans (List.prefix_append after [last]))

end Chain

end OpenScopes

end CanonicalTokens
