import CanonicalTokens.Proofs.Scope.Levels
import Mathlib.Data.List.Infix

/-!
# Histories of a stack of scopes

Whatever has been done to a stack of scopes, in any order and with closings that were refused, a
name is known if and only if it has been declared and the depth has not been lower since than it was
then. What is declared in a scope is gone with it, and nothing else is: behind the closing that
belongs to an opening, the same names are known as in front of the opening.
-/

namespace CanonicalTokens

inductive ScopeStep where
  | push
  | pop
  | declare (name : String)
  | lookUp (name : String)
  deriving DecidableEq

def ScopeStep.names : ScopeStep → List String
  | declare name => [name]
  | _ => []

namespace OpenScopes

def perform (stack : OpenScopes) : ScopeStep → OpenScopes
  | .push => stack.push
  | .pop => stack.pop
  | .declare name => stack.declare name
  | .lookUp _ => stack

def replay (history : List ScopeStep) : OpenScopes :=
  history.foldl perform initial

/-- The scope that is opened behind a history stays open during the steps that follow: the depth
does not fall below the depth of this scope. -/
def StaysOpen (before inside : List ScopeStep) : Prop :=
  ∀ part, part <+: inside → (replay before).depth < (replay (before ++ .push :: part)).depth

instance (before inside : List ScopeStep) : Decidable (StaysOpen before inside) :=
  decidable_of_iff
    (∀ part ∈ inside.inits, (replay before).depth < (replay (before ++ .push :: part)).depth)
    (by simp [StaysOpen])

variable {stack : OpenScopes} {step : ScopeStep} {history before inside : List ScopeStep}
  {name : String} {level : Nat}

theorem replay_append (before after : List ScopeStep) :
    replay (before ++ after) = after.foldl perform (replay before) :=
  List.foldl_append

theorem replay_concat (history : List ScopeStep) (step : ScopeStep) :
    replay (history ++ [step]) = (replay history).perform step :=
  List.foldl_concat perform initial step history

/-- A step leaves to a level what was there and what it declares there itself, if the level is still
in use behind it. -/
theorem hasAt_perform :
    (stack.perform step).HasAt level name ↔
      (stack.HasAt level name ∨ level + 1 = stack.depth ∧ name ∈ step.names) ∧
        level < (stack.perform step).depth := by
  have hkept : ∀ behind : OpenScopes, (behind.HasAt level name ↔ stack.HasAt level name) →
      (behind.HasAt level name ↔ stack.HasAt level name ∧ level < behind.depth) := by
    intro behind hsame
    rw [← hsame]
    exact ⟨fun hname => ⟨hname, hname.lt_depth⟩, And.left⟩
  cases step with
  | push => simpa [perform, ScopeStep.names] using hkept stack.push hasAt_push
  | pop =>
    have hpopped : stack.pop.HasAt level name ↔
        stack.HasAt level name ∧ level < stack.pop.depth := hasAt_pop
    simpa [perform, ScopeStep.names] using hpopped
  | declare declared =>
    have hdeclared := @hasAt_declareAll stack [declared] name level
    change (stack.declare declared).HasAt level name ↔ _ at hdeclared
    constructor
    · intro hname
      exact ⟨hdeclared.mp hname, hname.lt_depth⟩
    · rintro ⟨hname, -⟩
      exact hdeclared.mpr hname
  | lookUp _ => simpa [perform, ScopeStep.names] using hkept stack Iff.rfl

theorem mem_names_iff : name ∈ step.names ↔ step = .declare name := by
  cases step <;> simp [ScopeStep.names, eq_comm]

theorem not_hasAt_initial : ¬ initial.HasAt level name := by
  intro hname
  have hdeclared := isDeclared_iff_exists_hasAt.mpr ⟨level, hname⟩
  cases hdeclared

/-- The names at a level behind further steps are those that were there before and those that have
been declared there, unless the depth has fallen to the level since. -/
theorem hasAt_replay_append_iff (before steps : List ScopeStep) :
    (replay (before ++ steps)).HasAt level name ↔
      ((replay before).HasAt level name ∧
        ∀ part, part <+: steps → level < (replay (before ++ part)).depth) ∨
      ∃ early late, steps = early ++ .declare name :: late ∧
        (replay (before ++ early)).depth = level + 1 ∧
        ∀ part, part <+: late →
          level < (replay (before ++ (early ++ .declare name :: part))).depth := by
  have hbehind : ∀ (stack : OpenScopes) (step : ScopeStep) (level : Nat) (name : String),
      (stack.perform step).HasAt level name ↔
        (stack.HasAt level name ∨ level + 1 = stack.depth ∧ name ∈ step.names) ∧
          level < (stack.perform step).depth := fun _ _ _ _ => hasAt_perform
  simp only [replay_append, hasAt_foldl_iff hbehind]
  apply or_congr_right
  constructor
  · rintro ⟨early, step, late, rfl, hname, hdepth, hkept⟩
    obtain rfl := mem_names_iff.mp hname
    exact ⟨early, late, rfl, hdepth, hkept⟩
  · rintro ⟨early, late, rfl, hdepth, hkept⟩
    exact ⟨early, .declare name, late, rfl, mem_names_iff.mpr rfl, hdepth, hkept⟩

theorem hasAt_replay_iff :
    (replay history).HasAt level name ↔
      ∃ before after, history = before ++ .declare name :: after ∧
        (replay before).depth = level + 1 ∧
        ∀ part, part <+: after → level < (replay (before ++ .declare name :: part)).depth := by
  have hchain : (replay ([] ++ history)).HasAt level name ↔ _ :=
    hasAt_replay_append_iff [] history
  rwa [or_iff_right fun hthere => not_hasAt_initial hthere.1] at hchain

/-- A name is declared if and only if some step declared it in a scope that has not been closed
since. -/
theorem isDeclared_replay_iff :
    (replay history).isDeclared name ↔
      ∃ before after, history = before ++ .declare name :: after ∧
        ∀ part, part <+: after →
          (replay before).depth ≤ (replay (before ++ .declare name :: part)).depth := by
  rw [isDeclared_iff_exists_hasAt]
  simp only [hasAt_replay_iff]
  constructor
  · rintro ⟨level, before, after, hhistory, hdepth, hkept⟩
    refine ⟨before, after, hhistory, ?_⟩
    intro part hpart
    rw [hdepth]
    exact hkept part hpart
  · rintro ⟨before, after, hhistory, hkept⟩
    have hpos := (replay before).depth_pos
    refine ⟨(replay before).depth - 1, before, after, hhistory, by omega, ?_⟩
    intro part hpart
    have hle := hkept part hpart
    omega

/-! ### An opening and its closing -/

theorem depth_of_prefix (hopen : StaysOpen before inside) {part : List ScopeStep}
    (hpart : part <+: .push :: inside) :
    part = [] ∨ (replay before).depth < (replay (before ++ part)).depth := by
  rcases List.prefix_cons_iff.mp hpart with hnone | ⟨further, rfl, hfurther⟩
  · exact Or.inl hnone
  · exact Or.inr (hopen further hfurther)

theorem depth_closed
    (hdepth : (replay (before ++ .push :: inside)).depth = (replay before).depth + 1) :
    (replay (before ++ .push :: inside ++ [.pop])).depth = (replay before).depth := by
  have hpos := (replay before).depth_pos
  rw [replay_concat, perform, depth_pop]
  omega

/-- A scope that is closed takes its own names with it and leaves those of the scopes around it. -/
theorem hasAt_closed (hopen : StaysOpen before inside)
    (hdepth : (replay (before ++ .push :: inside)).depth = (replay before).depth + 1) :
    (replay (before ++ .push :: inside ++ [.pop])).HasAt level name ↔
      (replay before).HasAt level name := by
  have hclosed := depth_closed hdepth
  rw [List.append_assoc] at hclosed ⊢
  rw [hasAt_replay_append_iff]
  constructor
  · rintro (⟨hname, -⟩ | ⟨early, late, hsteps, hlevel, hkept⟩)
    · exact hname
    · -- A name declared inside lies at the level of the scope or above, and so it is gone.
      exfalso
      have hlow := hkept late (List.prefix_refl _)
      rw [← hsteps, hclosed] at hlow
      rcases List.prefix_concat_iff.mp (hsteps ▸ List.prefix_append early _) with rfl | hearly
      · simp at hsteps
      · rcases depth_of_prefix hopen hearly with rfl | hdeep
        · cases hsteps
        · omega
  · intro hname
    refine Or.inl ⟨hname, ?_⟩
    intro part hpart
    have hlevel := hname.lt_depth
    rcases List.prefix_concat_iff.mp hpart with rfl | hinside
    · rwa [hclosed]
    · rcases depth_of_prefix hopen hinside with rfl | hdeep
      · rwa [List.append_nil]
      · exact Nat.lt_trans hlevel hdeep

/-- A name is known behind a history if and only if some declaration of it has not been closed over:
since then the depth has not been lower. So an opening, steps that stay in its scope, and the
closing of this scope change neither what is known nor the depth. -/
theorem isDeclared_replay :
    (∀ history name, (replay history).isDeclared name ↔
      ∃ before after, history = before ++ .declare name :: after ∧
        ∀ part, part <+: after →
          (replay before).depth ≤ (replay (before ++ .declare name :: part)).depth) ∧
    ∀ before inside, StaysOpen before inside →
      (replay (before ++ .push :: inside)).depth = (replay before).depth + 1 →
      (∀ name, (replay (before ++ .push :: inside ++ [.pop])).isDeclared name =
        (replay before).isDeclared name) ∧
      (replay (before ++ .push :: inside ++ [.pop])).depth = (replay before).depth := by
  refine ⟨fun history name => isDeclared_replay_iff, ?_⟩
  intro before inside hopen hdepth
  refine ⟨?_, depth_closed hdepth⟩
  intro name
  rw [Bool.eq_iff_iff, isDeclared_iff_exists_hasAt, isDeclared_iff_exists_hasAt]
  exact exists_congr fun level => hasAt_closed hopen hdepth

/-- In the inner of two scopes the name of the outer one is declared again. -/
theorem isDeclared_shadowed :
    StaysOpen [.declare "x"] [.declare "x", .push, .declare "y", .pop] ∧
      (replay [.declare "x", .push, .declare "x", .push, .declare "y", .pop]).depth = 2 ∧
      (replay [.declare "x", .push, .declare "x", .push, .declare "y", .pop, .pop]).isDeclared "x"
        = (replay [.declare "x"]).isDeclared "x" ∧
      (replay [.declare "x", .push, .declare "x", .push, .declare "y", .pop, .pop]).depth = 1 := by
  have hopen : StaysOpen [.declare "x"] [.declare "x", .push, .declare "y", .pop] := by decide
  have hclosed := isDeclared_replay.2 [.declare "x"] [.declare "x", .push, .declare "y", .pop]
    hopen rfl
  exact ⟨hopen, rfl, hclosed.1 "x", hclosed.2⟩

end OpenScopes

end CanonicalTokens
