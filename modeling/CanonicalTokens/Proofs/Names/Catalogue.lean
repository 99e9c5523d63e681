import CanonicalTokens.CanonicalForm
import CanonicalTokens.Proofs.Names.CSharp
import CanonicalTokens.Proofs.Names.Cpp
import CanonicalTokens.Proofs.Names.Python

/-!
# Names of declarations that are alike

In every language, the names of declarations that are alike are held by nodes that are alike. In Go
all names stand under a field, so a comment is overlooked wherever it stands.
-/

namespace CanonicalTokens.Rules.Go

variable {permitted : Label → List Tree → List Tree → Prop} {related : Tree → Tree → Prop}
  {tree other : Tree}

theorem alike_bound (halike : Tree.Alike permitted related) (hrelated : related tree other) :
    List.Forall₂ related (go.bound tree) (go.bound other) := by
  apply Rules.alike_bound halike hrelated
  simp only [go, List.forall_mem_cons, List.not_mem_nil, false_imp_iff, implies_true, and_true]
  have hspecified : List.Forall₂ related (specified tree) (specified other) :=
    halike.outermostUnder "name" (by decide) hrelated
  have hassigned : List.Forall₂ related (assigned tree) (assigned other) :=
    halike.outermostUnder "left" (by decide) hrelated
  have hguard : List.Forall₂ related (guardName tree) (guardName other) :=
    halike.outermostUnder "alias" (by decide) hrelated
  exact ⟨fun _ => hspecified, fun _ => hspecified, fun _ => hspecified, fun _ => hspecified,
    fun _ => hspecified, fun _ => hassigned, fun _ => hassigned, fun _ => hassigned,
    fun _ => hguard⟩

end CanonicalTokens.Rules.Go

namespace CanonicalTokens.Language

/-- Whether the reading of names overlooks a comment between the children of a node before and
behind it. -/
def overlooks : Language → Label → List Tree → List Tree → Bool
  | cpp => fun _ _ _ => true
  | csharp => Rules.CSharp.overlooks
  | go => fun _ _ _ => true
  | python => Rules.Python.overlooks

def readings : Language → List Binder
  | cpp => [Rules.cpp.bound]
  | csharp => [Rules.csharp.bound]
  | go => [Rules.go.bound]
  | python => Rules.Python.readings

theorem alike_bound {language : Language} {related : Tree → Tree → Prop} {tree other : Tree}
    (halike : Tree.Alike
      (fun label before behind => language.overlooks label before behind) related)
    (hrelated : related tree other) :
    List.Forall₂ related (language.rules.bound tree) (language.rules.bound other) := by
  cases language with
  | cpp => exact Rules.Cpp.alike_bound halike hrelated
  | csharp => exact Rules.CSharp.alike_bound halike hrelated
  | go => exact Rules.Go.alike_bound halike hrelated
  | python => exact Rules.Python.alike_bound halike hrelated

theorem alike_readings {language : Language} {related : Tree → Tree → Prop} {tree other : Tree}
    (halike : Tree.Alike
      (fun label before behind => language.overlooks label before behind) related)
    (hrelated : related tree other) :
    ∀ reading ∈ language.readings, List.Forall₂ related (reading tree) (reading other) := by
  cases language with
  | cpp => exact List.forall_mem_singleton.mpr (alike_bound halike hrelated)
  | csharp => exact List.forall_mem_singleton.mpr (alike_bound halike hrelated)
  | go => exact List.forall_mem_singleton.mpr (alike_bound halike hrelated)
  | python => exact Rules.Python.alike_readings halike hrelated

/-- The nodes that hold the names of a construct are the construct or stand below it. -/
theorem mem_subtrees_of_mem_bound {language : Language} {tree name : Tree}
    (hname : name ∈ language.rules.bound tree) : name ∈ tree.subtrees := by
  -- A tree is alike to itself with the nodes that stand below it, so its names are, one by one.
  have halike : Tree.Alike (fun label before behind => language.overlooks label before behind)
      fun node other => node = other ∧ node.subtrees ⊆ tree.subtrees := by
    constructor
    · rintro node other ⟨rfl, -⟩
      rfl
    · rintro node other ⟨rfl, hbelow⟩
      refine .same (List.forall₂_same.mpr ?_)
      intro child hchild
      refine ⟨rfl, ?_⟩
      intro further hfurther
      exact hbelow (Tree.mem_subtrees_of_mem_children hchild hfurther)
  have hnames := language.alike_bound halike ⟨rfl, List.Subset.refl _⟩
  exact (List.forall₂_same.mp hnames name hname).2 name.self_mem_subtrees

/-- A comment that is not overlooked changes the number of names that some reading finds. -/
theorem exists_reading_of_not_overlooks {language : Language} {label : Label}
    {before behind : List Tree} {comment : Tree} (hcomment : comment.IsComment)
    (hoverlooks : language.overlooks label before behind = false) :
    ∃ reading ∈ language.readings, (reading (.node label (before ++ comment :: behind))).length ≠
      (reading (.node label (before ++ behind))).length := by
  cases language with
  | cpp => cases hoverlooks
  | csharp =>
    have hlost := Rules.CSharp.length_bound_of_not_overlooks hcomment hoverlooks
    exact ⟨Rules.csharp.bound, List.mem_singleton_self _, by omega⟩
  | go => cases hoverlooks
  | python => exact Rules.Python.exists_reading_of_not_overlooks hcomment hoverlooks

theorem isSkipped_comment (language : Language) : language.rules.isSkipped "comment" := by
  cases language <;> decide

end CanonicalTokens.Language
