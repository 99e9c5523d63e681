import Mathlib.Logic.Relation
import CanonicalTokens.Proofs.Names.Catalogue
import CanonicalTokens.Proofs.Walk.Simulation

/-!
# Comments in a tree

The walk skips comments, but the names that a construct introduces are read off its children without
it. A comment changes neither the tokens nor the tally if every construct still introduces the same
names, and neither do any number of such comments. In C++ and Go, the reading of names overlooks
every comment. In C# and Python, a comment may stand between two tokens whose neighbourhood makes a
name, and then the name is lost.
-/

namespace CanonicalTokens

namespace Tree

/-- One comment is inserted among the children of some node that has children. -/
inductive Inserted (permitted : Label → List Tree → List Tree → Prop) : Tree → Tree → Prop
  | here {label : Label} {before behind : List Tree} {comment : Tree}
      (hchildren : before ++ behind ≠ []) (hcomment : comment.IsComment)
      (hpermitted : permitted label before behind) :
      Inserted permitted (.node label (before ++ behind))
        (.node label (before ++ comment :: behind))
  | deeper {label : Label} {before behind : List Tree} {tree image : Tree}
      (hinserted : Inserted permitted tree image) :
      Inserted permitted (.node label (before ++ tree :: behind))
        (.node label (before ++ image :: behind))

def SameButComment (permitted : Label → List Tree → List Tree → Prop) (tree image : Tree) : Prop :=
  image = tree ∨ Inserted permitted tree image

variable {permitted : Label → List Tree → List Tree → Prop} {tree image : Tree}

theorem SameButComment.forall₂_self (forest : List Tree) :
    List.Forall₂ (SameButComment permitted) forest forest :=
  List.forall₂_same.mpr fun _ _ => Or.inl rfl

theorem SameButComment.label_eq (hsame : SameButComment permitted tree image) :
    image.label = tree.label := by
  rcases hsame with rfl | hinserted
  · rfl
  · cases hinserted <;> rfl

theorem SameButComment.isLeaf_eq (hsame : SameButComment permitted tree image) :
    image.isLeaf = tree.isLeaf := by
  rcases hsame with rfl | hinserted
  · rfl
  · unfold isLeaf
    rw [Bool.eq_iff_iff, List.isEmpty_iff, List.isEmpty_iff]
    cases hinserted with
    | here hchildren _ _ => simpa [children] using hchildren
    | deeper _ => simp [children]

/-- A comment that is inserted somewhere changes one node of each tree around it. -/
theorem alike_sameButComment : Alike permitted (SameButComment permitted) where
  shape tree image hsame := by rw [hsame.label_eq]
  children tree image hsame := by
    rcases hsame with rfl | hinserted
    · exact .same (SameButComment.forall₂_self _)
    · cases hinserted with
      | here _ hcomment hpermitted =>
        exact .comment (SameButComment.forall₂_self _) (SameButComment.forall₂_self _) hcomment
          hpermitted
      | deeper hinserted =>
        exact .same (List.rel_append (SameButComment.forall₂_self _)
          (.cons (Or.inr hinserted) (SameButComment.forall₂_self _)))

end Tree

namespace Walk

/-- One comment is inserted among the children of some node that has children, and every construct
that the walk visits inside introduces the same names as before. -/
inductive Overlooked (walk : Walk) : Tree → Tree → Prop
  | here {label : Label} {before behind : List Tree} {comment : Tree}
      (hchildren : before ++ behind ≠ []) (hcomment : comment.IsComment)
      (hnames : walk.rules.declaredNames walk.source (.node label (before ++ comment :: behind)) =
        walk.rules.declaredNames walk.source (.node label (before ++ behind))) :
      Overlooked walk (.node label (before ++ behind)) (.node label (before ++ comment :: behind))
  | deeper {label : Label} {before behind : List Tree} {tree image : Tree}
      (hbelow : Overlooked walk tree image)
      (hnames : walk.rules.declaredNames walk.source (.node label (before ++ image :: behind)) =
        walk.rules.declaredNames walk.source (.node label (before ++ tree :: behind))) :
      Overlooked walk (.node label (before ++ tree :: behind))
        (.node label (before ++ image :: behind))
  | passed {tree image : Tree} (hpart : walk.part tree ≠ .construct)
      (hinserted : Tree.Inserted (fun _ _ _ => True) tree image) : Overlooked walk tree image

variable {walk : Walk} {tree image : Tree}

theorem Overlooked.inserted (hoverlooked : walk.Overlooked tree image) :
    Tree.Inserted (fun _ _ _ => True) tree image := by
  induction hoverlooked with
  | here hchildren hcomment _ => exact .here hchildren hcomment trivial
  | deeper _ _ ih => exact .deeper ih
  | passed _ hinserted => exact hinserted

theorem Overlooked.declaredNames_eq (hoverlooked : walk.Overlooked tree image)
    (hpart : walk.part tree = .construct) :
    walk.rules.declaredNames walk.source image = walk.rules.declaredNames walk.source tree := by
  cases hoverlooked with
  | here _ _ hnames => exact hnames
  | deeper _ hnames => exact hnames
  | passed hpassed _ => exact absurd hpart hpassed

def SameButOverlooked (walk : Walk) (tree image : Tree) : Prop :=
  image = tree ∨ walk.Overlooked tree image

theorem SameButOverlooked.forall₂_self (forest : List Tree) :
    List.Forall₂ walk.SameButOverlooked forest forest :=
  List.forall₂_same.mpr fun _ _ => Or.inl rfl

theorem SameButOverlooked.sameButComment (hsame : walk.SameButOverlooked tree image) :
    Tree.SameButComment (fun _ _ _ => True) tree image :=
  hsame.imp_right Overlooked.inserted

theorem SameButOverlooked.sprinkled (hsame : walk.SameButOverlooked tree image)
    (hpart : walk.part tree = .construct) :
    Tree.Sprinkled walk.SameButOverlooked tree.children image.children := by
  rcases hsame with rfl | hoverlooked
  · exact .of_forall₂ (forall₂_self _)
  · cases hoverlooked with
    | here _ hcomment _ =>
      exact (Tree.Sprinkled.of_forall₂ (forall₂_self _)).append
        (.comment hcomment (.of_forall₂ (forall₂_self _)))
    | deeper hbelow _ =>
      exact (Tree.Sprinkled.of_forall₂ (forall₂_self _)).append
        (.cons (Or.inr hbelow) (.of_forall₂ (forall₂_self _)))
    | passed hpassed _ => exact absurd hpart hpassed

/-- The walk ignores a comment where it stands, and the constructs around it introduce the same
names as before. -/
theorem simulates_sameButOverlooked (hskipped : walk.rules.isSkipped "comment") :
    Simulates walk walk id walk.SameButOverlooked where
  rules := rfl
  options := rfl
  injective := Function.injective_id
  empty := rfl
  skipped := hskipped
  shape tree image hsame := by rw [hsame.sameButComment.label_eq]
  children tree image hsame hpart := hsame.sprinkled hpart
  leaf tree image hsame _ := hsame.sameButComment.isLeaf_eq
  leafText tree image hsame _ _ := by rw [Tree.text, Tree.text, hsame.sameButComment.label_eq]
  names tree image hsame hpart := by
    rw [List.map_id]
    rcases hsame with rfl | hoverlooked
    · rfl
    · exact hoverlooked.declaredNames_eq hpart
  identifier tree image hsame _ := by
    rw [Tree.text, hsame.sameButComment.label_eq]
    rfl
  literal tree image rule hsame _ := by
    rw [Tree.text, Tree.text, hsame.sameButComment.label_eq]

theorem run_eq_of_overlooked (hskipped : walk.rules.isSkipped "comment")
    (hcomments : Relation.ReflTransGen walk.Overlooked tree image) :
    walk.run image = walk.run tree := by
  induction hcomments with
  | refl => rfl
  | tail _ hoverlooked ih =>
    rw [← ih]
    exact (simulates_sameButOverlooked hskipped).run_eq (Or.inr hoverlooked)
      fun _ _ _ _ _ => rfl

/-- The names of a construct stay the same if the comment is inserted where its language overlooks
it. -/
theorem declaredNames_eq_of_inserted {source : Source} {language : Language}
    (hinserted : Tree.Inserted
      (fun label before behind => language.overlooks label before behind) tree image) :
    language.rules.declaredNames source image = language.rules.declaredNames source tree := by
  have hbound := language.alike_bound Tree.alike_sameButComment (Or.inr hinserted)
  have hnames : language.rules.declaredNames source image =
      (language.rules.declaredNames source tree).map id := by
    refine Rules.declaredNames_eq_map (hbound.imp ?_)
    intro name found hname
    rw [Tree.text, Tree.text, hname.label_eq]
    rfl
  rwa [List.map_id] at hnames

theorem overlooked_of_inserted {source : Source} {language : Language} {options : WalkOptions}
    (hinserted : Tree.Inserted
      (fun label before behind => language.overlooks label before behind) tree image) :
    Overlooked ⟨source, language.rules, options⟩ tree image := by
  have hnames := @declaredNames_eq_of_inserted _ _ source _ hinserted
  induction hinserted with
  | here hchildren hcomment _ => exact .here hchildren hcomment hnames
  | deeper hbelow ih => exact .deeper (ih (declaredNames_eq_of_inserted hbelow)) hnames

/-- A comment is overlooked exactly if every reading finds as many names with it as without. -/
theorem overlooks_iff {language : Language} {label : Label} {before behind : List Tree}
    {comment : Tree} (hchildren : before ++ behind ≠ []) (hcomment : comment.IsComment) :
    language.overlooks label before behind ↔
      ∀ reading ∈ language.readings, (reading (.node label (before ++ comment :: behind))).length =
        (reading (.node label (before ++ behind))).length := by
  constructor
  · intro hoverlooks reading hreading
    have hinserted : Tree.Inserted
        (fun label before behind => language.overlooks label before behind)
        (.node label (before ++ behind)) (.node label (before ++ comment :: behind)) :=
      .here hchildren hcomment hoverlooks
    exact (language.alike_readings Tree.alike_sameButComment (Or.inr hinserted) reading
      hreading).length_eq.symm
  · intro hsame
    by_contra hoverlooks
    obtain ⟨reading, hreading, hlength⟩ :=
      language.exists_reading_of_not_overlooks hcomment (Bool.eq_false_iff.mpr hoverlooks)
    exact hlength (hsame reading hreading)

/-- Any number of comments changes neither the tokens nor the tally of a walk, as long as the
constructs that it visits inside introduce the same names. They do so for a comment that the reading
of names overlooks where it stands. For no other comment do all readings find as many names as
without it. -/
theorem run_eq_of_comments (source : Source) (language : Language) (options : WalkOptions) :
    (∀ tree image, Relation.ReflTransGen (Overlooked ⟨source, language.rules, options⟩) tree image →
        Walk.run ⟨source, language.rules, options⟩ image =
          Walk.run ⟨source, language.rules, options⟩ tree) ∧
      (∀ tree image, Tree.Inserted
          (fun label before behind => language.overlooks label before behind) tree image →
        Overlooked ⟨source, language.rules, options⟩ tree image) ∧
      ∀ label before behind comment, before ++ behind ≠ [] → comment.IsComment →
        (language.overlooks label before behind ↔ ∀ reading ∈ language.readings,
          (reading (.node label (before ++ comment :: behind))).length =
            (reading (.node label (before ++ behind))).length) :=
  ⟨fun _ _ => run_eq_of_overlooked language.isSkipped_comment, fun _ _ => overlooked_of_inserted,
    fun _ _ _ _ => overlooks_iff⟩

/-! ### A member of an anonymous object -/

def memberSource : Source := .ofString "new \x7b Name /* n */ = 1 \x7d"

def memberLabel : Label := .sound "anonymous_object_creation_expression" true 0 24 none

def memberOpening : List Tree :=
  [.node (.sound "new" false 0 3 none) [], .node (.sound "\x7b" false 4 5 none) []]

def memberName : Tree := .node (.sound "identifier" true 6 10 none) []

def memberComment : Tree := .node (.sound "comment" true 11 18 none) []

def memberValue : List Tree :=
  [.node (.sound "=" false 19 20 none) [], .node (.sound "integer_literal" true 21 22 none) [],
    .node (.sound "\x7d" false 23 24 none) []]

def memberTree : Tree := .node memberLabel (memberOpening ++ memberName :: memberValue)

/-- A comment before the name of a member leaves the name next to its equals sign. -/
theorem run_eq_of_comment_before_member :
    Overlooked ⟨memberSource, Language.csharp.rules, .standard⟩ memberTree
        (.node memberLabel (memberOpening ++ memberComment :: memberName :: memberValue)) ∧
      Walk.run ⟨memberSource, Language.csharp.rules, .standard⟩
          (.node memberLabel (memberOpening ++ memberComment :: memberName :: memberValue)) =
        Walk.run ⟨memberSource, Language.csharp.rules, .standard⟩ memberTree := by
  have hinserted : Tree.Inserted
      (fun label before behind => Language.csharp.overlooks label before behind) memberTree
      (.node memberLabel (memberOpening ++ memberComment :: memberName :: memberValue)) :=
    .here (by simp) ⟨11, 18, rfl⟩ (by decide)
  have hoverlooked := (run_eq_of_comments memberSource .csharp .standard).2.1 _ _ hinserted
  exact ⟨hoverlooked,
    (run_eq_of_comments memberSource .csharp .standard).1 _ _ (.single hoverlooked)⟩

/-- A comment between the name of a member and its equals sign is not overlooked: the name is not
declared, so it is emitted as it is. -/
theorem comment_hides_member :
    ¬ ∀ (source : Source) (language : Language) (options : WalkOptions) (tree image : Tree),
      Relation.ReflTransGen (Tree.Inserted fun _ _ _ => True) tree image →
        Walk.run ⟨source, language.rules, options⟩ image =
          Walk.run ⟨source, language.rules, options⟩ tree := by
  intro hclaim
  have hinserted : Tree.Inserted (fun _ _ _ => True)
      (.node memberLabel ((memberOpening ++ [memberName]) ++ memberValue))
      (.node memberLabel ((memberOpening ++ [memberName]) ++ memberComment :: memberValue)) :=
    .here (by simp) ⟨11, 18, rfl⟩ trivial
  have hrun := hclaim memberSource .csharp .standard _ _ (.single hinserted)
  have htokens := congrArg Walked.tokens hrun
  rw [run, run, Visitor.traverse_eq_fold, Visitor.traverse_eq_fold] at htokens
  revert htokens
  decide

end Walk

end CanonicalTokens
