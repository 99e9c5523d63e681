import CanonicalTokens.Proofs.Names.Alike
import CanonicalTokens.Rules.Python

/-!
# Names of Python declarations that are alike

Targets and parameters are found by their kinds, so comments between them are overlooked. Some
readings count children, though: the name of a typed parameter is its first named child, the alias
of a handler is what directly follows `as`, a capture is the only named child of its pattern, and
that of a keyword pattern is the last. A comment that takes such a place is not overlooked.
-/

namespace CanonicalTokens.Rules.Python

/-- Whether the reading of names overlooks a comment between the children before and behind it. It
does if there is no name to lose, or if the comment takes the place of no child that counts. -/
def overlooks (label : Label) (before behind : List Tree) : Bool :=
  if label.kind = "typed_parameter" then
    before.any Tree.isNamed || (firstParameter behind).isEmpty
  else if label.kind = "except_clause" then
    !before.getLast?.any isAs || !(afterAs before).isEmpty || (afterAs (before ++ behind)).isEmpty
  else if label.kind = "case_pattern" then (casePattern (.node label (before ++ behind))).isEmpty
  else if label.kind = "dotted_name" then (capturedName (.node label (before ++ behind))).isEmpty
  else if label.kind = "keyword_pattern" then
    if behind.any Tree.isNamed then
      before.any Tree.isNamed || (casePattern (.node label behind)).isEmpty
    else (keywordPattern (.node label before)).isEmpty
  else true

/-- The readings by which names are found. A parameter and a capture may stand below the node that
declares them. -/
def readings : List Binder :=
  [python.bound, parameter, capturedName]

/-! ### Readings of a comment -/

theorem namedTargets_eq (forest : List Tree) :
    namedTargets forest = (forest.filter Tree.isNamed).flatMap target := by
  induction forest with
  | nil => rfl
  | cons tree rest ih =>
    rw [namedTargets, ih, List.filter_cons]
    split <;> simp

theorem target_comment {comment : Tree} (hcomment : comment.IsComment) : target comment = [] := by
  obtain ⟨start, stop, rfl⟩ := hcomment
  simp [target, targetContainers, Label.sound]

theorem parameter_comment {comment : Tree} (hcomment : comment.IsComment) :
    parameter comment = [] := by
  obtain ⟨start, stop, rfl⟩ := hcomment
  simp [parameter, Label.sound]

theorem capturedName_comment {comment : Tree} (hcomment : comment.IsComment) :
    capturedName comment = [] := by
  simp [capturedName, hcomment.kind_eq]

theorem isAs_comment {comment : Tree} (hcomment : comment.IsComment) : isAs comment = false := by
  simp [isAs, hcomment.isNamed]

variable {permitted : Label → List Tree → List Tree → Prop} {related : Tree → Tree → Prop}
  {tree other : Tree}

/-! ### Targets -/

section

variable (halike : Tree.Alike permitted related)

include halike

/-- Targets bind related names in related trees, however they are nested. -/
theorem alike_target (hrelated : related tree other) :
    List.Forall₂ related (target tree) (target other) := by
  induction tree using Tree.children_induction generalizing other with
  | node label children ih =>
    obtain ⟨image, images⟩ := other
    have hkind : image.kind = label.kind := halike.kind_eq hrelated
    have hnamed := (halike.namedChildren hrelated).flatMap
      (fun child hchild other => ih child (List.mem_of_mem_filter hchild))
      fun comment => target_comment
    rw [target, target, hkind, namedTargets_eq, namedTargets_eq]
    by_cases hidentifier : label.kind = "identifier"
    · rw [if_pos hidentifier, if_pos hidentifier]
      exact .cons hrelated .nil
    rw [if_neg hidentifier, if_neg hidentifier]
    by_cases hattribute : label.kind = "attribute"
    · rw [if_pos hattribute, if_pos hattribute]
      obtain ⟨hnone, hother⟩ | ⟨child, found, hchild, hfound, hsame⟩ :=
        halike.childUnder? "attribute" hrelated
      · rw [Tree.childUnder?, Tree.children] at hnone hother
        rw [hnone, hother]
        exact .nil
      · rw [Tree.childUnder?, Tree.children] at hchild hfound
        rw [hchild, hfound]
        exact .cons hsame .nil
    rw [if_neg hattribute, if_neg hattribute]
    split
    · exact hnamed
    · exact .nil

theorem alike_targetUnder (field : String) (hrelated : related tree other) :
    List.Forall₂ related (targetUnder field tree) (targetUnder field other) := by
  unfold targetUnder
  obtain ⟨hnone, hother⟩ | ⟨child, image, hchild, himage, hsame⟩ :=
    halike.childUnder? field hrelated
  · rw [hnone, hother]
    exact .nil
  · rw [hchild, himage]
    exact alike_target halike hsame

theorem alike_clauseTargets (hrelated : related tree other) :
    List.Forall₂ related (clauseTargets tree) (clauseTargets other) := by
  have hclauses := (halike.namedChildren hrelated).filter
    (fun child => child.kind = "for_in_clause")
    (fun _ _ hchild => by rw [halike.kind_eq hchild]) fun _ hcomment => by simp [hcomment.kind_eq]
  exact List.rel_flatMap hclauses fun _ _ hclause => alike_targetUnder halike "left" hclause

end

/-! ### Parameters -/

theorem firstParameter_append (before behind : List Tree) :
    firstParameter (before ++ behind) =
      if before.any Tree.isNamed then firstParameter before else firstParameter behind := by
  induction before with
  | nil => rfl
  | cons tree rest ih =>
    rw [List.cons_append, firstParameter, firstParameter, ih, List.any_cons]
    cases tree.isNamed <;> simp

theorem firstParameter_comment_cons {comment : Tree} (hcomment : comment.IsComment)
    (behind : List Tree) : firstParameter (comment :: behind) = [] := by
  rw [firstParameter, if_pos hcomment.isNamed, parameter_comment hcomment]

theorem alike_firstParameter (halike : Tree.Alike permitted related) {forest others : List Tree}
    (hforest : List.Forall₂ related forest others)
    (hparameter : ∀ tree ∈ forest, ∀ other, related tree other →
      List.Forall₂ related (parameter tree) (parameter other)) :
    List.Forall₂ related (firstParameter forest) (firstParameter others) := by
  induction hforest with
  | nil => exact .nil
  | @cons tree other forest others hrelated _ ih =>
    have hfirst := hparameter tree List.mem_cons_self other hrelated
    have hlater := ih fun later hmem => hparameter later (List.mem_cons_of_mem tree hmem)
    rw [firstParameter, firstParameter, halike.isNamed_eq hrelated]
    split
    · exact hfirst
    · exact hlater

section

variable (halike : Tree.Alike (fun label before behind => overlooks label before behind) related)

include halike

/-- Parameters bind related names in related trees, however they are written. -/
theorem alike_parameter (hrelated : related tree other) :
    List.Forall₂ related (parameter tree) (parameter other) := by
  induction tree using Tree.children_induction generalizing other with
  | node label children ih =>
    obtain ⟨image, images⟩ := other
    have hkind : image.kind = label.kind := halike.kind_eq hrelated
    have houtermost : List.Forall₂ related (Tree.outermost ["identifier"] (.node label children))
        (Tree.outermost ["identifier"] (.node image images)) :=
      halike.outermost (by decide) hrelated
    rw [parameter, parameter, hkind]
    by_cases hidentifier : label.kind = "identifier"
    · rw [if_pos hidentifier, if_pos hidentifier]
      exact .cons hrelated .nil
    rw [if_neg hidentifier, if_neg hidentifier]
    by_cases htyped : label.kind = "typed_parameter"
    · rw [if_pos htyped, if_pos htyped]
      have hchildren : Tree.Commented related
          (fun before behind => overlooks label before behind) children images :=
        halike.children _ _ hrelated
      cases hchildren with
      | same hforest => exact alike_firstParameter halike hforest ih
      | @comment before befores behind behinds comment hbefore hbehind hcomment hpermitted =>
        rw [overlooks, if_pos htyped] at hpermitted
        rw [firstParameter_append, firstParameter_append, halike.any_isNamed_eq hbefore,
          firstParameter_comment_cons hcomment]
        by_cases hnamed : before.any Tree.isNamed
        · rw [if_pos hnamed, if_pos hnamed]
          exact alike_firstParameter halike hbefore fun tree hmem _ =>
            ih tree (List.mem_append_left behind hmem)
        · have hnone : firstParameter behind = [] := by simpa [hnamed] using hpermitted
          rw [if_neg hnamed, if_neg hnamed, hnone]
          exact .nil
    rw [if_neg htyped, if_neg htyped]
    split
    · obtain ⟨hnone, hother⟩ | ⟨name, found, hname, hfound, hsame⟩ :=
        halike.childUnder? "name" hrelated
      · rw [hnone, hother]
        exact .nil
      · rw [hname, hfound]
        exact halike.outermost (by decide) hsame
    · split
      · exact houtermost
      · exact .nil

theorem alike_parameters (hrelated : related tree other) :
    List.Forall₂ related (parameters tree) (parameters other) :=
  (halike.namedChildren hrelated).flatMap (fun _ _ _ => alike_parameter halike)
    fun _ => parameter_comment

end

/-! ### Aliases -/

theorem isAs_eq (halike : Tree.Alike permitted related) (hrelated : related tree other) :
    isAs other = isAs tree := by
  rw [isAs, isAs, halike.isNamed_eq hrelated, halike.kind_eq hrelated]

theorem afterAs_cons_of_not_isAs {tree : Tree} (hkeyword : isAs tree = false)
    (rest : List Tree) : afterAs (tree :: rest) = afterAs rest := by
  cases rest with
  | nil => rfl
  | cons next rest => simp [afterAs, hkeyword]

theorem alike_afterAs (halike : Tree.Alike permitted related) {forest others : List Tree}
    (hforest : List.Forall₂ related forest others) :
    List.Forall₂ related (afterAs forest) (afterAs others) := by
  induction hforest with
  | nil => exact .nil
  | cons hkeyword hrest ih =>
    cases hrest with
    | nil => exact .nil
    | cons hnext hrest =>
      rw [afterAs, afterAs, isAs_eq halike hkeyword, halike.isNamed_eq hnext]
      split
      · exact alike_target halike hnext
      · exact ih

/-- A comment directly behind the keyword is overlooked only if the alias stands elsewhere or is no
name. -/
theorem alike_afterAs_comment (halike : Tree.Alike permitted related)
    {before befores behind behinds : List Tree} {comment : Tree}
    (hbefore : List.Forall₂ related before befores)
    (hbehind : List.Forall₂ related behind behinds) (hcomment : comment.IsComment)
    (hoverlooked : before.getLast?.any isAs → afterAs before = [] →
      afterAs (before ++ behind) = []) :
    List.Forall₂ related (afterAs (before ++ behind))
      (afterAs (befores ++ comment :: behinds)) := by
  induction hbefore with
  | nil =>
    rw [List.nil_append, List.nil_append, afterAs_cons_of_not_isAs (isAs_comment hcomment)]
    exact alike_afterAs halike hbehind
  | @cons keyword image before befores hkeyword hbefore ih =>
    cases hbefore with
    | nil =>
      have himage := isAs_eq halike hkeyword
      by_cases has : isAs keyword
      · have hnone : afterAs ([keyword] ++ behind) = [] := hoverlooked (by simpa using has) rfl
        have hcut : afterAs ([image] ++ comment :: behinds) = [] := by
          simp [afterAs, himage, has, hcomment.isNamed, target_comment hcomment]
        rw [hnone, hcut]
        exact .nil
      · have hkeep : isAs keyword = false := by simpa using has
        rw [List.singleton_append, List.singleton_append, afterAs_cons_of_not_isAs hkeep,
          afterAs_cons_of_not_isAs (himage.trans hkeep),
          afterAs_cons_of_not_isAs (isAs_comment hcomment)]
        exact alike_afterAs halike hbehind
    | @cons next nextImage before befores hnext hbefore =>
      rw [List.cons_append, List.cons_append, List.cons_append, List.cons_append, afterAs,
        afterAs, isAs_eq halike hkeyword, halike.isNamed_eq hnext]
      by_cases halias : isAs keyword && next.isNamed
      · rw [if_pos halias, if_pos halias]
        exact alike_target halike hnext
      · rw [if_neg halias, if_neg halias]
        refine ih ?_
        intro hlast hnone
        have hsame := hoverlooked (by simpa using hlast)
        rw [afterAs, if_neg halias, List.cons_append, List.cons_append, afterAs, if_neg halias]
          at hsame
        exact hsame hnone

/-- The alias of a handler stands right behind its keyword, so not every comment is overlooked
there. -/
theorem alike_handlerAlias
    (halike : Tree.Alike (fun label before behind => overlooks label before behind) related)
    (hkind : tree.kind = "except_clause") (hrelated : related tree other) :
    List.Forall₂ related (handlerAlias tree) (handlerAlias other) := by
  have hchildren := halike.children tree other hrelated
  have hlabel : tree.label.kind = "except_clause" := hkind
  unfold handlerAlias
  generalize tree.children = forest, other.children = others at hchildren
  cases hchildren with
  | same hforest => exact alike_afterAs halike hforest
  | comment hbefore hbehind hcomment hpermitted =>
    rw [overlooks, hlabel, if_neg (by decide), if_pos rfl] at hpermitted
    refine alike_afterAs_comment halike hbefore hbehind hcomment ?_
    intro hlast hnone
    simpa [hlast, hnone] using hpermitted

/-! ### Captures -/

def lastCapture (named : List Tree) : List Tree :=
  if named.length < 2 then [] else named.getLast?.toList.flatMap capturedName

theorem lastCapture_singleton (only : Tree) : lastCapture [only] = [] := rfl

theorem lastCapture_pair (first last : Tree) :
    lastCapture [first, last] = capturedName last := by
  simp [lastCapture]

theorem lastCapture_concat_comment {comment : Tree} (hcomment : comment.IsComment)
    (named : List Tree) : lastCapture (named ++ [comment]) = [] := by
  unfold lastCapture
  rw [List.getLast?_concat]
  split
  · rfl
  · simp [capturedName_comment hcomment]

theorem keywordPattern_eq (tree : Tree) :
    keywordPattern tree = lastCapture tree.namedChildren := by
  unfold keywordPattern lastCapture
  rcases tree.namedChildren with _ | ⟨first, _ | ⟨second, rest⟩⟩
  · rfl
  · rfl
  · have hseveral : ¬ rest.length + 1 + 1 < 2 := by omega
    simp [List.getLast?_eq_some_getLast, hseveral]

/-- A comment between the children leaves no child on its own to be captured. -/
theorem capturedName_of_comment {comment : Tree} (hcomment : comment.IsComment)
    (hmem : comment ∈ tree.children) : capturedName tree = [] := by
  have hnamed : comment ∈ tree.namedChildren := List.mem_filter.mpr ⟨hmem, hcomment.isNamed⟩
  unfold capturedName
  split
  · split
    · rename_i name honly
      obtain rfl : comment = name := by simpa [honly] using hnamed
      simp [hcomment.kind_eq]
    · rfl
  · rfl

/-- A comment among the children of a case pattern hides its name. -/
theorem casePattern_of_comment {comment : Tree} (hcomment : comment.IsComment)
    (hmem : comment ∈ tree.children) : casePattern tree = [] := by
  have hnamed : comment ∈ tree.namedChildren := List.mem_filter.mpr ⟨hmem, hcomment.isNamed⟩
  unfold casePattern
  split
  · rename_i only honly
    obtain rfl : comment = only := by simpa [honly] using hnamed
    exact capturedName_comment hcomment
  · rfl

section

variable (halike : Tree.Alike (fun label before behind => overlooks label before behind) related)

include halike

/-- A captured name is a dotted name of one part, so a comment among its parts would hide it. -/
theorem alike_capturedName (hrelated : related tree other) :
    List.Forall₂ related (capturedName tree) (capturedName other) := by
  obtain ⟨label, children⟩ := tree
  obtain ⟨image, images⟩ := other
  have hkind : image.kind = label.kind := halike.kind_eq hrelated
  have hchildren : Tree.Commented related
      (fun before behind => overlooks label before behind) children images :=
    halike.children _ _ hrelated
  cases hchildren with
  | same hforest =>
    have hnamed : List.Forall₂ related (Tree.namedChildren (.node label children))
        (Tree.namedChildren (.node image images)) := halike.filter_isNamed hforest
    unfold capturedName
    generalize Tree.namedChildren (.node label children) = named,
      Tree.namedChildren (.node image images) = nameds at hnamed ⊢
    rw [halike.kind_eq hrelated]
    split
    · cases hnamed with
      | nil => exact .nil
      | cons hname hrest =>
        cases hrest with
        | nil =>
          dsimp only
          rw [halike.kind_eq hname]
          split
          · exact .cons hname .nil
          · exact .nil
        | cons _ _ => exact .nil
    · exact .nil
  | @comment before befores behind behinds comment hbefore hbehind hcomment hpermitted =>
    have hother : capturedName (.node image (befores ++ comment :: behinds)) = [] :=
      capturedName_of_comment hcomment (by simp [Tree.children])
    rw [hother]
    by_cases hdotted : label.kind = "dotted_name"
    · rw [overlooks, hdotted] at hpermitted
      have hnone : capturedName (.node label (before ++ behind)) = [] := by simpa using hpermitted
      rw [hnone]
      exact .nil
    · have hnone : capturedName (.node label (before ++ behind)) = [] := if_neg hdotted
      rw [hnone]
      exact .nil

/-- A case pattern captures its only named child, so a comment beside a name would hide it. -/
theorem alike_casePattern (hkind : tree.kind = "case_pattern") (hrelated : related tree other) :
    List.Forall₂ related (casePattern tree) (casePattern other) := by
  obtain ⟨label, children⟩ := tree
  obtain ⟨image, images⟩ := other
  have hlabel : label.kind = "case_pattern" := hkind
  have hchildren : Tree.Commented related
      (fun before behind => overlooks label before behind) children images :=
    halike.children _ _ hrelated
  cases hchildren with
  | same hforest =>
    have hnamed : List.Forall₂ related (Tree.namedChildren (.node label children))
        (Tree.namedChildren (.node image images)) := halike.filter_isNamed hforest
    unfold casePattern
    generalize Tree.namedChildren (.node label children) = named,
      Tree.namedChildren (.node image images) = nameds at hnamed ⊢
    cases hnamed with
    | nil => exact .nil
    | cons honly hrest =>
      cases hrest with
      | nil => exact alike_capturedName halike honly
      | cons _ _ => exact .nil
  | @comment before befores behind behinds comment hbefore hbehind hcomment hpermitted =>
    have hother : casePattern (.node image (befores ++ comment :: behinds)) = [] :=
      casePattern_of_comment hcomment (by simp [Tree.children])
    have hnone : casePattern (.node label (before ++ behind)) = [] := by
      simpa [overlooks, hlabel] using hpermitted
    rw [hnone, hother]
    exact .nil

theorem alike_lastCapture {named nameds : List Tree} (hnamed : List.Forall₂ related named nameds) :
    List.Forall₂ related (lastCapture named) (lastCapture nameds) := by
  have hlast : List.Forall₂ related named.getLast?.toList nameds.getLast?.toList := by
    induction hnamed with
    | nil => exact .nil
    | cons hfirst hrest ih =>
      cases hrest with
      | nil => exact .cons hfirst .nil
      | cons hsecond hrest =>
        rw [List.getLast?_cons_cons, List.getLast?_cons_cons]
        exact ih
  unfold lastCapture
  rw [hnamed.length_eq]
  split
  · exact .nil
  · exact List.rel_flatMap hlast fun _ _ => alike_capturedName halike

/-- Behind a comment, the last of the children is captured, even if it is the only one. -/
theorem alike_lastCapture_comment {comment : Tree} (hcomment : comment.IsComment)
    {front fronts back backs : List Tree} (hfront : List.Forall₂ related front fronts)
    (hback : List.Forall₂ related back backs)
    (hoverlooked : back = [] → lastCapture front = [])
    (halone : ∀ only, front = [] → back = [only] → capturedName only = []) :
    List.Forall₂ related (lastCapture (front ++ back))
      (lastCapture (fronts ++ comment :: backs)) := by
  have hlast : (fronts ++ comment :: backs).getLast? = (comment :: backs).getLast? :=
    List.getLast?_append_of_ne_nil _ (List.cons_ne_nil _ _)
  cases hback with
  | nil =>
    rw [List.append_nil, hoverlooked rfl, lastCapture_concat_comment hcomment]
    exact .nil
  | @cons only image back backs honly hback =>
    -- A child that is alone is nobody's value, but behind a comment it is read as one.
    by_cases hsingle : front = [] ∧ back = []
    · obtain ⟨rfl, rfl⟩ := hsingle
      cases hfront
      cases hback
      have hcapture := alike_capturedName halike honly
      rw [halone only rfl rfl, List.forall₂_nil_left_iff] at hcapture
      rw [List.nil_append, List.nil_append, lastCapture_singleton, lastCapture_pair, hcapture]
      exact .nil
    · have hfrontLength := hfront.length_eq
      have hbackLength := hback.length_eq
      have hseveral : 2 ≤ (fronts ++ image :: backs).length := by
        rw [List.length_append, List.length_cons, ← hfrontLength, ← hbackLength]
        rw [← List.length_eq_zero_iff, ← List.length_eq_zero_iff] at hsingle
        omega
      have hmore : 2 ≤ (fronts ++ comment :: image :: backs).length := by
        simp only [List.length_append, List.length_cons] at hseveral ⊢
        omega
      have hsame : lastCapture (fronts ++ comment :: image :: backs) =
          lastCapture (fronts ++ image :: backs) := by
        rw [lastCapture, lastCapture, if_neg (Nat.not_lt.mpr hmore),
          if_neg (Nat.not_lt.mpr hseveral), hlast, List.getLast?_cons_cons,
          List.getLast?_append_of_ne_nil _ (List.cons_ne_nil _ _)]
      rw [hsame]
      exact alike_lastCapture halike (List.rel_append hfront (.cons honly hback))

/-- A keyword pattern captures its last named child, so a comment behind a name would hide it. -/
theorem alike_keywordPattern (hkind : tree.kind = "keyword_pattern")
    (hrelated : related tree other) :
    List.Forall₂ related (keywordPattern tree) (keywordPattern other) := by
  rw [keywordPattern_eq, keywordPattern_eq]
  obtain ⟨label, children⟩ := tree
  obtain ⟨image, images⟩ := other
  have hlabel : label.kind = "keyword_pattern" := hkind
  have hchildren : Tree.Commented related
      (fun before behind => overlooks label before behind) children images :=
    halike.children _ _ hrelated
  unfold Tree.namedChildren Tree.children
  dsimp only
  cases hchildren with
  | same hforest => exact alike_lastCapture halike (halike.filter_isNamed hforest)
  | @comment before befores behind behinds comment hbefore hbehind hcomment hpermitted =>
    rw [List.filter_append, List.filter_append, List.filter_cons, if_pos hcomment.isNamed]
    refine alike_lastCapture_comment halike hcomment (halike.filter_isNamed hbefore)
      (halike.filter_isNamed hbehind) ?_ ?_
    · intro hnone
      have hlast : behind.any Tree.isNamed = false := by simpa using hnone
      rw [overlooks, hlabel, hlast] at hpermitted
      have hcapture : keywordPattern (.node label before) = [] := by simpa using hpermitted
      rwa [keywordPattern_eq] at hcapture
    · intro only hnone honly
      have hfirst : before.any Tree.isNamed = false := by simpa using hnone
      have hmem : only ∈ behind.filter Tree.isNamed := honly ▸ List.mem_singleton_self only
      have hlast : behind.any Tree.isNamed :=
        List.any_eq_true.mpr ⟨only, List.mem_filter.mp hmem⟩
      rw [overlooks, hlabel, hfirst, hlast] at hpermitted
      have hcapture : casePattern (.node label behind) = [] := by simpa using hpermitted
      rw [casePattern, Tree.namedChildren, Tree.children, honly] at hcapture
      exact hcapture

/-- All Python constructs find related names in related trees. -/
theorem alike_bound (hrelated : related tree other) :
    List.Forall₂ related (python.bound tree) (python.bound other) := by
  apply Rules.alike_bound halike hrelated
  simp only [python, List.forall_mem_cons, List.not_mem_nil, false_imp_iff, implies_true, and_true]
  have hleft := alike_targetUnder halike "left" hrelated
  have hclauses := alike_clauseTargets halike hrelated
  have hparameters := alike_parameters halike hrelated
  have hsplat : List.Forall₂ related (splatPattern tree) (splatPattern other) :=
    halike.outermost (by decide) hrelated
  exact ⟨fun _ => hleft, fun _ => hleft, fun _ => alike_targetUnder halike "name" hrelated,
    fun _ => hparameters, fun _ => hparameters, fun _ => hleft, fun _ => hclauses,
    fun _ => hclauses, fun _ => hclauses, fun _ => hclauses,
    fun _ => alike_targetUnder halike "alias" hrelated,
    fun hkind => alike_handlerAlias halike hkind hrelated,
    fun hkind => alike_casePattern halike hkind hrelated,
    fun hkind => alike_keywordPattern halike hkind hrelated, fun _ => hsplat⟩

theorem alike_readings (hrelated : related tree other) :
    ∀ reading ∈ readings, List.Forall₂ related (reading tree) (reading other) := by
  simp only [readings, List.forall_mem_cons, List.not_mem_nil, false_imp_iff, implies_true,
    and_true]
  exact ⟨alike_bound halike hrelated, alike_parameter halike hrelated,
    alike_capturedName halike hrelated⟩

end

/-! ### Comments that are not overlooked -/

theorem length_ne_of_isEmpty_ne {found others : List Tree}
    (hempty : found.isEmpty ≠ others.isEmpty) : found.length ≠ others.length := by
  intro hlength
  rw [Ne, Bool.eq_iff_iff, List.isEmpty_iff_length_eq_zero, List.isEmpty_iff_length_eq_zero,
    hlength] at hempty
  exact hempty Iff.rfl

theorem bound_eq {label : Label} {binder : Binder}
    (hbinder : python.declarations.lookup label.kind = some binder) (children : List Tree) :
    python.bound (.node label children) = binder (.node label children) :=
  bound_of_lookup hbinder

theorem parameter_of_typed {label : Label} (hkind : label.kind = "typed_parameter")
    (children : List Tree) : parameter (.node label children) = firstParameter children := by
  rw [parameter, hkind, if_neg (by decide), if_pos rfl]

/-- A comment right behind the keyword takes the place of the name. -/
theorem afterAs_of_comment {before : List Tree} {comment : Tree} (hcomment : comment.IsComment)
    (hlast : before.getLast?.any isAs) (hnone : afterAs before = []) (behind : List Tree) :
    afterAs (before ++ comment :: behind) = [] := by
  induction before with
  | nil => simp at hlast
  | cons keyword before ih =>
    cases before with
    | nil =>
      have has : isAs keyword := by simpa using hlast
      rw [List.singleton_append, afterAs, has, hcomment.isNamed, target_comment hcomment]
      rfl
    | cons next before =>
      rw [afterAs] at hnone
      rw [List.cons_append, List.cons_append, afterAs]
      split at hnone
      next halias => rw [if_pos halias, hnone]
      next halias =>
        rw [if_neg halias]
        exact ih (by simpa using hlast) hnone

theorem exists_of_casePattern {tree : Tree} (hcaptured : (casePattern tree).isEmpty = false) :
    ∃ only, tree.namedChildren = [only] ∧ (capturedName only).isEmpty = false := by
  unfold casePattern at hcaptured
  split at hcaptured
  next only honly => exact ⟨only, honly, hcaptured⟩
  next => cases hcaptured

theorem keywordPattern_of_named {label : Label} (before behind : List Tree) :
    keywordPattern (.node label (before ++ behind)) =
      lastCapture (before.filter Tree.isNamed ++ behind.filter Tree.isNamed) := by
  rw [keywordPattern_eq, Tree.namedChildren, Tree.children, List.filter_append]

/-- A comment behind the value of a keyword pattern takes its capture away, and one before the only
child makes a capture of it. -/
theorem isEmpty_keywordPattern_ne {label : Label} {before behind : List Tree} {comment : Tree}
    (hcomment : comment.IsComment)
    (hcaptured : (if behind.any Tree.isNamed then
        before.any Tree.isNamed || (casePattern (.node label behind)).isEmpty
      else (keywordPattern (.node label before)).isEmpty) = false) :
    (keywordPattern (.node label (before ++ comment :: behind))).isEmpty ≠
      (keywordPattern (.node label (before ++ behind))).isEmpty := by
  rw [keywordPattern_of_named, keywordPattern_of_named, List.filter_cons, if_pos hcomment.isNamed]
  split at hcaptured
  next hlast =>
    obtain ⟨hnone, hname⟩ : before.any Tree.isNamed = false ∧
        (casePattern (.node label behind)).isEmpty = false := by
      simpa only [Bool.or_eq_false_iff] using hcaptured
    obtain ⟨only, honly, hname⟩ := exists_of_casePattern hname
    rw [Tree.namedChildren, Tree.children] at honly
    rw [List.any_eq_false, ← List.filter_eq_nil_iff] at hnone
    rw [hnone, honly, List.nil_append, List.nil_append, lastCapture_pair, lastCapture_singleton,
      hname]
    decide
  next hlast =>
    have hnone : behind.filter Tree.isNamed = [] := by simpa using hlast
    rw [keywordPattern_eq, Tree.namedChildren, Tree.children] at hcaptured
    rw [hnone, lastCapture_concat_comment hcomment, List.append_nil, hcaptured]
    decide

/-- Some reading finds more names or fewer if a comment is not overlooked. -/
theorem exists_reading_of_not_overlooks {label : Label} {before behind : List Tree}
    {comment : Tree} (hcomment : comment.IsComment)
    (hoverlooks : overlooks label before behind = false) :
    ∃ reading ∈ readings, (reading (.node label (before ++ comment :: behind))).length ≠
      (reading (.node label (before ++ behind))).length := by
  have hmem : comment ∈ (Tree.node label (before ++ comment :: behind)).children := by
    simp [Tree.children]
  unfold overlooks at hoverlooks
  split at hoverlooks
  next hkind =>
    refine ⟨parameter, by simp [readings], length_ne_of_isEmpty_ne ?_⟩
    obtain ⟨hnamed, hname⟩ : before.any Tree.isNamed = false ∧
        (firstParameter behind).isEmpty = false := by
      simpa only [Bool.or_eq_false_iff] using hoverlooks
    rw [parameter_of_typed hkind, parameter_of_typed hkind, firstParameter_append,
      firstParameter_append, hnamed, if_neg Bool.false_ne_true, if_neg Bool.false_ne_true,
      firstParameter_comment_cons hcomment, hname]
    decide
  split at hoverlooks
  next hkind =>
    have hbinder : python.declarations.lookup label.kind = some handlerAlias := by
      rw [hkind]
      rfl
    refine ⟨python.bound, by simp [readings], length_ne_of_isEmpty_ne ?_⟩
    obtain ⟨⟨hlast, hnone⟩, hname⟩ : (before.getLast?.any isAs ∧ afterAs before = []) ∧
        (afterAs (before ++ behind)).isEmpty = false := by
      simpa only [Bool.or_eq_false_iff, Bool.not_eq_false', List.isEmpty_iff] using hoverlooks
    rw [bound_eq hbinder, bound_eq hbinder, handlerAlias, handlerAlias, Tree.children,
      Tree.children, afterAs_of_comment hcomment hlast hnone, hname]
    decide
  split at hoverlooks
  next hkind =>
    have hbinder : python.declarations.lookup label.kind = some casePattern := by
      rw [hkind]
      rfl
    refine ⟨python.bound, by simp [readings], length_ne_of_isEmpty_ne ?_⟩
    rw [bound_eq hbinder, bound_eq hbinder, casePattern_of_comment hcomment hmem, hoverlooks]
    decide
  split at hoverlooks
  next hkind =>
    refine ⟨capturedName, by simp [readings], length_ne_of_isEmpty_ne ?_⟩
    rw [capturedName_of_comment hcomment hmem, hoverlooks]
    decide
  split at hoverlooks
  next hkind =>
    have hbinder : python.declarations.lookup label.kind = some keywordPattern := by
      rw [hkind]
      rfl
    refine ⟨python.bound, by simp [readings], length_ne_of_isEmpty_ne ?_⟩
    rw [bound_eq hbinder, bound_eq hbinder]
    exact isEmpty_keywordPattern_ne hcomment hoverlooks
  next => cases hoverlooks

end CanonicalTokens.Rules.Python
