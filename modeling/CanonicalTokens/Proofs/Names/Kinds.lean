import CanonicalTokens.Proofs.Names.Catalogue
import CanonicalTokens.Proofs.Place

/-!
# What kinds of node hold names

The names of a construct are held by nodes that the walk takes for identifiers. There are two
exceptions. The target `a.b` of a Python assignment binds what stands under the field, whatever it
is, and a C# parameter with nothing in it is its own name.
-/

namespace CanonicalTokens

namespace Tree

variable {kinds : List String} {tree name : Tree}

theorem kind_of_mem_outermost (hname : name ∈ tree.outermost kinds) : name.kind ∈ kinds := by
  induction tree using children_induction with
  | node label children ih =>
    rw [outermost] at hname
    split at hname
    next hkind =>
      obtain rfl := List.mem_singleton.mp hname
      exact List.contains_iff_mem.mp hkind
    next =>
      rw [outermostNamed_eq] at hname
      obtain ⟨child, hchild, hbelow⟩ := List.mem_flatMap.mp hname
      exact ih child (List.mem_of_mem_filter hchild) hbelow

theorem kind_of_mem_outermostUnder {field : String}
    (hname : name ∈ tree.outermostUnder field kinds) : name.kind ∈ kinds := by
  obtain ⟨child, -, hbelow⟩ := List.mem_flatMap.mp hname
  exact kind_of_mem_outermost hbelow

theorem kind_of_mem_ownIdentifier (hname : name ∈ tree.ownIdentifier) :
    name.kind ∈ ["identifier"] := by
  unfold ownIdentifier at hname
  split at hname
  · exact kind_of_mem_outermostUnder hname
  · have hfound := List.find?_some (Option.mem_toList.mp hname)
    rw [of_decide_eq_true hfound]
    exact List.mem_singleton_self _

end Tree

variable {tree name : Tree}

/-- What holds of the names that every reading finds holds of those that a construct introduces. -/
theorem Rules.forall_bound {rules : Rules} {property : Tree → Prop}
    (hbinders : ∀ entry ∈ rules.declarations, tree.kind = entry.1 →
      ∀ name ∈ entry.2 tree, property name) :
    ∀ name ∈ rules.bound tree, property name := by
  intro name hname
  unfold bound at hname
  cases hbinder : rules.declarations.lookup tree.kind with
  | none =>
    rw [hbinder] at hname
    cases hname
  | some binder =>
    rw [hbinder] at hname
    obtain ⟨before, behind, hentries, -⟩ := List.lookup_eq_some_iff.mp hbinder
    have hentry : (tree.kind, binder) ∈ rules.declarations := by simp [hentries]
    exact hbinders (tree.kind, binder) hentry rfl name hname

namespace Rules

/-! ### C++ -/

/-- Every chain of declarators ends in an identifier. -/
theorem Cpp.kind_of_mem_bottom (hname : name ∈ bottom tree) : name.kind ∈ ["identifier"] := by
  induction tree using Tree.children_induction with
  | node label children ih =>
    rw [bottom, wrapped_eq, wrappedNamed_eq] at hname
    split at hname
    next hkind =>
      obtain rfl := List.mem_singleton.mp hname
      exact List.mem_singleton.mpr hkind
    split at hname
    · exact Tree.kind_of_mem_outermost hname
    split at hname
    · split at hname
      · obtain ⟨child, hchild, hbelow⟩ := List.mem_flatMap.mp hname
        exact ih child (List.mem_of_find?_eq_some (Option.mem_toList.mp hchild)) hbelow
      · obtain ⟨child, hchild, hbelow⟩ := List.mem_flatMap.mp hname
        exact ih child (List.mem_of_mem_filter hchild) hbelow
    · cases hname

theorem Cpp.kind_of_mem_bound : ∀ name ∈ cpp.bound tree, name.kind ∈ cpp.identifiers := by
  apply forall_bound
  have hdeclared : ∀ name ∈ declared tree, name.kind ∈ ["identifier"] := by
    intro name hname
    obtain ⟨child, -, hbelow⟩ := List.mem_flatMap.mp hname
    exact kind_of_mem_bottom hbelow
  simp only [cpp, List.forall_mem_cons, List.not_mem_nil, false_imp_iff, implies_true, and_true]
  exact ⟨fun _ => hdeclared, fun _ => hdeclared, fun _ => hdeclared, fun _ => hdeclared⟩

/-! ### C# -/

namespace CSharp

/-- A parameter that is its own name, as in `x => x + 1`. -/
def IsBare (tree : Tree) : Prop :=
  tree.kind = "implicit_parameter" ∧ tree.namedChildren = []

theorem kind_of_mem_variableNames (hname : name ∈ variableNames tree) :
    name.kind ∈ ["identifier"] := by
  unfold variableNames at hname
  split at hname
  · exact Tree.kind_of_mem_outermost hname
  · exact Tree.kind_of_mem_ownIdentifier hname

theorem kind_of_mem_bareParameter (hnamed : tree.namedChildren ≠ [])
    (hname : name ∈ bareParameter tree) : name.kind ∈ ["identifier"] := by
  unfold bareParameter at hname
  rw [if_neg (by simpa using hnamed)] at hname
  exact Tree.kind_of_mem_outermost hname

theorem kind_of_mem_iterated (hname : name ∈ iterated tree) : name.kind ∈ ["identifier"] := by
  unfold iterated at hname
  split at hname
  · exact Tree.kind_of_mem_outermost hname
  · cases hname

theorem kind_of_mem_assigned {forest : List Tree} (hname : name ∈ assigned forest) :
    name.kind ∈ ["identifier"] := by
  induction forest with
  | nil => cases hname
  | cons first rest ih =>
    rw [assigned_cons] at hname
    split at hname
    next hfirst =>
      rcases List.mem_cons.mp hname with rfl | hname
      · simp_all
      · exact ih hname
    next => exact ih hname

theorem kind_of_mem_bound (hbare : ¬ IsBare tree) :
    ∀ name ∈ csharp.bound tree, name.kind ∈ csharp.identifiers := by
  apply forall_bound
  have hnames : ∀ name ∈ tree.nameIdentifiers, name.kind ∈ ["identifier"] :=
    fun _ => Tree.kind_of_mem_outermostUnder
  simp only [csharp, List.forall_mem_cons, List.not_mem_nil, false_imp_iff, implies_true, and_true]
  refine ⟨fun _ _ => kind_of_mem_variableNames, fun _ => hnames, ?_,
    fun _ _ => kind_of_mem_iterated, fun _ => hnames, fun _ => hnames, fun _ => hnames,
    fun _ _ => kind_of_mem_assigned⟩
  intro hkind name hname
  exact kind_of_mem_bareParameter (fun hnamed => hbare ⟨hkind, hnamed⟩) hname

theorem bound_of_isBare (hbare : IsBare tree) : csharp.bound tree = [tree] := by
  have hbinder : csharp.declarations.lookup tree.kind = some bareParameter := by
    rw [hbare.1]
    rfl
  rw [bound_of_lookup hbinder, bareParameter_of_empty hbare.2]

end CSharp

/-! ### Go -/

/-- Every construct of Go is searched for identifiers only. -/
theorem Go.kind_of_mem_bound : ∀ name ∈ go.bound tree, name.kind ∈ go.identifiers := by
  apply forall_bound
  have hspecified : ∀ name ∈ specified tree, name.kind ∈ names :=
    fun _ => Tree.kind_of_mem_outermostUnder
  have hidentifier : ∀ name : Tree, name.kind ∈ ["identifier"] → name.kind ∈ names := by
    intro name hkind
    rw [List.mem_singleton.mp hkind]
    decide
  have hassigned : ∀ name ∈ assigned tree, name.kind ∈ names := fun name hname =>
    hidentifier name (Tree.kind_of_mem_outermostUnder hname)
  have hguard : ∀ name ∈ guardName tree, name.kind ∈ names := fun name hname =>
    hidentifier name (Tree.kind_of_mem_outermostUnder hname)
  simp only [go, List.forall_mem_cons, List.not_mem_nil, false_imp_iff, implies_true, and_true]
  exact ⟨fun _ => hspecified, fun _ => hspecified, fun _ => hspecified, fun _ => hspecified,
    fun _ => hspecified, fun _ => hassigned, fun _ => hassigned, fun _ => hassigned,
    fun _ => hguard⟩

/-! ### Python -/

namespace Python

def AttributesEndInNames (tree : Tree) : Prop :=
  ∀ node ∈ tree.subtrees, node.kind = "attribute" →
    ∀ child, node.childUnder? "attribute" = some child → child.kind = "identifier"

theorem AttributesEndInNames.of_mem_children {child : Tree}
    (hattributes : AttributesEndInNames tree) (hchild : child ∈ tree.children) :
    AttributesEndInNames child := by
  intro node hnode
  exact hattributes node (Tree.mem_subtrees_of_mem_children hchild hnode)

theorem AttributesEndInNames.of_forall_ne
    (hkinds : ∀ node ∈ tree.subtrees, node.kind ≠ "attribute") : AttributesEndInNames tree :=
  fun node hnode hkind => absurd hkind (hkinds node hnode)

/-- A target ends in identifiers if the attributes in it do. -/
theorem kind_of_mem_target (hattributes : AttributesEndInNames tree)
    (hname : name ∈ target tree) : name.kind ∈ ["identifier"] := by
  induction tree using Tree.children_induction with
  | node label children ih =>
    rw [target, namedTargets_eq] at hname
    split at hname
    next hkind =>
      obtain rfl := List.mem_singleton.mp hname
      exact List.mem_singleton.mpr hkind
    split at hname
    next hkind =>
      have hlast : Tree.childUnder? "attribute" (.node label children) = some name :=
        Option.mem_toList.mp hname
      exact List.mem_singleton.mpr
        (hattributes _ (Tree.self_mem_subtrees _) hkind name hlast)
    split at hname
    · obtain ⟨child, hchild, hbelow⟩ := List.mem_flatMap.mp hname
      have hmem := List.mem_of_mem_filter hchild
      exact ih child hmem (hattributes.of_mem_children hmem) hbelow
    · cases hname

theorem kind_of_mem_targetUnder {field : String}
    (hattributes : AttributesEndInNames tree)
    (hname : name ∈ targetUnder field tree) : name.kind ∈ ["identifier"] := by
  unfold targetUnder at hname
  split at hname
  next child hchild =>
    exact kind_of_mem_target
      (hattributes.of_mem_children (List.mem_of_find?_eq_some hchild)) hname
  next => cases hname

theorem kind_of_mem_clauseTargets (hattributes : AttributesEndInNames tree)
    (hname : name ∈ clauseTargets tree) : name.kind ∈ ["identifier"] := by
  obtain ⟨clause, hclause, hbelow⟩ := List.mem_flatMap.mp hname
  have hmem := List.mem_of_mem_filter (List.mem_of_mem_filter hclause)
  exact kind_of_mem_targetUnder (hattributes.of_mem_children hmem) hbelow

theorem exists_parameter_of_mem_firstParameter {forest : List Tree}
    (hname : name ∈ firstParameter forest) : ∃ tree ∈ forest, name ∈ parameter tree := by
  induction forest with
  | nil => cases hname
  | cons tree rest ih =>
    rw [firstParameter] at hname
    split at hname
    · exact ⟨tree, List.mem_cons_self, hname⟩
    · obtain ⟨later, hlater, hbelow⟩ := ih hname
      exact ⟨later, List.mem_cons_of_mem tree hlater, hbelow⟩

/-- However a parameter is written, what it binds is an identifier. -/
theorem kind_of_mem_parameter (hname : name ∈ parameter tree) : name.kind ∈ ["identifier"] := by
  induction tree using Tree.children_induction with
  | node label children ih =>
    rw [parameter] at hname
    split at hname
    next hkind =>
      obtain rfl := List.mem_singleton.mp hname
      exact List.mem_singleton.mpr hkind
    split at hname
    · obtain ⟨child, hchild, hbelow⟩ := exists_parameter_of_mem_firstParameter hname
      exact ih child hchild hbelow
    split at hname
    · split at hname
      · exact Tree.kind_of_mem_outermost hname
      · cases hname
    split at hname
    · exact Tree.kind_of_mem_outermost hname
    · cases hname

theorem kind_of_mem_parameters (hname : name ∈ parameters tree) : name.kind ∈ ["identifier"] := by
  obtain ⟨child, -, hbelow⟩ := List.mem_flatMap.mp hname
  exact kind_of_mem_parameter hbelow

theorem kind_of_mem_afterAs {forest : List Tree}
    (hattributes : ∀ tree ∈ forest, AttributesEndInNames tree)
    (hname : name ∈ afterAs forest) : name.kind ∈ ["identifier"] := by
  fun_induction afterAs forest with
  | case1 keyword next rest halias =>
    exact kind_of_mem_target (hattributes next (by simp)) hname
  | case2 keyword next rest halias ih =>
    exact ih (fun tree htree => hattributes tree (List.mem_cons_of_mem keyword htree)) hname
  | case3 => cases hname

theorem kind_of_mem_capturedName (hname : name ∈ capturedName tree) :
    name.kind ∈ ["identifier"] := by
  unfold capturedName at hname
  split at hname
  · split at hname
    · split at hname
      next hkind =>
        obtain rfl := List.mem_singleton.mp hname
        exact List.mem_singleton.mpr hkind
      next => cases hname
    · cases hname
  · cases hname

theorem kind_of_mem_casePattern (hname : name ∈ casePattern tree) :
    name.kind ∈ ["identifier"] := by
  unfold casePattern at hname
  split at hname
  · exact kind_of_mem_capturedName hname
  · cases hname

theorem kind_of_mem_keywordPattern (hname : name ∈ keywordPattern tree) :
    name.kind ∈ ["identifier"] := by
  unfold keywordPattern at hname
  split at hname
  · exact kind_of_mem_capturedName hname
  · cases hname

theorem kind_of_mem_bound (hattributes : AttributesEndInNames tree) :
    ∀ name ∈ python.bound tree, name.kind ∈ python.identifiers := by
  apply forall_bound
  have hunder : ∀ field, ∀ name ∈ targetUnder field tree, name.kind ∈ ["identifier"] :=
    fun _ _ => kind_of_mem_targetUnder hattributes
  have hclause : ∀ name ∈ clauseTargets tree, name.kind ∈ ["identifier"] :=
    fun _ => kind_of_mem_clauseTargets hattributes
  have hparameters : ∀ name ∈ parameters tree, name.kind ∈ ["identifier"] :=
    fun _ => kind_of_mem_parameters
  have hhandler : ∀ name ∈ handlerAlias tree, name.kind ∈ ["identifier"] :=
    fun _ => kind_of_mem_afterAs fun _ => hattributes.of_mem_children
  simp only [python, List.forall_mem_cons, List.not_mem_nil, false_imp_iff, implies_true, and_true]
  exact ⟨fun _ => hunder "left", fun _ => hunder "left", fun _ => hunder "name",
    fun _ => hparameters, fun _ => hparameters, fun _ => hunder "left", fun _ => hclause,
    fun _ => hclause, fun _ => hclause, fun _ => hclause, fun _ => hunder "alias",
    fun _ => hhandler, fun _ _ => kind_of_mem_casePattern, fun _ _ => kind_of_mem_keywordPattern,
    fun _ _ => Tree.kind_of_mem_outermost⟩

end Python

end Rules

namespace Language

/-- A node that declares itself: what it declares is its own text, though it is no identifier. -/
def DeclaresItself (language : Language) (tree : Tree) : Prop :=
  language = .csharp ∧ Rules.CSharp.IsBare tree

variable {language : Language}

/-- In all four languages names are read from identifiers, save for a construct that is its own
name. -/
theorem isIdentifier_of_mem_bound
    (hattributes : Rules.Python.AttributesEndInNames tree)
    (hitself : ¬ language.DeclaresItself tree) (hname : name ∈ language.rules.bound tree) :
    language.rules.isIdentifier name.kind := by
  apply List.contains_iff_mem.mpr
  cases language with
  | cpp => exact Rules.Cpp.kind_of_mem_bound name hname
  | csharp =>
    have hbare : ¬ Rules.CSharp.IsBare tree := fun hbare => hitself ⟨rfl, hbare⟩
    exact Rules.CSharp.kind_of_mem_bound hbare name hname
  | go => exact Rules.Go.kind_of_mem_bound name hname
  | python => exact Rules.Python.kind_of_mem_bound hattributes name hname

theorem eq_of_mem_bound (hitself : language.DeclaresItself tree)
    (hname : name ∈ language.rules.bound tree) : name = tree := by
  obtain ⟨rfl, hbare⟩ := hitself
  have hbound : Language.csharp.rules.bound tree = [tree] := Rules.CSharp.bound_of_isBare hbare
  rw [hbound] at hname
  exact List.mem_singleton.mp hname

theorem kind_of_isIdentifier {kind : String} (hkind : language.rules.isIdentifier kind) :
    kind = "identifier" ∨ kind = "field_identifier" := by
  have hmem := List.contains_iff_mem.mp hkind
  have hall : ∀ kind ∈ language.rules.identifiers,
      kind = "identifier" ∨ kind = "field_identifier" := by
    cases language <;> decide
  exact hall kind hmem

theorem literalRule?_of_isIdentifier {kind : String} (hkind : language.rules.isIdentifier kind) :
    language.rules.literalRule? kind = none := by
  have hall : ∀ kind ∈ language.rules.identifiers, language.rules.literalRule? kind = none := by
    cases language <;> decide
  exact hall kind (List.contains_iff_mem.mp hkind)

end Language

end CanonicalTokens
