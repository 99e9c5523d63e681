import CanonicalTokens.Proofs.Names.Python
import CanonicalTokens.Proofs.Names.Searches

/-!
# Positions at which Python binds names

An assignment, a loop, a clause of a comprehension, a walrus and an alias have a target. A target is
a name, an attribute, which binds its last name, or a container of targets in brackets, behind a
star or in a list. Every other expression binds nothing, and nothing in it is bound. So a name is
bound at exactly those places to which containers alone lead from a target, and a subscript, a call
or the object of an attribute keeps all that is in it.

The target of an alias is looked for under its field. The alias of a case stands behind the keyword
without one, so its names are not found.
-/

namespace CanonicalTokens.Rules.Python

/-! ### Constructs with targets -/

def targetFields : List (String × String) :=
  [("assignment", "left"), ("augmented_assignment", "left"), ("for_statement", "left"),
    ("named_expression", "name"), ("as_pattern", "alias")]

def comprehensions : List String :=
  ["list_comprehension", "set_comprehension", "dictionary_comprehension", "generator_expression"]

def targetConstructs : List String :=
  targetFields.map Prod.fst ++ comprehensions ++ ["except_clause"]

def AliasIn (forest : List Tree) (index : Nat) (target : Tree) : Prop :=
  ∃ keyword, forest[index]? = some keyword ∧ isAs keyword ∧ forest[index + 1]? = some target ∧
    target.isNamed

structure FirstAlias (forest : List Tree) (index : Nat) (target : Tree) : Prop where
  alias_in : AliasIn forest index target
  first : ∀ other held, AliasIn forest other held → index ≤ other

/-- A target of a construct: what stands in its field, what stands on the left of a clause, or the
first alias of a handler. -/
inductive TargetAt (tree : Tree) : Place → Tree → Prop
  | field {name : String} {index : Nat} {target : Tree}
      (hconstruct : (tree.kind, name) ∈ targetFields)
      (hfirst : tree.FirstUnder name index target) : TargetAt tree [index] target
  | clause {number index : Nat} {clause target : Tree} (hconstruct : tree.kind ∈ comprehensions)
      (hclause : tree.children[number]? = some clause) (hnamed : clause.isNamed)
      (hkind : clause.kind = "for_in_clause") (hfirst : clause.FirstUnder "left" index target) :
      TargetAt tree [number, index] target
  | handler {index : Nat} {target : Tree} (hconstruct : tree.kind = "except_clause")
      (hfirst : FirstAlias tree.children index target) : TargetAt tree [index + 1] target

/-! ### Names in a target -/

def containers : List String :=
  ["pattern_list", "expression_list"] ++ ["tuple", "tuple_pattern", "list", "list_pattern"] ++
    ["parenthesized_expression", "list_splat", "list_splat_pattern", "as_pattern_target"]

def opens (holder child : Tree) : Bool :=
  containers.contains holder.kind && child.isNamed

/-- The name that a target binds which is no container: its own, or the last of an attribute. -/
inductive NameIn (target : Tree) : Place → Tree → Prop
  | identifier (hkind : target.kind = "identifier") : NameIn target [] target
  | last {index : Nat} {last : Tree} (hkind : target.kind = "attribute")
      (hlast : target.FirstUnder "attribute" index last) : NameIn target [index] last

/-- A name that a construct binds: one to which only containers lead from a target. -/
inductive BindsAt (tree : Tree) : Place → Tree → Prop
  | intro {start way : Place} {target name : Tree} (htarget : TargetAt tree start target)
      (hname : target.ReachesBy opens NameIn way name) : BindsAt tree (start ++ way) name

def NamedAt (index : Nat) (target : Tree) (place : Place) (name : Tree) : Prop :=
  ∃ way, place = index :: way ∧ target.ReachesBy opens NameIn way name

def ownNames (target : Tree) : List Tree :=
  if target.kind = "identifier" then [target]
  else if target.kind = "attribute" then (target.childUnder? "attribute").toList
  else []

variable {tree name : Tree} {place : Place}

/-- A target that is no container binds itself, or the last name of an attribute. -/
theorem enumerates_ownNames (target : Tree) :
    Tree.Enumerates (ownNames target) (NameIn target) := by
  unfold ownNames
  split
  next hkind =>
    refine Tree.enumerates_singleton [] ?_
    intro place name
    constructor
    · rintro (hidentifier | ⟨hattribute, hlast⟩)
      · exact ⟨rfl, rfl⟩
      · simp [hkind] at hattribute
    · rintro ⟨rfl, rfl⟩
      exact .identifier hkind
  split
  next hidentifier hkind =>
    have hlast : Tree.Enumerates
        ((target.childUnder? "attribute").toList.flatMap fun last => [last]) fun place name =>
          ∃ index last way, place = index :: way ∧ target.FirstUnder "attribute" index last ∧
            way = [] ∧ name = last :=
      Tree.enumerates_childUnder target fun last =>
        Tree.enumerates_singleton [] fun way name => Iff.rfl
    rw [List.flatMap_singleton'] at hlast
    refine hlast.congr ?_
    intro place name
    constructor
    · rintro ⟨index, last, way, rfl, hfirst, rfl, rfl⟩
      exact .last hkind hfirst
    · rintro (hother | ⟨-, hfirst⟩)
      · exact absurd hother hidentifier
      · exact ⟨_, _, [], rfl, hfirst, rfl, rfl⟩
  next hidentifier hattribute =>
    refine Tree.enumerates_nil ?_
    rintro place name (hkind | ⟨hkind, -⟩)
    · exact hidentifier hkind
    · exact hattribute hkind

theorem contains_targetContainers (kind : String) :
    targetContainers.contains kind = containers.contains kind :=
  contains_eq_of_mem_iff (by decide) (by decide) kind

theorem ne_of_mem_containers {kind : String} (hcontainer : kind ∈ containers) :
    kind ≠ "identifier" ∧ kind ≠ "attribute" := by
  have hcontainers : ∀ kind ∈ containers, kind ≠ "identifier" ∧ kind ≠ "attribute" := by decide
  exact hcontainers kind hcontainer

theorem mem_containers_of_opens {holder child : Tree} (hopens : opens holder child) :
    holder.kind ∈ containers :=
  List.contains_iff_mem.mp (Bool.and_eq_true_iff.mp hopens).1

theorem ownNames_of_container (hcontainer : tree.kind ∈ containers) : ownNames tree = [] := by
  obtain ⟨hidentifier, hattribute⟩ := ne_of_mem_containers hcontainer
  rw [ownNames, if_neg hidentifier, if_neg hattribute]

/-- A target binds its own names and those of the targets it opens, from left to right. -/
theorem target_eq (tree : Tree) :
    target tree = ownNames tree ++ (tree.children.filter (opens tree)).flatMap target := by
  obtain ⟨label, children⟩ := tree
  rw [target, namedTargets_eq, contains_targetContainers]
  by_cases hcontainer : label.kind ∈ containers
  · obtain ⟨hidentifier, hattribute⟩ := ne_of_mem_containers hcontainer
    have hown : ownNames (.node label children) = [] := ownNames_of_container hcontainer
    have hopens : ∀ child ∈ children, opens (.node label children) child = child.isNamed := by
      intro child _
      have hcontains : containers.contains label.kind := List.contains_iff_mem.mpr hcontainer
      exact (congrArg (· && child.isNamed) hcontains).trans (Bool.true_and _)
    rw [hown, if_neg hidentifier, if_neg hattribute, if_pos (List.contains_iff_mem.mpr hcontainer),
      List.nil_append, Tree.children, List.filter_congr hopens]
  · have hnone :
        (Tree.node label children).children.filter (opens (.node label children)) = [] := by
      rw [List.filter_eq_nil_iff]
      exact fun child _ hopens => hcontainer (mem_containers_of_opens hopens)
    have hcontains : ¬ containers.contains label.kind := by
      rwa [List.contains_iff_mem]
    rw [hnone, List.flatMap_nil, List.append_nil, if_neg hcontains]
    rfl

theorem enumerates_target (tree : Tree) :
    Tree.Enumerates (target tree) (tree.ReachesBy opens NameIn) :=
  Tree.enumerates_search enumerates_ownNames (fun node _ => target_eq node) fun _ _ hopens =>
    ownNames_of_container (mem_containers_of_opens hopens)

/-- Below a field a target is entered at its first child of that field. -/
theorem enumerates_targetUnder (field : String) (tree : Tree) :
    Tree.Enumerates (targetUnder field tree) fun place name =>
      ∃ index target way, place = index :: way ∧ tree.FirstUnder field index target ∧
        target.ReachesBy opens NameIn way name := by
  have hunder : targetUnder field tree = (tree.childUnder? field).toList.flatMap target := by
    unfold targetUnder
    cases tree.childUnder? field with
    | none => rfl
    | some child => rw [Option.toList_some, List.flatMap_singleton]
  rw [hunder]
  exact Tree.enumerates_childUnder tree enumerates_target

/-! ### Aliases -/

theorem FirstAlias.unique {forest : List Tree} {index other : Nat} {target held : Tree}
    (hfirst : FirstAlias forest index target) (hsame : FirstAlias forest other held) :
    other = index ∧ held = target := by
  obtain rfl := Nat.le_antisymm (hfirst.first _ _ hsame.alias_in)
    (hsame.first _ _ hfirst.alias_in)
  obtain ⟨-, -, -, htarget, -⟩ := hfirst.alias_in
  obtain ⟨-, -, -, hheld, -⟩ := hsame.alias_in
  exact ⟨rfl, Option.some.inj (hheld.symm.trans htarget)⟩

theorem firstAlias_one {first keyword target : Tree} (hfirst : isAs first = false)
    (hkeyword : isAs keyword) (hnamed : target.isNamed) :
    FirstAlias [first, keyword, target] 1 target := by
  refine ⟨⟨keyword, rfl, hkeyword, rfl, hnamed⟩, ?_⟩
  rintro (_ | other) held ⟨before, hbefore, has, -⟩
  · obtain rfl := Option.some.inj hbefore
    rw [hfirst] at has
    cases has
  · exact Nat.le_add_left 1 other

/-- The first tree that is named and directly follows the keyword is read as a target, if there is
one. -/
theorem afterAs_cases (forest : List Tree) :
    (afterAs forest = [] ∧ ∀ index held, ¬ AliasIn forest index held) ∨
      ∃ index held, afterAs forest = target held ∧ FirstAlias forest index held := by
  induction forest with
  | nil => exact Or.inl ⟨rfl, fun index held => by simp [AliasIn]⟩
  | cons keyword rest ih =>
    cases rest with
    | nil => exact Or.inl ⟨rfl, fun index held => by simp [AliasIn]⟩
    | cons next rest =>
      rw [afterAs]
      split
      -- The keyword is the first tree, or the first alias of the rest is that of the whole.
      next halias =>
        obtain ⟨hkeyword, hnext⟩ := Bool.and_eq_true_iff.mp halias
        exact Or.inr ⟨0, next, rfl, ⟨keyword, rfl, hkeyword, rfl, hnext⟩,
          fun _ _ _ => Nat.zero_le _⟩
      next halias =>
        have hfirst : ∀ held, ¬ AliasIn (keyword :: next :: rest) 0 held := by
          rintro held ⟨first, hfirst, hkeyword, hheld, hnamed⟩
          obtain rfl := Option.some.inj hfirst
          obtain rfl := Option.some.inj hheld
          exact halias (Bool.and_eq_true_iff.mpr ⟨hkeyword, hnamed⟩)
        rcases ih with ⟨hnone, hnot⟩ | ⟨index, held, hfound, ⟨hheld, hleast⟩⟩
        · refine Or.inl ⟨hnone, ?_⟩
          rintro (_ | index) held
          · exact hfirst held
          · exact hnot index held
        · refine Or.inr ⟨index + 1, held, hfound, hheld, ?_⟩
          rintro (_ | other) later hlater
          · exact absurd hlater (hfirst later)
          · exact Nat.succ_le_succ (hleast other later hlater)

/-! ### Constructs -/

theorem bound_of_targetFields {field : String} (hfield : (tree.kind, field) ∈ targetFields) :
    python.bound tree = targetUnder field tree := by
  have hlookups : (targetFields.map fun entry => python.declarations.lookup entry.1) =
      targetFields.map fun entry => some (targetUnder entry.2) := rfl
  exact bound_of_lookup (List.map_inj_left.mp hlookups _ hfield)

/-- A construct that has its target under a field binds exactly the names of that target. -/
theorem enumerates_bound_of_field {field : String} (hfield : (tree.kind, field) ∈ targetFields) :
    Tree.Enumerates (python.bound tree) (BindsAt tree) := by
  have hbound : python.bound tree = targetUnder field tree := bound_of_targetFields hfield
  have htable : ∀ entry ∈ targetFields, entry.1 ∉ comprehensions ∧ entry.1 ≠ "except_clause" ∧
      ∀ other ∈ targetFields, other.1 = entry.1 → other.2 = entry.2 := by decide
  obtain ⟨hcomprehension, hhandler, honly⟩ := htable _ hfield
  rw [hbound]
  refine (enumerates_targetUnder field tree).congr ?_
  intro place name
  constructor
  · rintro ⟨index, target, way, rfl, hfirst, hname⟩
    exact .intro (.field hfield hfirst) hname
  · rintro ⟨htarget, hname⟩
    cases htarget with
    | field hother hfirst =>
      obtain rfl := honly _ hother rfl
      exact ⟨_, _, _, rfl, hfirst, hname⟩
    | clause hconstruct => exact absurd hconstruct hcomprehension
    | handler hconstruct => exact absurd hconstruct hhandler

/-- A comprehension binds the names of each of its clauses, one after the other. -/
theorem enumerates_bound_of_comprehension (hkind : tree.kind ∈ comprehensions) :
    Tree.Enumerates (python.bound tree) (BindsAt tree) := by
  have hbound : python.bound tree = clauseTargets tree := bound_of_lookups rfl hkind
  have htable : ∀ kind ∈ comprehensions, kind ≠ "except_clause" ∧
      ∀ entry ∈ targetFields, entry.1 ≠ kind := by decide
  obtain ⟨hhandler, hfields⟩ := htable _ hkind
  have hclauses : Tree.Enumerates ((tree.children.filter fun clause =>
      decide (clause.kind = "for_in_clause") && clause.isNamed).flatMap leftTargets) _ :=
    Tree.enumerates_flatMap fun clause _ _ => enumerates_targetUnder "left" clause
  rw [hbound, clauseTargets, Tree.namedChildren, List.filter_filter]
  refine hclauses.congr ?_
  intro place name
  constructor
  · rintro ⟨number, clause, _, rfl, hclause, hkeep, index, target, way, rfl, hfirst, hname⟩
    obtain ⟨hfor, hnamed⟩ := Bool.and_eq_true_iff.mp hkeep
    exact .intro (.clause hkind hclause hnamed (of_decide_eq_true hfor) hfirst) hname
  · rintro ⟨htarget, hname⟩
    cases htarget with
    | field hconstruct => exact absurd rfl (hfields _ hconstruct)
    | clause _ hclause hnamed hfor hfirst =>
      have hkeep := Bool.and_eq_true_iff.mpr ⟨decide_eq_true hfor, hnamed⟩
      exact ⟨_, _, _, rfl, hclause, hkeep, _, _, _, rfl, hfirst, hname⟩
    | handler hconstruct => exact absurd hconstruct hhandler

/-- A handler binds the names of its first alias, if it has one. -/
theorem enumerates_bound_of_handler (hkind : tree.kind = "except_clause") :
    Tree.Enumerates (python.bound tree) (BindsAt tree) := by
  have hbinder : python.declarations.lookup tree.kind = some handlerAlias := by
    rw [hkind]
    rfl
  have hfields : ∀ entry ∈ targetFields, entry.1 ≠ tree.kind := by
    rw [hkind]
    decide
  have hcomprehension : tree.kind ∉ comprehensions := by
    rw [hkind]
    decide
  rw [bound_of_lookup hbinder, handlerAlias]
  rcases afterAs_cases tree.children with ⟨hnone, hnot⟩ | ⟨index, target, hfound, hfirst⟩
  · rw [hnone]
    refine Tree.enumerates_nil ?_
    rintro place name ⟨htarget, hname⟩
    cases htarget with
    | field hconstruct => exact absurd rfl (hfields _ hconstruct)
    | clause hconstruct => exact absurd hconstruct hcomprehension
    | handler _ hfirst => exact hnot _ _ hfirst.alias_in
  · rw [hfound]
    refine ((enumerates_target target).below (index + 1)).congr ?_
    intro place name
    constructor
    · rintro ⟨way, rfl, hname⟩
      exact .intro (.handler hkind hfirst) hname
    · rintro ⟨htarget, hname⟩
      cases htarget with
      | field hconstruct => exact absurd rfl (hfields _ hconstruct)
      | clause hconstruct => exact absurd hconstruct hcomprehension
      | handler _ hother =>
        obtain ⟨rfl, rfl⟩ := hfirst.unique hother
        exact ⟨_, rfl, hname⟩

theorem enumerates_bound (hconstruct : tree.kind ∈ targetConstructs) :
    Tree.Enumerates (python.bound tree) (BindsAt tree) := by
  rcases List.mem_append.mp hconstruct with hconstruct | hhandler
  · rcases List.mem_append.mp hconstruct with hfield | hcomprehension
    · obtain ⟨⟨kind, field⟩, hentry, hkind⟩ := List.mem_map.mp hfield
      have hfield : (tree.kind, field) ∈ targetFields := hkind ▸ hentry
      exact enumerates_bound_of_field hfield
    · exact enumerates_bound_of_comprehension hcomprehension
  · exact enumerates_bound_of_handler (List.mem_singleton.mp hhandler)

/-! ### What is not bound -/

/-- Every node from a target down to a name is a container, or an attribute whose last name it
is. -/
theorem container_of_isAbove {target : Tree} {way : Place}
    (hname : target.ReachesBy opens NameIn way name) {outer : Place} {holder : Tree}
    (habove : outer.IsAbove way) (hholder : target.at? outer = some holder) :
    holder.kind ∈ containers ∨
      holder.kind = "attribute" ∧ ∃ index, way = outer ++ [index] ∧
        holder.FirstUnder "attribute" index name := by
  obtain @⟨upper, inner, last, name, hway, hends⟩ := hname
  have hcontainer : outer.IsAbove upper → holder.kind ∈ containers := by
    intro hupper
    obtain ⟨index, hstep⟩ := hupper.exists_step
    obtain ⟨node, child, hnode, -, hopens⟩ := hway.edge_of_prefix hstep
    obtain rfl := Option.some.inj (hholder.symm.trans hnode)
    exact mem_containers_of_opens hopens
  -- The way to the end of the search goes through containers; an attribute may stand at its end.
  cases hends with
  | identifier =>
    rw [List.append_nil] at habove
    exact Or.inl (hcontainer habove)
  | @last index _ hkind hlast =>
    rcases List.prefix_concat_iff.mp habove.1 with hsame | hupper
    · exact absurd hsame habove.2
    by_cases houter : outer = upper
    · subst houter
      obtain rfl := Option.some.inj (hholder.symm.trans hway.at?)
      exact Or.inr ⟨hkind, index, rfl, hlast⟩
    · exact Or.inl (hcontainer ⟨hupper, houter⟩)

theorem TargetAt.at_place {start : Place} {target : Tree} (htarget : TargetAt tree start target) :
    tree.at? start = some target := by
  cases htarget with
  | field _ hfirst => exact Tree.at?_cons_eq_some_iff.mpr ⟨_, hfirst.child_at, rfl⟩
  | clause _ hclause _ _ hfirst =>
    refine Tree.at?_cons_eq_some_iff.mpr ⟨_, hclause, ?_⟩
    exact Tree.at?_cons_eq_some_iff.mpr ⟨_, hfirst.child_at, rfl⟩
  | handler _ hfirst =>
    obtain ⟨-, -, -, htarget, -⟩ := hfirst.alias_in
    exact Tree.at?_cons_eq_some_iff.mpr ⟨_, htarget, rfl⟩

/-! ### Aliases outside their field -/

/-- An alias that stands under its field is the target of its pattern, and a pattern without such an
alias binds nothing. So the names of the alias are those of the pattern if and only if it stands
there, or has no names. -/
theorem spells_alias_iff {index : Nat} {target : Tree} (source : Source)
    (hkind : tree.kind = "as_pattern") (hfirst : FirstAlias tree.children index target)
    (honly : ∀ other held, tree.children[other]? = some held → held.isUnder "alias" →
      other = index + 1) :
    Tree.Spells source (python.declaredNames source tree) (NamedAt (index + 1) target) ↔
      target.isUnder "alias" ∨ ∀ way name, ¬ target.ReachesBy opens NameIn way name := by
  obtain ⟨-, -, -, htarget, -⟩ := hfirst.alias_in
  have hfield : (tree.kind, "alias") ∈ targetFields := by
    rw [hkind]
    decide
  have hbound : python.bound tree = targetUnder "alias" tree := bound_of_targetFields hfield
  by_cases hunder : target.isUnder "alias"
  · have hplace : tree.FirstUnder "alias" (index + 1) target := by
      refine ⟨htarget, ⟨⟨target, htarget, hunder⟩, ?_⟩⟩
      rintro other ⟨held, hheld, hother⟩
      exact (honly other held hheld hother).ge
    refine ⟨fun _ => Or.inl hunder, fun _ => ⟨python.bound tree, ?_, rfl⟩⟩
    rw [hbound]
    refine (enumerates_targetUnder "alias" tree).congr ?_
    intro place name
    constructor
    · rintro ⟨other, held, way, rfl, hother, hname⟩
      obtain ⟨rfl, rfl⟩ := hplace.unique hother
      exact ⟨way, rfl, hname⟩
    · rintro ⟨way, rfl, hname⟩
      exact ⟨index + 1, target, way, rfl, hplace, hname⟩
  · have hnone : python.declaredNames source tree = [] := by
      have hchild : tree.childUnder? "alias" = none := by
        rw [Tree.childUnder?, List.find?_eq_none]
        intro held hheld hother
        obtain ⟨other, hheld⟩ := List.mem_iff_getElem?.mp hheld
        obtain rfl := honly other held hheld hother
        obtain rfl := Option.some.inj (htarget.symm.trans hheld)
        exact hunder hother
      rw [Rules.declaredNames, hbound, targetUnder, hchild]
      rfl
    rw [hnone, or_iff_right hunder]
    constructor
    · rintro ⟨found, hfound, hnames⟩ way name hname
      have hmem : name ∈ found := hfound.mem_iff.mpr ⟨_, way, rfl, hname⟩
      rw [List.map_eq_nil_iff.mp hnames.symm] at hmem
      exact List.not_mem_nil hmem
    · intro hnot
      refine ⟨[], Tree.enumerates_nil ?_, rfl⟩
      rintro place name ⟨way, -, hname⟩
      exact hnot way name hname

/-- A construct with targets declares the names that they bind, in document order and with repeats.
Between a target and a name there are only containers and, at the end, the attribute whose last name
it is; so nothing is bound in a subscript, a call, the object of an attribute or any other
expression. A pattern with `as` has the names behind the keyword if and only if they stand under the
field of the alias, or if there are none. -/
theorem spells_bindings (source : Source) (hconstruct : tree.kind ∈ targetConstructs) :
    Tree.Spells source (python.declaredNames source tree) (BindsAt tree) ∧
      (∀ place name, BindsAt tree place name →
        ∃ start target, TargetAt tree start target ∧ tree.at? start = some target ∧
          start <+: place ∧
          ∀ outer holder, start <+: outer → Place.IsAbove outer place →
            tree.at? outer = some holder →
            holder.kind ∈ containers ∨
              holder.kind = "attribute" ∧ ∃ index, place = outer ++ [index] ∧
                holder.FirstUnder "attribute" index name) ∧
      ∀ index target, tree.kind = "as_pattern" → FirstAlias tree.children index target →
        (∀ other held, tree.children[other]? = some held → held.isUnder "alias" →
          other = index + 1) →
        (Tree.Spells source (python.declaredNames source tree) (NamedAt (index + 1) target) ↔
          target.isUnder "alias" ∨ ∀ way name, ¬ target.ReachesBy opens NameIn way name) := by
  refine ⟨⟨_, enumerates_bound hconstruct, rfl⟩, ?_, ?_⟩
  · rintro _ name ⟨htarget, hname⟩
    refine ⟨_, _, htarget, htarget.at_place, List.prefix_append _ _, ?_⟩
    rintro outer holder ⟨rest, rfl⟩ habove hholder
    rw [Tree.at?_append, htarget.at_place, Option.bind_some] at hholder
    rcases container_of_isAbove hname (Place.append_isAbove_append_iff.mp habove) hholder with
      hcontainer | ⟨hattribute, index, rfl, hfirst⟩
    · exact Or.inl hcontainer
    · exact Or.inr ⟨hattribute, index, (List.append_assoc _ _ _).symm, hfirst⟩
  · intro index target hkind hfirst honly
    exact spells_alias_iff source hkind hfirst honly

/-- The tree of `a, [b.c, d[e]], *f = g`. -/
def nestedAssignment : Tree :=
  .node (.sound "assignment" true 0 22 none) [
    .node (.sound "pattern_list" true 0 18 (some "left")) [
      .node (.sound "identifier" true 0 1 none) [],
      .node (.sound "," false 1 2 none) [],
      .node (.sound "list_pattern" true 3 14 none) [
        .node (.sound "[" false 3 4 none) [],
        .node (.sound "attribute" true 4 7 none) [
          .node (.sound "identifier" true 4 5 (some "object")) [],
          .node (.sound "." false 5 6 none) [],
          .node (.sound "identifier" true 6 7 (some "attribute")) []],
        .node (.sound "," false 7 8 none) [],
        .node (.sound "subscript" true 9 13 none) [
          .node (.sound "identifier" true 9 10 (some "value")) [],
          .node (.sound "[" false 10 11 none) [],
          .node (.sound "identifier" true 11 12 (some "subscript")) [],
          .node (.sound "]" false 12 13 none) []],
        .node (.sound "]" false 13 14 none) []],
      .node (.sound "," false 14 15 none) [],
      .node (.sound "list_splat_pattern" true 16 18 none) [
        .node (.sound "*" false 16 17 none) [],
        .node (.sound "identifier" true 17 18 none) []]],
    .node (.sound "=" false 19 20 none) [],
    .node (.sound "identifier" true 21 22 (some "right")) []]

/-- The alias in the tree of `p as (f, g)`. -/
def pairTarget : Tree :=
  .node (.sound "as_pattern_target" true 5 11 (some "alias")) [
    .node (.sound "tuple" true 5 11 none) [
      .node (.sound "(" false 5 6 none) [],
      .node (.sound "identifier" true 6 7 none) [],
      .node (.sound "," false 7 8 none) [],
      .node (.sound "identifier" true 9 10 none) [],
      .node (.sound ")" false 10 11 none) []]]

def pairAlias : Tree :=
  .node (.sound "as_pattern" true 0 11 none) [
    .node (.sound "identifier" true 0 1 none) [],
    .node (.sound "as" false 2 4 none) [],
    pairTarget]

/-- Lists and starred targets are opened, an attribute binds its last name, an item none. -/
theorem spells_nestedAssignment :
    nestedAssignment.kind ∈ targetConstructs ∧
      Tree.Spells (.ofString "a, [b.c, d[e]], *f = g") ["a", "c", "f"]
        (BindsAt nestedAssignment) ∧
      pairAlias.kind ∈ targetConstructs ∧
      Tree.Spells (.ofString "p as (f, g)") ["f", "g"] (NamedAt 2 pairTarget) := by
  have hassignment : nestedAssignment.kind ∈ targetConstructs := by decide
  have halias : pairAlias.kind ∈ targetConstructs := by decide
  have honly : ∀ other held, pairAlias.children[other]? = some held → held.isUnder "alias" →
      other = 1 + 1 := by
    rintro (_ | _ | _ | other) held hheld hunder
    · obtain rfl := Option.some.inj hheld
      cases hunder
    · obtain rfl := Option.some.inj hheld
      cases hunder
    · rfl
    · cases hheld
  obtain ⟨hnames, -, -⟩ := spells_bindings (.ofString "a, [b.c, d[e]], *f = g") hassignment
  obtain ⟨-, -, hiff⟩ := spells_bindings (.ofString "p as (f, g)") halias
  exact ⟨hassignment, hnames, halias,
    (hiff 1 pairTarget rfl (firstAlias_one rfl rfl rfl) honly).mpr (Or.inl rfl)⟩

/-- The alias in the tree of `str() as s`, the pattern of a case. -/
def caseTarget : Tree :=
  .node (.sound "identifier" true 9 10 none) []

def caseAlias : Tree :=
  .node (.sound "as_pattern" true 0 10 none) [
    .node (.sound "case_pattern" true 0 5 none) [
      .node (.sound "class_pattern" true 0 5 none) [
        .node (.sound "dotted_name" true 0 3 none) [
          .node (.sound "identifier" true 0 3 none) []],
        .node (.sound "(" false 3 4 none) [],
        .node (.sound ")" false 4 5 none) []]],
    .node (.sound "as" false 6 8 none) [],
    caseTarget]

/-- The name behind `as` is not declared, since it does not stand under a field. -/
theorem caseAlias_declares_nothing :
    caseAlias.kind = "as_pattern" ∧ FirstAlias caseAlias.children 1 caseTarget ∧
      caseTarget.ReachesBy opens NameIn [] caseTarget ∧
      caseTarget.text (.ofString "str() as s") = "s" ∧
      python.declaredNames (.ofString "str() as s") caseAlias = [] ∧
      ¬ Tree.Spells (.ofString "str() as s")
        (python.declaredNames (.ofString "str() as s") caseAlias) (NamedAt 2 caseTarget) := by
  have hname : caseTarget.ReachesBy opens NameIn ([] ++ []) caseTarget :=
    .intro (.here caseTarget) (.identifier rfl)
  have hnone : python.declaredNames (.ofString "str() as s") caseAlias = [] := by decide
  refine ⟨rfl, firstAlias_one rfl rfl rfl, hname, by decide, hnone, ?_⟩
  intro hspells
  have hmem := hspells.text_mem ⟨[], rfl, hname⟩
  rw [hnone] at hmem
  exact List.not_mem_nil hmem

end CanonicalTokens.Rules.Python
