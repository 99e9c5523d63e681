import CanonicalTokens.Proofs.Place

/-!
# Ranges of a source

A node covers a range of bytes. If both ends of a range are ends of characters, the source parts
into what is before the range, what is in it and what is behind it, and the text of the range is the
middle part. Ranges nest if each node keeps within its parent and behind its left sibling. Then
nodes that are not above one another cover ranges apart from each other, in the order of their
places.
-/

namespace CanonicalTokens

namespace Source

@[simp]
theorem byteCount_nil : byteCount [] = 0 := rfl

@[simp]
theorem byteCount_cons (character : Char) (characters : List Char) :
    byteCount (character :: characters) = character.utf8Size + byteCount characters := rfl

@[simp]
theorem byteCount_append (front back : List Char) :
    byteCount (front ++ back) = byteCount front + byteCount back := by
  induction front with
  | nil => simp
  | cons character front ih => simp [ih, Nat.add_assoc]

theorem eq_nil_of_byteCount_eq_zero {characters : List Char} (hempty : byteCount characters = 0) :
    characters = [] := by
  cases characters with
  | nil => rfl
  | cons character characters =>
    have hpos := character.utf8Size_pos
    rw [byteCount_cons] at hempty
    omega

@[simp]
theorem dropBytes_zero (characters : List Char) : dropBytes 0 characters = some characters := by
  cases characters <;> rfl

@[simp]
theorem takeBytes_zero (characters : List Char) : takeBytes 0 characters = some [] := by
  cases characters <;> rfl

theorem slice_self (source : Source) (offset : Nat) : source.slice offset offset = "" := by
  rw [slice, range?, if_pos (Nat.le_refl offset), Nat.sub_self]
  cases dropBytes offset source.characters with
  | none => rfl
  | some characters => rw [Option.bind_some, takeBytes_zero]; rfl

@[simp]
theorem dropBytes_cons (count : Nat) (character : Char) (characters : List Char) :
    dropBytes (character.utf8Size + count) (character :: characters) =
      dropBytes count characters := by
  have hpos := character.utf8Size_pos
  rw [dropBytes, if_pos (Nat.le_add_right _ _), Nat.add_sub_cancel_left]
  omega

@[simp]
theorem takeBytes_cons (count : Nat) (character : Char) (characters : List Char) :
    takeBytes (character.utf8Size + count) (character :: characters) =
      (takeBytes count characters).map (character :: ·) := by
  have hpos := character.utf8Size_pos
  rw [takeBytes, if_pos (Nat.le_add_right _ _), Nat.add_sub_cancel_left]
  omega

theorem dropBytes_append (front back : List Char) :
    dropBytes (byteCount front) (front ++ back) = some back := by
  induction front with
  | nil => simp
  | cons character front ih => simp [ih]

theorem takeBytes_append (front back : List Char) :
    takeBytes (byteCount front) (front ++ back) = some front := by
  induction front with
  | nil => simp
  | cons character front ih => simp [ih]

/-- A character ends at the offset, or the source begins there. -/
def IsBoundary (source : Source) (offset : Nat) : Prop :=
  ∃ front back, source.characters = front ++ back ∧ byteCount front = offset

/-- What is taken up to an offset is a front part of the text with that many bytes. -/
theorem eq_append_of_takeBytes {count : Nat} {characters front : List Char}
    (htake : takeBytes count characters = some front) :
    ∃ back, characters = front ++ back ∧ byteCount front = count := by
  fun_induction takeBytes count characters generalizing front with
  | case1 characters =>
    obtain rfl := Option.some.inj htake
    exact ⟨characters, rfl, rfl⟩
  | case2 => cases htake
  | case3 count character rest hcount hle ih =>
    obtain ⟨front, hfront, rfl⟩ := Option.map_eq_some_iff.mp htake
    obtain ⟨back, rfl, hback⟩ := ih hfront
    refine ⟨back, rfl, ?_⟩
    rw [byteCount_cons]
    omega
  | case4 => cases htake

instance (source : Source) (offset : Nat) : Decidable (source.IsBoundary offset) :=
  decidable_of_iff ((takeBytes offset source.characters).isSome) <| by
    rw [Option.isSome_iff_exists]
    constructor
    · rintro ⟨front, hfront⟩
      obtain ⟨back, hback⟩ := eq_append_of_takeBytes hfront
      exact ⟨front, back, hback⟩
    · rintro ⟨front, back, hcharacters, rfl⟩
      exact ⟨front, by rw [hcharacters, takeBytes_append]⟩

variable {source : Source} {start stop : Nat}

/-- A range between two boundaries parts the source in three. -/
theorem eq_append_of_isBoundary (hstart : source.IsBoundary start) (hstop : source.IsBoundary stop)
    (hle : start ≤ stop) :
    ∃ front middle back, source.characters = front ++ (middle ++ back) ∧ byteCount front = start ∧
      start + byteCount middle = stop ∧ source.slice start stop = String.ofList middle := by
  obtain ⟨front, rest, hrest, rfl⟩ := hstart
  obtain ⟨initial, back, hback, rfl⟩ := hstop
  obtain ⟨middle, rfl, rfl⟩ : ∃ middle, initial = front ++ middle ∧ rest = middle ++ back := by
    rcases List.append_eq_append_iff.mp (hrest.symm.trans hback) with
      ⟨middle, hinitial, hmiddle⟩ | ⟨surplus, hfront, hsurplus⟩
    · exact ⟨middle, hinitial, hmiddle⟩
    · rw [hfront, byteCount_append] at hle
      obtain rfl := eq_nil_of_byteCount_eq_zero (by omega : byteCount surplus = 0)
      exact ⟨[], by simpa using hfront.symm, by simpa using hsurplus.symm⟩
  refine ⟨front, middle, back, hrest, rfl, (byteCount_append front middle).symm, ?_⟩
  have hlength : byteCount (front ++ middle) - byteCount front = byteCount middle := by
    rw [byteCount_append]
    omega
  rw [slice, range?, if_pos hle, hrest, dropBytes_append, Option.bind_some, hlength,
    takeBytes_append, Option.getD_some]

theorem exists_rest_eq_append (hstart : source.IsBoundary start)
    (hstop : source.IsBoundary stop) (hle : start ≤ stop) :
    ∃ middle, source.rest start = middle ++ source.rest stop := by
  obtain ⟨front, middle, back, hparts, rfl, rfl, -⟩ := eq_append_of_isBoundary hstart hstop hle
  refine ⟨middle, ?_⟩
  rw [rest, rest, ← byteCount_append, hparts, dropBytes_append, ← List.append_assoc,
    dropBytes_append]
  rfl

/-- A character that begins in a range stands in the text of the range. -/
theorem mem_slice {before after : List Char} {character : Char}
    (hstart : source.IsBoundary start) (hstop : source.IsBoundary stop)
    (hcharacters : source.characters = before ++ character :: after)
    (hbehind : start ≤ byteCount before) (hbefore : byteCount before < stop) :
    character ∈ (source.slice start stop).toList := by
  obtain ⟨front, middle, back, hparts, rfl, hlength, hslice⟩ :=
    eq_append_of_isBoundary hstart hstop (by omega)
  rw [hslice, String.toList_ofList]
  obtain ⟨inner, rfl, hinner⟩ :
      ∃ inner, before = front ++ inner ∧ middle ++ back = inner ++ character :: after := by
    rcases List.append_eq_append_iff.mp (hparts.symm.trans hcharacters) with
      ⟨inner, hinner, hrest⟩ | ⟨surplus, hfront, hsurplus⟩
    · exact ⟨inner, hinner, hrest⟩
    · rw [hfront, byteCount_append] at hbehind
      obtain rfl := eq_nil_of_byteCount_eq_zero (by omega : byteCount surplus = 0)
      exact ⟨[], by simpa using hfront.symm, by simpa using hsurplus.symm⟩
  rw [byteCount_append] at hbefore
  rcases List.append_eq_append_iff.mp hinner with ⟨surplus, hsurplus, -⟩ | ⟨rest, hmiddle, hrest⟩
  · rw [hsurplus, byteCount_append] at hbefore
    omega
  · cases rest with
    | nil =>
      rw [hmiddle, byteCount_append, byteCount_nil] at hlength
      omega
    | cons first rest =>
      obtain ⟨rfl, -⟩ := List.cons.inj hrest
      rw [hmiddle]
      simp

end Source

namespace Label

def covers (label : Label) (offset : Nat) : Bool :=
  label.start ≤ offset && offset < label.stop

variable {label other : Label} {offset : Nat}

theorem covers_iff : label.covers offset ↔ label.start ≤ offset ∧ offset < label.stop := by
  rw [covers, Bool.and_eq_true, decide_eq_true_eq, decide_eq_true_eq]

theorem not_covers_of_apart (hcovers : label.covers offset)
    (hapart : other.stop ≤ label.start ∨ label.stop ≤ other.start) : ¬ other.covers offset := by
  rw [covers_iff] at hcovers ⊢
  omega

end Label

namespace Tree

/-- Every node covers whole characters, within its parent and behind its left sibling. -/
structure RangesNest (source : Source) (tree : Tree) : Prop where
  ordered : ∀ node ∈ tree.subtrees, node.label.start ≤ node.label.stop
  boundaries : ∀ node ∈ tree.subtrees,
    source.IsBoundary node.label.start ∧ source.IsBoundary node.label.stop
  inside : ∀ node ∈ tree.subtrees, ∀ child ∈ node.children,
    node.label.start ≤ child.label.start ∧ child.label.stop ≤ node.label.stop
  apart : ∀ node ∈ tree.subtrees,
    node.children.Pairwise fun left right => left.label.stop ≤ right.label.start

namespace RangesNest

variable {source : Source} {tree child node other : Tree} {place : Place}

theorem of_subset (hranges : tree.RangesNest source) (hsubset : node.subtrees ⊆ tree.subtrees) :
    node.RangesNest source where
  ordered inner hinner := hranges.ordered inner (hsubset hinner)
  boundaries inner hinner := hranges.boundaries inner (hsubset hinner)
  inside inner hinner := hranges.inside inner (hsubset hinner)
  apart inner hinner := hranges.apart inner (hsubset hinner)

theorem of_mem_children (hranges : tree.RangesNest source) (hchild : child ∈ tree.children) :
    child.RangesNest source :=
  hranges.of_subset fun _ => mem_subtrees_of_mem_children hchild

theorem of_at? (hranges : tree.RangesNest source) (hnode : tree.at? place = some node) :
    node.RangesNest source :=
  hranges.of_subset (subtrees_subset_of_at? hnode)

/-- A node covers no more than the nodes above it. -/
theorem within (hranges : tree.RangesNest source) (hnode : tree.at? place = some node) :
    tree.label.start ≤ node.label.start ∧ node.label.stop ≤ tree.label.stop := by
  induction place generalizing tree with
  | nil =>
    obtain rfl := Option.some.inj hnode
    exact ⟨Nat.le_refl _, Nat.le_refl _⟩
  | cons index place ih =>
    obtain ⟨child, hchild, hbelow⟩ := at?_cons_eq_some_iff.mp hnode
    have hmem := List.mem_of_getElem? hchild
    have houter := hranges.inside tree tree.self_mem_subtrees child hmem
    have hinner := ih (hranges.of_mem_children hmem) hbelow
    omega

/-- Of two nodes that are not above one another, the one at the earlier place ends first. -/
theorem stop_le_start {first second : Place} (hranges : tree.RangesNest source)
    (hfirst : tree.at? first = some node) (hsecond : tree.at? second = some other)
    (hlt : first < second) (haside : ¬ first <+: second) : node.label.stop ≤ other.label.start := by
  induction first generalizing tree second with
  | nil => exact absurd List.nil_prefix haside
  | cons index first ih =>
    cases second with
    | nil => exact absurd hlt (List.not_lt_nil _)
    | cons turn second =>
      obtain ⟨left, hleft, hnode⟩ := at?_cons_eq_some_iff.mp hfirst
      obtain ⟨right, hright, hother⟩ := at?_cons_eq_some_iff.mp hsecond
      rcases List.cons_lt_cons_iff.mp hlt with hturn | ⟨rfl, hbelow⟩
      · obtain ⟨hleftLength, rfl⟩ := List.getElem?_eq_some_iff.mp hleft
        obtain ⟨hrightLength, rfl⟩ := List.getElem?_eq_some_iff.mp hright
        have hapart := List.pairwise_iff_getElem.mp (hranges.apart tree tree.self_mem_subtrees)
          index turn hleftLength hrightLength hturn
        have hbefore := (hranges.of_mem_children (List.getElem_mem hleftLength)).within hnode
        have hafter := (hranges.of_mem_children (List.getElem_mem hrightLength)).within hother
        omega
      · obtain rfl := Option.some.inj (hleft.symm.trans hright)
        refine ih (hranges.of_mem_children (List.mem_of_getElem? hleft)) hnode hother hbelow ?_
        intro hinitial
        exact haside (List.cons_prefix_cons.mpr ⟨rfl, hinitial⟩)

end RangesNest

end Tree

end CanonicalTokens
