import CanonicalTokens.Results

/-!
# Plain-text results read back

Both plain-text forms print a token as it is, without quotes. They can be read back as long as no
token is empty or holds the end of a line, and in the form with one line per file no space either.

The form with one token per line has the same character behind a token and between two files. So
what tells the files apart are the empty lines: as no token is empty, each of them stands between
two files. There is one less than there are files, also if files without tokens come first, last or
one after the other. Nothing is printed for a single such file, nor for none at all, so the form
must be known to have results.
-/

namespace CanonicalTokens

namespace Results

structure HasLines (text : String) (lines : List String) : Prop where
  text_eq : text = String.join (lines.map line)
  unbroken : ∀ content ∈ lines, '\n' ∉ content.toList

/-- Every token has a line to itself: none is empty, and none runs over the end of a line. -/
def FillLines (files : List FileOutcome) : Prop :=
  ∀ file ∈ files, ∀ token ∈ file.tokens, token ≠ "" ∧ '\n' ∉ token.toList

def FreeOfSpaces (files : List FileOutcome) : Prop :=
  ∀ file ∈ files, ∀ token ∈ file.tokens, ' ' ∉ token.toList

instance (files : List FileOutcome) : Decidable (FillLines files) :=
  inferInstanceAs (Decidable (∀ file ∈ files, _))

instance (files : List FileOutcome) : Decidable (FreeOfSpaces files) :=
  inferInstanceAs (Decidable (∀ file ∈ files, _))

/-! ### Separated lists -/

section Separated

variable {α : Type} {x item : α} {parts others : List (List α)}

/-- Nothing comes into a text by joining but the separator. -/
theorem mem_of_mem_intercalate (hitem : item ∈ [x].intercalate parts) :
    item = x ∨ ∃ part ∈ parts, item ∈ part := by
  induction parts with
  | nil => simp at hitem
  | cons part parts ih =>
    cases parts with
    | nil =>
      rw [List.intercalate_singleton] at hitem
      exact Or.inr ⟨part, List.mem_singleton_self part, hitem⟩
    | cons next parts =>
      rw [List.intercalate_cons_cons, List.mem_append, List.mem_append, List.mem_singleton] at hitem
      rcases hitem with (hpart | hsame) | hrest
      · exact Or.inr ⟨part, List.mem_cons_self, hpart⟩
      · exact Or.inl hsame
      · obtain hsame | ⟨other, hother, hin⟩ := ih hrest
        · exact Or.inl hsame
        · exact Or.inr ⟨other, List.mem_cons_of_mem part hother, hin⟩

theorem flatMap_intercalate {β : Type} (f : α → List β) :
    ([x].intercalate parts).flatMap f = (f x).intercalate (parts.map (List.flatMap f)) := by
  induction parts with
  | nil => rfl
  | cons part parts ih =>
    cases parts with
    | nil => rw [List.intercalate_singleton, List.map_singleton, List.intercalate_singleton]
    | cons next parts =>
      rw [List.map_cons, List.map_cons, List.intercalate_cons_cons, List.intercalate_cons_cons,
        List.flatMap_append, List.flatMap_append, List.flatMap_singleton, ih, List.map_cons]

variable [DecidableEq α]

theorem intercalate_inj (hparts : ∀ part ∈ parts, x ∉ part) (hothers : ∀ part ∈ others, x ∉ part)
    (hne : parts ≠ []) (hother : others ≠ []) :
    [x].intercalate parts = [x].intercalate others ↔ parts = others := by
  constructor
  · intro hsame
    have hsplit := congrArg (List.splitOn x) hsame
    rwa [List.splitOn_intercalate x hparts hne, List.splitOn_intercalate x hothers hother] at hsplit
  · exact congrArg _

/-- Parts without the separator are joined by one separator less than there are parts. -/
theorem count_intercalate (hparts : ∀ part ∈ parts, x ∉ part) (hne : parts ≠ []) :
    ([x].intercalate parts).count x + 1 = parts.length := by
  induction parts with
  | nil => exact absurd rfl hne
  | cons part parts ih =>
    obtain ⟨hpart, hparts⟩ := List.forall_mem_cons.mp hparts
    cases parts with
    | nil =>
      rw [List.intercalate_singleton, List.count_eq_zero_of_not_mem hpart, List.length_singleton]
    | cons next parts =>
      have hrest := ih hparts (List.cons_ne_nil next parts)
      rw [List.intercalate_cons_cons, List.count_append, List.count_append,
        List.count_eq_zero_of_not_mem hpart, List.count_singleton_self, List.length_cons, ← hrest]
      omega

end Separated

/-! ### Lines -/

def ended (content : String) : List Char :=
  content.toList ++ ['\n']

theorem toList_join_line (lines : List String) :
    (String.join (lines.map line)).toList = lines.flatMap ended := by
  rw [String.toList_join, List.flatMap_map]
  simp only [line, String.toList_append]
  rfl

/-- Behind the last line end there is one more part, which is empty. -/
theorem flatMap_ended (lines : List String) :
    lines.flatMap ended = ['\n'].intercalate (lines.map String.toList ++ [[]]) := by
  induction lines with
  | nil => rfl
  | cons content lines ih =>
    obtain ⟨part, parts, hparts⟩ : ∃ part parts, lines.map String.toList ++ [[]] = part :: parts :=
      List.exists_cons_of_ne_nil (List.append_ne_nil_of_right_ne_nil _ (List.cons_ne_nil _ _))
    rw [List.flatMap_cons, ih, List.map_cons, List.cons_append, hparts,
      List.intercalate_cons_cons]
    rfl

/-- A text is cut into lines in one way only. -/
theorem HasLines.unique {text : String} {lines others : List String} (hlines : HasLines text lines)
    (hothers : HasLines text others) : lines = others := by
  have hunbroken : ∀ {lines}, HasLines text lines →
      ∀ part ∈ lines.map String.toList ++ [[]], '\n' ∉ part := by
    intro lines hlines part hpart
    rcases List.mem_append.mp hpart with hcontent | hlast
    · obtain ⟨content, hline, rfl⟩ := List.mem_map.mp hcontent
      exact hlines.unbroken content hline
    · rw [List.mem_singleton.mp hlast]
      exact List.not_mem_nil
  have hne : ∀ lines : List String, lines.map String.toList ++ [[]] ≠ [] := fun lines =>
    List.append_ne_nil_of_right_ne_nil _ (List.cons_ne_nil _ _)
  have hsame : String.join (lines.map line) = String.join (others.map line) :=
    hlines.text_eq.symm.trans hothers.text_eq
  -- No part has a line end in it, so splitting at the line ends gives the parts back.
  rw [← String.toList_inj, toList_join_line, toList_join_line, flatMap_ended, flatMap_ended,
    intercalate_inj (hunbroken hlines) (hunbroken hothers) (hne lines) (hne others),
    List.append_cancel_right_eq] at hsame
  exact (List.map_inj_right fun _ _ => String.toList_injective).mp hsame

theorem HasLines.eq_iff {text other : String} {lines others : List String}
    (hlines : HasLines text lines) (hothers : HasLines other others) :
    text = other ↔ lines = others := by
  constructor
  · rintro rfl
    exact hlines.unique hothers
  · rintro rfl
    rw [hlines.text_eq, hothers.text_eq]

/-! ### One token per line -/

/-- One token makes one line, and there is an empty line between two files. -/
theorem hasLines_tokenLines {files : List FileOutcome} (hfiles : FillLines files) :
    HasLines (tokenLines files) ([""].intercalate (files.map FileOutcome.tokens)) := by
  constructor
  -- An empty line is nothing but its end, which is what stands between two files.
  · rw [← String.toList_inj, toList_join_line, flatMap_intercalate, tokenLines,
      String.toList_intercalate, List.map_map, List.map_map]
    congr 1
    apply List.map_congr_left
    intro file _
    exact toList_join_line file.tokens
  · intro content hcontent
    rcases mem_of_mem_intercalate hcontent with rfl | ⟨tokens, htokens, hcontent⟩
    · exact List.not_mem_nil
    · obtain ⟨file, hfile, rfl⟩ := List.mem_map.mp htokens
      exact (hfiles file hfile content hcontent).2

theorem FillLines.empty_not_mem {files : List FileOutcome} (hfiles : FillLines files) :
    ∀ tokens ∈ files.map FileOutcome.tokens, "" ∉ tokens := by
  intro tokens htokens hempty
  obtain ⟨file, hfile, rfl⟩ := List.mem_map.mp htokens
  exact (hfiles file hfile "" hempty).1 rfl

/-! ### One file per line -/

/-- One file makes one line, also if it is an empty one. -/
theorem hasLines_fileLines {files : List FileOutcome} (hfiles : FillLines files) :
    HasLines (fileLines files) (files.map fun file => " ".intercalate file.tokens) := by
  constructor
  · rw [fileLines, List.map_map]
    rfl
  · intro content hcontent hend
    obtain ⟨file, hfile, rfl⟩ := List.mem_map.mp hcontent
    rw [String.toList_intercalate] at hend
    have hcharacters : '\n' ∈ [' '].intercalate (file.tokens.map String.toList) := hend
    rcases mem_of_mem_intercalate hcharacters with hspace | ⟨characters, hmem, hin⟩
    · exact absurd hspace (by decide)
    · obtain ⟨token, htoken, rfl⟩ := List.mem_map.mp hmem
      exact (hfiles file hfile token htoken).2 hin

def IsWord (token : String) : Prop :=
  token ≠ "" ∧ ' ' ∉ token.toList

section Spaces

variable {tokens others : List String}

/-- Tokens without spaces can be told apart in a line, if there are any. -/
theorem intercalate_space_inj (htokens : ∀ token ∈ tokens, ' ' ∉ token.toList)
    (hothers : ∀ token ∈ others, ' ' ∉ token.toList) (hne : tokens ≠ []) (hother : others ≠ []) :
    " ".intercalate tokens = " ".intercalate others ↔ tokens = others := by
  have hparts : ∀ {tokens : List String}, (∀ token ∈ tokens, ' ' ∉ token.toList) →
      ∀ part ∈ tokens.map String.toList, ' ' ∉ part := by
    intro tokens htokens part hpart
    obtain ⟨token, htoken, rfl⟩ := List.mem_map.mp hpart
    exact htokens token htoken
  have hnil : ∀ {tokens : List String}, tokens ≠ [] → tokens.map String.toList ≠ [] :=
    fun hne hnil => hne (List.map_eq_nil_iff.mp hnil)
  rw [← String.toList_inj, String.toList_intercalate, String.toList_intercalate]
  change [' '].intercalate _ = [' '].intercalate _ ↔ _
  rw [intercalate_inj (hparts htokens) (hparts hothers) (hnil hne) (hnil hother)]
  exact List.map_inj_right fun _ _ => String.toList_injective

/-- Without tokens there is nothing on the line, as with the empty token alone. So a line with
nothing on it has no tokens if none of them can be empty. -/
theorem intercalate_space_ne_empty (htokens : ∀ token ∈ tokens, IsWord token)
    (hne : tokens ≠ []) : " ".intercalate tokens ≠ "" := by
  intro hempty
  have hone : " ".intercalate tokens = " ".intercalate [""] := hempty
  rw [intercalate_space_inj (fun token htoken => (htokens token htoken).2) (by decide) hne
    (List.cons_ne_nil _ _)] at hone
  exact (htokens "" (hone ▸ List.mem_singleton_self "")).1 rfl

/-- A line without tokens is empty, and tokens that are words make no empty line, so an empty list
can be told apart as well. -/
theorem eq_of_intercalate_space_eq (htokens : ∀ token ∈ tokens, IsWord token)
    (hothers : ∀ token ∈ others, IsWord token)
    (hsame : " ".intercalate tokens = " ".intercalate others) : tokens = others := by
  have hspaces : ∀ {tokens : List String}, (∀ token ∈ tokens, IsWord token) →
      ∀ token ∈ tokens, ' ' ∉ token.toList :=
    fun htokens token htoken => (htokens token htoken).2
  cases tokens with
  | nil =>
    cases others with
    | nil => rfl
    | cons token rest =>
      exact absurd hsame.symm (intercalate_space_ne_empty hothers (List.cons_ne_nil _ _))
  | cons token rest =>
    cases others with
    | nil => exact absurd hsame (intercalate_space_ne_empty htokens (List.cons_ne_nil _ _))
    | cons other others =>
      exact (intercalate_space_inj (hspaces htokens) (hspaces hothers) (List.cons_ne_nil _ _)
        (List.cons_ne_nil _ _)).mp hsame

end Spaces

/-- Line by line, lists of words are known from their lines. -/
theorem map_intercalate_space_inj {lists others : List (List String)}
    (hlists : ∀ tokens ∈ lists, ∀ token ∈ tokens, IsWord token)
    (hothers : ∀ tokens ∈ others, ∀ token ∈ tokens, IsWord token) :
    lists.map " ".intercalate = others.map " ".intercalate ↔ lists = others := by
  refine ⟨?_, congrArg _⟩
  induction lists generalizing others with
  | nil =>
    intro hsame
    exact (List.map_eq_nil_iff.mp hsame.symm).symm
  | cons tokens lists ih =>
    cases others with
    | nil =>
      intro hsame
      cases hsame
    | cons other others =>
      obtain ⟨htokens, hlists⟩ := List.forall_mem_cons.mp hlists
      obtain ⟨hother, hothers⟩ := List.forall_mem_cons.mp hothers
      intro hsame
      obtain ⟨hfirst, hrest⟩ := List.cons.inj hsame
      rw [eq_of_intercalate_space_eq htokens hother hfirst, ih hlists hothers hrest]

/-- Two results with the same lines have the same tokens, file by file. -/
theorem fileLines_eq_iff {files others : List FileOutcome} (hfiles : FillLines files)
    (hothers : FillLines others) (hspaces : FreeOfSpaces files) (hfree : FreeOfSpaces others) :
    fileLines files = fileLines others ↔
      files.map FileOutcome.tokens = others.map FileOutcome.tokens := by
  have hwritten : ∀ {files : List FileOutcome}, FillLines files → FreeOfSpaces files →
      ∀ tokens ∈ files.map FileOutcome.tokens, ∀ token ∈ tokens, IsWord token := by
    intro files hfiles hspaces tokens htokens token htoken
    obtain ⟨file, hfile, rfl⟩ := List.mem_map.mp htokens
    exact ⟨(hfiles file hfile token htoken).1, hspaces file hfile token htoken⟩
  rw [(hasLines_fileLines hfiles).eq_iff (hasLines_fileLines hothers),
    ← map_intercalate_space_inj (hwritten hfiles hspaces) (hwritten hothers hfree), List.map_map,
    List.map_map]
  rfl

theorem tokenLines_eq_iff {files others : List FileOutcome} (hfiles : FillLines files)
    (hothers : FillLines others) (hne : files ≠ []) (hother : others ≠ []) :
    tokenLines files = tokenLines others ↔
      files.map FileOutcome.tokens = others.map FileOutcome.tokens := by
  have hnil : ∀ {files : List FileOutcome}, files ≠ [] → files.map FileOutcome.tokens ≠ [] :=
    fun hne hnil => hne (List.map_eq_nil_iff.mp hnil)
  rw [(hasLines_tokenLines hfiles).eq_iff (hasLines_tokenLines hothers),
    intercalate_inj hfiles.empty_not_mem hothers.empty_not_mem (hnil hne) (hnil hother)]

/-- The plain-text forms are always printed and can be read back. If every token has a line to
itself, results with one token per line are printed alike if and only if their files have the same
tokens one by one, and there is one empty line less than there are files. If the tokens are moreover
free of spaces, the same goes for results with one file per line, which in any case have as many
lines as files. -/
theorem print_plain {files others : List FileOutcome} (report again : Bool)
    (hfiles : FillLines files) (hothers : FillLines others) :
    (files ≠ [] → others ≠ [] →
      (print files .lines report = print others .lines again ↔
        files.map FileOutcome.tokens = others.map FileOutcome.tokens)) ∧
    (files ≠ [] → ∃ text, print files .lines report = .ok text ∧
      (∃ lines, HasLines text lines) ∧
        ∀ lines, HasLines text lines → lines.count "" + 1 = files.length) ∧
    (FreeOfSpaces files → FreeOfSpaces others →
      (print files .text report = print others .text again ↔
        files.map FileOutcome.tokens = others.map FileOutcome.tokens)) ∧
    ∃ text, print files .text report = .ok text ∧
      (∃ lines, HasLines text lines) ∧
        ∀ lines, HasLines text lines → lines.length = files.length := by
  simp only [print, Except.ok.injEq]
  refine ⟨tokenLines_eq_iff hfiles hothers, ?_, fileLines_eq_iff hfiles hothers, ?_⟩
  · intro hne
    refine ⟨_, rfl, ⟨_, hasLines_tokenLines hfiles⟩, ?_⟩
    intro lines hlines
    rw [hlines.unique (hasLines_tokenLines hfiles),
      count_intercalate hfiles.empty_not_mem (fun hnil => hne (List.map_eq_nil_iff.mp hnil)),
      List.length_map]
  · refine ⟨_, rfl, ⟨_, hasLines_fileLines hfiles⟩, ?_⟩
    intro lines hlines
    rw [hlines.unique (hasLines_fileLines hfiles), List.length_map]

/-- Nothing is printed for no files, and nothing for one file without tokens. -/
example : tokenLines [] = tokenLines [⟨"-", .go, .error (.parse (.grammar ""))⟩] := by decide

def unparsed : FileOutcome :=
  ⟨"-", .python, .error (.parse (.grammar "missing"))⟩

def parsed (tokens : List String) : FileOutcome :=
  ⟨"-", .python, .ok ⟨.python, tokens, .fast, .undamaged (.ofString "") false,
    OpenScopes.initial.tally⟩⟩

def scattered : List FileOutcome :=
  [unparsed, parsed ["x", "="], parsed [], unparsed, parsed ["y"], unparsed]

def shifted : List FileOutcome :=
  [unparsed, parsed ["x"], parsed ["="], unparsed, parsed ["y"], parsed []]

/-- Failures and empty files leave their lines too, so tokens that move to another file show. -/
theorem print_scattered :
    FillLines scattered ∧ FillLines shifted ∧ scattered ≠ [] ∧ shifted ≠ [] ∧
      FreeOfSpaces scattered ∧ FreeOfSpaces shifted ∧
      print scattered .lines false ≠ print shifted .lines true ∧
      (∃ text, print scattered .lines false = .ok text ∧
        ∀ lines, HasLines text lines → lines.count "" = 5) ∧
      print scattered .text false ≠ print shifted .text true ∧
      ∃ text, print scattered .text false = .ok text ∧
        ∀ lines, HasLines text lines → lines.length = 6 := by
  have hscattered : FillLines scattered := by decide
  have hshifted : FillLines shifted := by decide
  have hspaces : FreeOfSpaces scattered := by decide
  have hfree : FreeOfSpaces shifted := by decide
  have hne : scattered ≠ [] := List.cons_ne_nil _ _
  have hother : shifted ≠ [] := List.cons_ne_nil _ _
  have htokens : scattered.map FileOutcome.tokens ≠ shifted.map FileOutcome.tokens := by decide
  obtain ⟨hlines, hblank, htext, text, hprinted, -, hlength⟩ :=
    print_plain false true hscattered hshifted
  obtain ⟨separated, hseparated, -, hempty⟩ := hblank hne
  refine ⟨hscattered, hshifted, hne, hother, hspaces, hfree, ?_, ⟨separated, hseparated, ?_⟩, ?_,
    text, hprinted, hlength⟩
  · exact fun hsame => htokens ((hlines hne hother).mp hsame)
  · intro lines hpart
    exact Nat.succ.inj (hempty lines hpart)
  · exact fun hsame => htokens ((htext hspaces hfree).mp hsame)

end Results

end CanonicalTokens
