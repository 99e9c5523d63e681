import CanonicalTokens.Json.Printer
import CanonicalTokens.Json.Reader

/-!
# Reading what was printed

Reading a printed text gives back the value that was printed, whatever characters its strings have.
Values with numbers are left out: a number has many spellings, and where it ends depends on what
follows it. Printing also stays on one line, since line ends are controls and so they are escaped.
-/

namespace CanonicalTokens.Json

inductive NumberFree : Json → Prop
  | null : NumberFree .null
  | bool (value : Bool) : NumberFree (.bool value)
  | string (value : String) : NumberFree (.string value)
  | array {items : List Json} (hitems : ∀ item ∈ items, NumberFree item) :
      NumberFree (.array items)
  | object {entries : List (String × Json)} (hentries : ∀ entry ∈ entries, NumberFree entry.2) :
      NumberFree (.object entries)

/-! ### Strings -/

theorem hexadecimalValue?_hexadecimalDigit :
    ∀ value < 16, hexadecimalValue? (hexadecimalDigit value) = some value := by
  decide

theorem hexadecimalUnit?_of_lt {unit : Nat} (hunit : unit < 0x20) :
    hexadecimalUnit? '0' '0' (hexadecimalDigit (unit / 16)) (hexadecimalDigit (unit % 16)) =
      some unit := by
  have hzero : hexadecimalValue? '0' = some 0 := rfl
  have hhigh := hexadecimalValue?_hexadecimalDigit (unit / 16) (by omega)
  have hlow := hexadecimalValue?_hexadecimalDigit (unit % 16) (by omega)
  simp only [hexadecimalUnit?, hzero, hhigh, hlow, Option.bind_eq_bind, Option.bind_some]
  congr 1
  omega

/-- A character is escaped by a letter, or by its number if it is a control, or not at all. -/
theorem escape_cases (character : Char) :
    (∃ letter, letter ≠ 'u' ∧ 0x20 ≤ letter.toNat ∧ unescape? letter = some character ∧
      escape character = ['\\', letter]) ∨
    (character.toNat < 0x20 ∧ escape character =
      ['\\', 'u', '0', '0', hexadecimalDigit (character.toNat / 16),
        hexadecimalDigit (character.toNat % 16)]) ∨
    (character ≠ '"' ∧ character ≠ '\\' ∧ 0x20 ≤ character.toNat ∧
      escape character = [character]) := by
  by_cases hletter : character ∈ ['"', '\\', '\x08', '\x0c', '\n', '\r', '\t']
  · left
    simp only [List.mem_cons, List.not_mem_nil, or_false] at hletter
    rcases hletter with rfl | rfl | rfl | rfl | rfl | rfl | rfl
    · exact ⟨'"', by decide, by decide, rfl, rfl⟩
    · exact ⟨'\\', by decide, by decide, rfl, rfl⟩
    · exact ⟨'b', by decide, by decide, rfl, rfl⟩
    · exact ⟨'f', by decide, by decide, rfl, rfl⟩
    · exact ⟨'n', by decide, by decide, rfl, rfl⟩
    · exact ⟨'r', by decide, by decide, rfl, rfl⟩
    · exact ⟨'t', by decide, by decide, rfl, rfl⟩
  · right
    simp only [List.mem_cons, List.not_mem_nil, or_false, not_or] at hletter
    obtain ⟨hquote, hbackslash, hback, hfeed, hline, hreturn, htab⟩ := hletter
    simp only [escape, hquote, hbackslash, hback, hfeed, hline, hreturn, htab, if_false]
    by_cases hcontrol : character.toNat < 0x20
    · exact Or.inl ⟨hcontrol, if_pos hcontrol⟩
    · exact Or.inr ⟨hquote, hbackslash, Nat.not_lt.mp hcontrol, if_neg hcontrol⟩

/-- An escaped character is read as the one it stands for, be it written as itself, by a short
escape or by its number. -/
theorem readString?_escape (character : Char) (rest : List Char) :
    readString? (escape character ++ rest) =
      (readString? rest).map fun (text, left) => (character :: text, left) := by
  rcases escape_cases character with ⟨letter, hletter, -, hmeans, hescape⟩ |
    ⟨hcontrol, hescape⟩ | ⟨hquote, hbackslash, hplain, hescape⟩
  · rw [hescape, List.cons_append, List.cons_append, List.nil_append, readString?, hmeans]
    · cases readString? rest <;> rfl
    · intro a b c d further hu
      exact absurd hu hletter
  · have hunit := hexadecimalUnit?_of_lt hcontrol
    rw [hescape]
    simp only [List.cons_append, List.nil_append]
    rw [readString?, hunit, Option.bind_eq_bind, Option.bind_some, if_pos (by omega),
      Char.ofNat_toNat]
    cases readString? rest <;> rfl
  · rw [hescape, List.cons_append, List.nil_append, readString?, if_neg (Nat.not_lt.mpr hplain)]
    · cases readString? rest <;> rfl
    · exact hquote
    · intro a b c d further hback
      exact absurd hback hbackslash
    · intro letter further hback
      exact absurd hback hbackslash

theorem readString?_printed (text rest : List Char) :
    readString? (text.flatMap escape ++ '"' :: rest) = some (text, rest) := by
  induction text with
  | nil => simp [readString?]
  | cons character text ih =>
    rw [List.flatMap_cons, List.append_assoc, readString?_escape, ih]
    rfl

/-! ### Values -/

/-- Printed texts begin with a sign of their own: with no blank and no closing bracket. -/
theorem exists_print_eq_cons {value : Json} (hvalue : NumberFree value) :
    ∃ first rest, value.print = first :: rest ∧ isSpace first = false ∧ first ≠ ']' := by
  cases hvalue with
  | null => exact ⟨'n', _, rfl, by decide, by decide⟩
  | bool value =>
    cases value with
    | true => exact ⟨'t', _, rfl, by decide, by decide⟩
    | false => exact ⟨'f', _, rfl, by decide, by decide⟩
  | string value => exact ⟨'"', _, rfl, by decide, by decide⟩
  | array hitems => exact ⟨'[', _, rfl, by decide, by decide⟩
  | object hentries => exact ⟨'\x7b', _, rfl, by decide, by decide⟩

theorem exists_printItems_eq_cons {item : Json} (hitem : NumberFree item) (items : List Json) :
    ∃ first rest, printItems (item :: items) = first :: rest ∧ isSpace first = false ∧
      first ≠ ']' := by
  obtain ⟨first, rest, hprint, hspace, hclose⟩ := exists_print_eq_cons hitem
  cases items with
  | nil => exact ⟨first, rest, hprint, hspace, hclose⟩
  | cons next items =>
    refine ⟨first, rest ++ ',' :: printItems (next :: items), ?_, hspace, hclose⟩
    rw [printItems, hprint]
    rfl

theorem exists_printEntries_eq_cons (entry : String × Json) (entries : List (String × Json)) :
    ∃ rest, printEntries (entry :: entries) = '"' :: rest := by
  obtain ⟨name, value⟩ := entry
  cases entries with
  | nil => exact ⟨_, rfl⟩
  | cons next entries => exact ⟨_, rfl⟩

theorem skipSpaces_cons (first : Char) (hfirst : isSpace first = false) (rest : List Char) :
    skipSpaces (first :: rest) = first :: rest := by
  simp [skipSpaces, hfirst]

def ReadsBack (value : Json) : Prop :=
  ∀ bound rest, 2 * value.print.length ≤ bound →
    readValue? bound (value.print ++ rest) = some (value, rest)

/-- Items are read back one by one. Each takes what it was printed as, a bound of two for each
character is enough, and the closing bracket ends the last one. -/
theorem readItems?_printed {items : List Json} (hne : items ≠ [])
    (hitems : ∀ item ∈ items, ReadsBack item) (bound : Nat) (rest : List Char)
    (hbound : 2 * (printItems items).length + 1 ≤ bound) :
    readItems? bound (printItems items ++ ']' :: rest) = some (items, rest) := by
  induction items generalizing bound with
  | nil => exact absurd rfl hne
  | cons item items ih =>
    obtain ⟨bound, rfl⟩ : ∃ less, bound = less + 1 := ⟨bound - 1, by omega⟩
    have hitem := hitems item List.mem_cons_self
    cases items with
    | nil =>
      rw [printItems] at hbound ⊢
      rw [readItems?, hitem bound _ (by omega), Option.bind_eq_bind, Option.bind_some]
      rfl
    | cons next items =>
      rw [printItems, List.length_append, List.length_cons] at hbound
      have hrest := ih (List.cons_ne_nil _ _)
        (fun other hother => hitems other (List.mem_cons_of_mem _ hother)) bound (by omega)
      rw [printItems, List.append_assoc, readItems?, hitem bound _ (by omega),
        Option.bind_eq_bind, Option.bind_some, List.cons_append]
      simp only [skipSpaces_cons ',' rfl, hrest]
      rfl

theorem printString_append (name : String) (rest : List Char) :
    printString name ++ rest = '"' :: (name.toList.flatMap escape ++ '"' :: rest) := by
  simp [printString]

/-- Entries are read back like items, each with its name in front. -/
theorem readEntries?_printed {entries : List (String × Json)} (hne : entries ≠ [])
    (hentries : ∀ entry ∈ entries, ReadsBack entry.2) (bound : Nat) (rest : List Char)
    (hbound : 2 * (printEntries entries).length + 1 ≤ bound) :
    readEntries? bound (printEntries entries ++ '\x7d' :: rest) = some (entries, rest) := by
  induction entries generalizing bound with
  | nil => exact absurd rfl hne
  | cons entry entries ih =>
    obtain ⟨name, value⟩ := entry
    obtain ⟨bound, rfl⟩ : ∃ less, bound = less + 1 := ⟨bound - 1, by omega⟩
    have hvalue : ReadsBack value := hentries (name, value) List.mem_cons_self
    cases entries with
    | nil =>
      rw [printEntries, List.length_append, List.length_cons] at hbound
      rw [printEntries, List.append_assoc, printString_append, readEntries?,
        skipSpaces_cons '"' rfl]
      simp only [readString?_printed, Option.bind_eq_bind, Option.bind_some, List.cons_append,
        skipSpaces_cons ':' rfl, hvalue bound _ (by omega), String.ofList_toList]
      rfl
    | cons next entries =>
      rw [printEntries, List.length_append, List.length_cons, List.length_append,
        List.length_cons] at hbound
      have hrest := ih (List.cons_ne_nil _ _)
        (fun other hother => hentries other (List.mem_cons_of_mem _ hother)) bound (by omega)
      rw [printEntries, List.append_assoc, printString_append, readEntries?,
        skipSpaces_cons '"' rfl]
      simp only [readString?_printed, Option.bind_eq_bind, Option.bind_some, List.cons_append,
        List.append_assoc, skipSpaces_cons ':' rfl, hvalue bound _ (by omega),
        skipSpaces_cons ',' rfl, hrest, String.ofList_toList]
      rfl

/-- A value without numbers is read back from its text. -/
theorem readsBack {value : Json} (hvalue : NumberFree value) : ReadsBack value := by
  induction hvalue with
  | null =>
    rintro (_ | bound) rest hbound
    · contradiction
    · rfl
  | bool value =>
    rintro (_ | bound) rest hbound
    · cases value <;> contradiction
    · cases value <;> rfl
  | string value =>
    rintro (_ | bound) rest hbound
    · simp [print, printString] at hbound
    · rw [print, printString_append, readValue?, skipSpaces_cons '"' rfl]
      simp only [readString?_printed, Option.map_some, String.ofList_toList]
  | @array items hitems ih =>
    rintro (_ | bound) rest hbound
    · simp [print] at hbound
    · rw [print, List.length_cons, List.length_append, List.length_singleton] at hbound
      rw [print, List.cons_append, List.append_assoc, readValue?, skipSpaces_cons '[' rfl]
      cases items with
      | nil => rfl
      | cons item items =>
        have hread := readItems?_printed (List.cons_ne_nil item items) ih bound rest (by omega)
        obtain ⟨first, further, hfirst, hspace, hclose⟩ :=
          exists_printItems_eq_cons (hitems item List.mem_cons_self) items
        rw [hfirst, List.cons_append] at hread
        rw [hfirst, List.cons_append]
        simp only [skipSpaces_cons first hspace]
        split
        next left hempty => exact absurd (List.cons.inj hempty).1 hclose
        next =>
          rw [List.singleton_append, hread]
          rfl
  | @object entries hentries ih =>
    rintro (_ | bound) rest hbound
    · simp [print] at hbound
    · rw [print, List.length_cons, List.length_append, List.length_singleton] at hbound
      rw [print, List.cons_append, List.append_assoc, readValue?,
        skipSpaces_cons '\x7b' rfl]
      cases entries with
      | nil => rfl
      | cons entry entries =>
        have hread := readEntries?_printed (List.cons_ne_nil entry entries) ih bound rest (by omega)
        obtain ⟨further, hfirst⟩ := exists_printEntries_eq_cons entry entries
        rw [hfirst, List.cons_append] at hread
        rw [hfirst, List.cons_append]
        simp only [skipSpaces_cons '"' rfl]
        rw [List.singleton_append, hread]
        rfl

theorem read?_render {value : Json} (hvalue : NumberFree value) :
    read? value.render = some value := by
  have hread := readsBack hvalue (2 * value.print.length + 2) [] (by omega)
  rw [List.append_nil] at hread
  rw [read?, render, String.toList_ofList]
  simp only [hread, Option.bind_eq_bind, Option.bind_some]
  rfl

/-! ### Line ends -/

theorem newline_ne_of_le {character : Char} (hplain : 0x20 ≤ character.toNat) :
    '\n' ≠ character := by
  rintro rfl
  revert hplain
  decide

theorem newline_ne_hexadecimalDigit : ∀ value < 16, '\n' ≠ hexadecimalDigit value := by
  decide

/-- A line end is escaped, so it never stands in a printed string. -/
theorem newline_not_mem_escape (character : Char) : '\n' ∉ escape character := by
  rcases escape_cases character with ⟨letter, -, hplain, -, hescape⟩ |
    ⟨hcontrol, hescape⟩ | ⟨-, -, hplain, hescape⟩
  · simp [hescape, newline_ne_of_le hplain]
  · have hhigh := newline_ne_hexadecimalDigit (character.toNat / 16) (by omega)
    have hlow := newline_ne_hexadecimalDigit (character.toNat % 16) (by omega)
    simp [hescape, hhigh, hlow]
  · simp [hescape, newline_ne_of_le hplain]

theorem newline_not_mem_printString (text : String) : '\n' ∉ printString text := by
  simp [printString, newline_not_mem_escape]

theorem newline_not_mem_printItems {items : List Json}
    (hitems : ∀ item ∈ items, '\n' ∉ item.print) : '\n' ∉ printItems items := by
  induction items with
  | nil => simp [printItems]
  | cons item items ih =>
    have hitem := hitems item List.mem_cons_self
    have hrest := ih fun other hother => hitems other (List.mem_cons_of_mem _ hother)
    cases items with
    | nil => exact hitem
    | cons next items => simp [printItems, hitem, hrest]

theorem newline_not_mem_printEntries {entries : List (String × Json)}
    (hentries : ∀ entry ∈ entries, '\n' ∉ entry.2.print) : '\n' ∉ printEntries entries := by
  induction entries with
  | nil => simp [printEntries]
  | cons entry entries ih =>
    obtain ⟨name, value⟩ := entry
    have hname := newline_not_mem_printString name
    have hvalue : '\n' ∉ value.print := hentries (name, value) List.mem_cons_self
    have hrest := ih fun other hother => hentries other (List.mem_cons_of_mem _ hother)
    cases entries with
    | nil => simp [printEntries, hname, hvalue]
    | cons next entries => simp [printEntries, hname, hvalue, hrest]

/-- The text of a value without numbers has no line end. -/
theorem newline_not_mem_print {value : Json} (hvalue : NumberFree value) :
    '\n' ∉ value.print := by
  induction hvalue with
  | null => decide
  | bool value => cases value <;> decide
  | string value => exact newline_not_mem_printString value
  | array hitems ih => simp [print, newline_not_mem_printItems ih]
  | object hentries ih => simp [print, newline_not_mem_printEntries ih]

end CanonicalTokens.Json
