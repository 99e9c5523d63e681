import CanonicalTokens.Proofs.Config.Defaults
import Mathlib.Data.List.TakeWhile

/-!
# Updates of a configuration

Laying one configuration over another, told by the values that are given to entries, in order, and
not by tables: a file of sections gives a value to each of its entries, and a value that is set by
itself is given to one. Laying updates a configuration at the entries that are given a value, and
nowhere else.
-/

namespace CanonicalTokens.Config

/-! ### Entries -/

structure Address where
  part : String
  name : String
  deriving DecidableEq, Repr

def Entries.at? (entries : Entries) (address : Address) : Option Value :=
  ((entries.lookup address.part).getD .nil).entries.lookup address.name

def lastFor (address : Address) (given : List (Address × Value)) : Option Value :=
  given.reverse.lookup address

def sections : List Section := [parsingSection, canonicalizationSection, outputSection]

namespace Value

def IsTable : Value → Prop
  | table _ _ => True
  | _ => False

instance : DecidablePred IsTable
  | scalar _ _ => isFalse id
  | list _ _ => isFalse id
  | table _ _ => isTrue trivial

end Value

def HasSections (entries : Entries) : Prop :=
  ∀ part ∈ sections, ∃ value, entries.lookup part.name = some value ∧ value.IsTable

variable {files : String → FileContent} {address : Address} {base next entries : Entries}
  {given later : List (Address × Value)} {value : Value} {key name part : String} {path : KeyPath}

theorem lastFor_append :
    lastFor address (given ++ later) = (lastFor address later).or (lastFor address given) := by
  rw [lastFor, List.reverse_append, List.lookup_append]
  rfl

theorem lastFor_cons {first : Address} :
    lastFor address ((first, value) :: given) =
      (lastFor address given).or (if address = first then some value else none) := by
  rw [← List.singleton_append, lastFor_append]
  by_cases hsame : address = first
  · simp [lastFor, hsame]
  · have hdiffer : (address == first) = false := beq_false_of_ne hsame
    simp [lastFor, List.lookup_cons, hdiffer, hsame]

theorem lastFor_eq_none (hother : ∀ entry ∈ given, entry.1 ≠ address) :
    lastFor address given = none := by
  rw [lastFor, List.lookup_eq_none_iff]
  intro entry hentry
  exact bne_iff_ne.mpr (hother entry (List.mem_reverse.mp hentry)).symm

theorem lastFor_toList (address? : Option Address) :
    lastFor address (address?.map fun address => (address, value)).toList =
      if address? = some address then some value else none := by
  cases address? with
  | none => rfl
  | some other =>
    have hone : lastFor address [(other, value)] = if address = other then some value else none :=
      lastFor_cons
    simpa [eq_comm] using hone

theorem Value.entries_withEntries (value : Value) (entries : Entries) :
    (value.withEntries entries).entries = entries := by
  cases value <;> rfl

theorem Value.isTable_withEntries (value : Value) (entries : Entries) :
    (value.withEntries entries).IsTable := by
  cases value <;> trivial

theorem at?_put (hentries : value.entries = entries) :
    (base.put part value).at? address =
      if address.part = part then entries.lookup address.name else base.at? address := by
  unfold Entries.at?
  split
  next hsame => rw [hsame, Entries.lookup_put_self, Option.getD_some, hentries]
  next hother => rw [Entries.lookup_put_of_ne hother]

theorem HasSections.put (hsections : HasSections base) (htable : value.IsTable) :
    HasSections (base.put part value) := by
  intro other hother
  by_cases hsame : other.name = part
  · exact ⟨value, hsame ▸ Entries.lookup_put_self part value base, htable⟩
  · obtain ⟨old, hold, holdTable⟩ := hsections other hother
    exact ⟨old, (Entries.lookup_put_of_ne hsame value base).trans hold, holdTable⟩

/-! ### Updates -/

structure Updates (base : Entries) (given : List (Address × Value)) (next : Entries) : Prop where
  at? : ∀ address, next.at? address = (lastFor address given).or (base.at? address)
  hasSections : HasSections base → HasSections next

theorem Updates.refl (base : Entries) : Updates base [] base :=
  ⟨fun _ => rfl, id⟩

theorem Updates.trans {last : Entries} (hfirst : Updates base given next)
    (hsecond : Updates next later last) : Updates base (given ++ later) last where
  at? address := by rw [hsecond.at?, hfirst.at?, lastFor_append, Option.or_assoc]
  hasSections hsections := hsecond.hasSections (hfirst.hasSections hsections)

theorem updates_foldl {Layer : Type} {lay : Entries → Layer → Entries}
    {gives : Layer → List (Address × Value)} {layers : List Layer}
    (hlay : ∀ layer ∈ layers, ∀ base, Updates base (gives layer) (lay base layer))
    (base : Entries) : Updates base (layers.flatMap gives) (layers.foldl lay base) := by
  induction layers generalizing base with
  | nil => exact .refl base
  | cons layer rest ih =>
    rw [List.flatMap_cons, List.foldl_cons]
    exact (hlay layer List.mem_cons_self base).trans
      (ih (fun other hother => hlay other (List.mem_cons_of_mem layer hother)) _)

/-! ### Laying files -/

def entriesOf (part : String) (table : Entries) : List (Address × Value) :=
  table.map fun entry => (⟨part, Text.lowercase entry.1⟩, entry.2)

def IsSectioned (entries : Entries) : Prop :=
  ∀ top ∈ entries, top.1 ∈ sections.map Section.name ∧ top.2.IsTable ∧
    ∀ entry ∈ top.2.entries, ¬ entry.2.IsTable

instance : DecidablePred IsSectioned := fun entries =>
  inferInstanceAs (Decidable (∀ top ∈ entries, _))

/-- No section is there twice, and no entry of a section under two spellings. The entries of a file
are in no order, so none of two would be the last one. -/
def SpelledOnce (entries : Entries) : Prop :=
  (entries.map Prod.fst).Nodup ∧
    ∀ top ∈ entries, (top.2.entries.map fun entry => Text.lowercase entry.1).Nodup

instance : DecidablePred SpelledOnce := fun entries =>
  inferInstanceAs (Decidable (_ ∧ ∀ top ∈ entries, _))

def givenBy (entries : Entries) : List (Address × Value) :=
  entries.flatMap fun top => entriesOf top.1 top.2.entries

theorem layEntry_of_not_isTable (hplain : ¬ value.IsTable) (base : Entries) (name : String) :
    layEntry base name value = base.put (Text.lowercase name) value := by
  cases value with
  | table => exact absurd trivial hplain
  | scalar | list => simp [layEntry]

/-- A table that is laid over a section gives its last value for a name, and other names keep the
values they had. -/
theorem lookup_layEntries {table : Entries} (hplain : ∀ entry ∈ table, ¬ entry.2.IsTable)
    (base : Entries) (address : Address) :
    (layEntries base table).lookup address.name =
      (lastFor address (entriesOf address.part table)).or (base.lookup address.name) := by
  induction table generalizing base with
  | nil => rw [layEntries]; rfl
  | cons entry rest ih =>
    obtain ⟨name, value⟩ := entry
    obtain ⟨part, wanted⟩ := address
    have hgiven : entriesOf part ((name, value) :: rest) =
        (⟨part, Text.lowercase name⟩, value) :: entriesOf part rest := rfl
    rw [layEntries, layEntry_of_not_isTable (hplain _ List.mem_cons_self),
      ih fun other hother => hplain other (List.mem_cons_of_mem _ hother), hgiven, lastFor_cons,
      Option.or_assoc]
    congr 1
    by_cases hsame : wanted = Text.lowercase name
    · simp [hsame, Entries.lookup_put_self]
    · simp [hsame, Entries.lookup_put_of_ne hsame]

theorem lastFor_entriesOf_of_ne (hother : address.part ≠ part) (table : Entries) :
    lastFor address (entriesOf part table) = none := by
  apply lastFor_eq_none
  simp only [entriesOf, List.mem_map]
  rintro _ ⟨entry, -, rfl⟩ rfl
  exact hother rfl

theorem lowercase_of_mem_sections (hpart : part ∈ sections.map Section.name) :
    Text.lowercase part = part := by
  have hsmall : ∀ part ∈ sections.map Section.name, part.toList.all Text.isSmall := by decide
  exact Text.lowercase_of_isSmall (List.all_eq_true.mp (hsmall part hpart))

/-- A key of plain characters is the name of one entry. -/
theorem KeyPath.read_name (hempty : name.toList ≠ [])
    (hname : name.toList.all KeyPath.isNameCharacter) : KeyPath.read name = .ok ⟨name, []⟩ := by
  have hall : ∀ character ∈ name.toList, KeyPath.isNameCharacter character :=
    List.all_eq_true.mp hname
  have hsteps : KeyPath.readSteps [] = .ok [] := by rw [KeyPath.readSteps]
  unfold KeyPath.read
  dsimp only
  rw [List.takeWhile_eq_self_iff.mpr hall, List.dropWhile_eq_nil_iff.mpr hall, hsteps,
    String.ofList_toList, if_neg (by simpa using hempty)]
  rfl

theorem read_of_mem_sections (hpart : part ∈ sections.map Section.name) :
    KeyPath.read part = .ok ⟨part, []⟩ := by
  have hname : ∀ part ∈ sections.map Section.name,
      part.toList ≠ [] ∧ part.toList.all KeyPath.isNameCharacter := by
    decide
  exact KeyPath.read_name (hname part hpart).1 (hname part hpart).2

/-- A section is laid over entry by entry. -/
theorem updates_layEntry {origin? : Option String} {table : Entries}
    (hpart : part ∈ sections.map Section.name) (hplain : ∀ entry ∈ table, ¬ entry.2.IsTable)
    (base : Entries) :
    Updates base (entriesOf part table) (layEntry base part (.table origin? table)) := by
  have hold : ((base.lookup part).getD (.table none [])).entries =
      ((base.lookup part).getD .nil).entries := by
    cases base.lookup part <;> rfl
  cases table with
  | nil =>
    rw [layEntry, lowercase_of_mem_sections hpart]
    constructor
    · intro address
      rw [at?_put hold]
      split
      next hsame => rw [Entries.at?, hsame]; rfl
      next => rfl
    · -- An empty table gives nothing, so the section has to be a table before.
      intro hsections
      obtain ⟨other, hother, rfl⟩ := List.mem_map.mp hpart
      obtain ⟨old, hlookup, htable⟩ := hsections other hother
      exact hsections.put (by rwa [hlookup])
  | cons entry rest =>
    rw [layEntry, lowercase_of_mem_sections hpart]
    constructor
    · intro address
      rw [at?_put (Value.entries_withEntries _ _)]
      split
      next hsame => rw [lookup_layEntries hplain, hold, hsame, Entries.at?, hsame]
      next hother => rw [lastFor_entriesOf_of_ne hother]; rfl
    · exact fun hsections => hsections.put (Value.isTable_withEntries _ _)

theorem updates_layNamed {top : String × Value} (hpart : top.1 ∈ sections.map Section.name)
    (htable : top.2.IsTable) (hplain : ∀ entry ∈ top.2.entries, ¬ entry.2.IsTable)
    (base : Entries) : Updates base (entriesOf top.1 top.2.entries) (layNamed base top) := by
  obtain ⟨part, value⟩ := top
  cases value with
  | scalar | list => exact htable.elim
  | table origin? table =>
    rw [layNamed, read_of_mem_sections hpart]
    exact updates_layEntry hpart hplain base

theorem updates_layFile {top : Entries} (hsectioned : IsSectioned top) (base : Entries) :
    Updates base (givenBy top) (top.foldl layNamed base) :=
  updates_foldl (fun entry hentry =>
    let ⟨hpart, htable, hplain⟩ := hsectioned entry hentry
    updates_layNamed hpart htable hplain) base

/-! ### Files as they are found -/

theorem locatedEntries_eq_map (origin : String) (table : Entries) :
    Value.locatedEntries origin table =
      table.map fun entry => (entry.1, entry.2.located origin) := by
  induction table with
  | nil => rw [Value.locatedEntries]; rfl
  | cons entry rest ih => rw [Value.locatedEntries, ih]; rfl

theorem Value.isTable_located (origin : String) (value : Value) :
    (value.located origin).IsTable ↔ value.IsTable := by
  cases value <;> simp [located, IsTable]

theorem Value.entries_located (origin : String) (value : Value) :
    (value.located origin).entries = Value.locatedEntries origin value.entries := by
  cases value <;> simp [located, Value.entries, locatedEntries]

theorem IsSectioned.located (hsectioned : IsSectioned entries) (origin : String) :
    IsSectioned (Value.locatedEntries origin entries) := by
  rw [IsSectioned, locatedEntries_eq_map, List.forall_mem_map]
  intro top htop
  obtain ⟨hpart, htable, hplain⟩ := hsectioned top htop
  refine ⟨hpart, (Value.isTable_located origin _).mpr htable, ?_⟩
  rw [Value.entries_located, locatedEntries_eq_map, List.forall_mem_map]
  exact fun entry hentry => mt (Value.isTable_located origin _).mp (hplain entry hentry)

namespace FileLayer

def found (layer : FileLayer) : Entries :=
  match layer.content with
  | .entries entries => Value.locatedEntries layer.path entries
  | _ => []

inductive IsSound (layer : FileLayer) : Prop where
  | present {entries : Entries} (hcontent : layer.content = .entries entries)
      (hsectioned : IsSectioned entries) (hspelled : SpelledOnce entries)
  | absent (hcontent : layer.content = .absent) (hoptional : layer.required = false)

theorem IsSound.values_eq {layer : FileLayer} (hsound : layer.IsSound) :
    layer.values = .ok layer.found := by
  unfold values found
  cases hsound with
  | present hcontent => simp only [hcontent]
  | absent hcontent hoptional => simp [hcontent, hoptional]

/-- What a sound file holds is a table of plain values for each section, and an absent file holds
nothing. -/
theorem IsSound.isSectioned_found {layer : FileLayer} (hsound : layer.IsSound) :
    IsSectioned layer.found := by
  unfold found
  cases hsound with
  | present hcontent hsectioned =>
    simp only [hcontent]
    exact hsectioned.located layer.path
  | absent hcontent =>
    simp only [hcontent]
    exact fun _ hnone => absurd hnone List.not_mem_nil

end FileLayer

/-! ### Values set by themselves -/

namespace KeyPath

def address? : KeyPath → Option Address
  | ⟨part, [.entry name]⟩ => some ⟨Text.lowercase part, Text.lowercase name⟩
  | _ => none

def gives (path : KeyPath) (value : Value) : List (Address × Value) :=
  (path.address?.map fun address => (address, value)).toList

theorem lastFor_gives (path : KeyPath) (value : Value) (address : Address) :
    lastFor address (path.gives value) =
      if path.address? = some address then some value else none :=
  lastFor_toList path.address?

end KeyPath

theorem putPath_entry (hplain : ¬ value.IsTable) (base : Entries) (part name : String) :
    putPath base ⟨part, [.entry name]⟩ value =
      let key := Text.lowercase part
      let old := (base.lookup key).getD .nil
      base.put key (old.withEntries (old.entries.put (Text.lowercase name) value)) := by
  rw [putPath, putAt, putAt, layEntry_of_not_isTable hplain, Value.entries_withEntries]
  rfl

/-- A value that is put under a section replaces what its address held, and no other address
changes. -/
theorem updates_putEntry (base : Entries) (address : Address) (value : Value) :
    let old := (base.lookup address.part).getD .nil
    Updates base [(address, value)]
      (base.put address.part (old.withEntries (old.entries.put address.name value))) := by
  constructor
  · intro wanted
    obtain ⟨part, name⟩ := address
    obtain ⟨wantedPart, wantedName⟩ := wanted
    rw [at?_put (Value.entries_withEntries _ _), lastFor_cons]
    by_cases hpart : wantedPart = part
    · subst hpart
      by_cases hname : wantedName = name
      · simp [hname, Entries.lookup_put_self, lastFor]
      · simp [hname, Entries.lookup_put_of_ne hname, lastFor, Entries.at?]
    · simp [hpart, lastFor]
  · exact fun hsections => hsections.put (Value.isTable_withEntries _ _)

theorem updates_putPath (haddress : path.address? = some address) (hplain : ¬ value.IsTable)
    (base : Entries) : Updates base (path.gives value) (putPath base path value) := by
  have hgives : path.gives value = [(address, value)] := by rw [KeyPath.gives, haddress]; rfl
  rw [hgives]
  obtain ⟨part, steps⟩ := path
  unfold KeyPath.address? at haddress
  split at haddress
  next part name hpath =>
    obtain ⟨rfl, rfl⟩ := KeyPath.mk.inj hpath
    rw [putPath_entry hplain, ← Option.some.inj haddress]
    exact updates_putEntry base ⟨Text.lowercase part, Text.lowercase name⟩ value
  next => contradiction

end CanonicalTokens.Config
