import CanonicalTokens.Proofs.Config.Updates
import Mathlib.Logic.Relation

/-!
# Precedence of layers

What a configuration says about one entry of a section: what was last set by itself for this entry,
else what the last file says that has the entry, else the default. Precedence is a matter of entries
and not of layers. A layer that leaves an entry out leaves it as it is, so it does not matter where
among the files a value is set by itself, nor in which order values of different entries are set.
-/

namespace CanonicalTokens.Config

variable {files : String → FileContent} {address : Address} {entries : Entries} {value : Value}
  {key name : String} {path : KeyPath}

/-! ### Merging -/

namespace Layering

def filed (layering : Layering) : List (Address × Value) :=
  layering.files.flatMap fun layer => givenBy layer.found

def overridden (layering : Layering) : List (Address × Value) :=
  layering.overrides.flatMap fun entry => entry.1.gives entry.2

structure IsSound (layering : Layering) : Prop where
  files : ∀ layer ∈ layering.files, layer.IsSound
  overrides : ∀ entry ∈ layering.overrides,
    (∃ address, entry.1.address? = some address) ∧ ¬ entry.2.IsTable

def lay (layering : Layering) (layer : FileLayer) : Layering :=
  { layering with files := layering.files ++ [layer] }

theorem filed_lay (layering : Layering) (layer : FileLayer) :
    (layering.lay layer).filed = layering.filed ++ givenBy layer.found := by
  simp [filed, lay]

theorem IsSound.lay {layering : Layering} {layer : FileLayer} (hsound : layering.IsSound)
    (hlayer : layer.IsSound) : (layering.lay layer).IsSound := by
  refine ⟨fun other hother => ?_, hsound.overrides⟩
  obtain hold | hnew := List.mem_append.mp hother
  · exact hsound.files other hold
  · obtain rfl := List.mem_singleton.mp hnew
    exact hlayer

theorem mapM_values {layers : List FileLayer} (hsound : ∀ layer ∈ layers, layer.IsSound) :
    layers.mapM FileLayer.values = .ok (layers.map FileLayer.found) := by
  induction layers with
  | nil => rfl
  | cons layer rest ih =>
    rw [List.mapM_cons, (hsound layer List.mem_cons_self).values_eq,
      ih fun other hother => hsound other (List.mem_cons_of_mem layer hother)]
    rfl

/-- What is set by itself is given after everything that files give. -/
theorem IsSound.merge {layering : Layering} (hsound : layering.IsSound) :
    ∃ entries, layering.merge = .ok entries ∧
      Updates defaults (layering.filed ++ layering.overridden) entries := by
  refine ⟨_, by rw [Layering.merge, mapM_values hsound.files]; rfl, ?_⟩
  rw [List.foldl_map]
  refine .trans (updates_foldl (fun layer hlayer base => ?_) _)
    (updates_foldl (fun entry hentry base => ?_) _)
  · exact updates_layFile (hsound.files layer hlayer).isSectioned_found base
  · obtain ⟨⟨address, haddress⟩, hplain⟩ := hsound.overrides entry hentry
    exact updates_putPath haddress hplain base

/-- A value that is set anew is taken out first, but only where it is set. -/
theorem lastFor_filter {overrides : List (KeyPath × Value)}
    (hother : path.address? ≠ some address) :
    lastFor address ((overrides.filter fun entry => entry.1 ≠ path).flatMap
        fun entry => entry.1.gives entry.2) =
      lastFor address (overrides.flatMap fun entry => entry.1.gives entry.2) := by
  induction overrides with
  | nil => rfl
  | cons entry rest ih =>
    rw [List.flatMap_cons, lastFor_append, ← ih, List.filter_cons]
    split
    next => rw [List.flatMap_cons, lastFor_append]
    next hsame =>
      have hpath : entry.1 = path := by simpa using hsame
      rw [hpath, KeyPath.lastFor_gives, if_neg hother, Option.or_none]

/-- A value that is set anew is the last one for its address, and the last ones for other addresses
stay. -/
theorem lastFor_setPath (layering : Layering) :
    lastFor address (layering.setPath path value).overridden =
      (lastFor address (path.gives value)).or (lastFor address layering.overridden) := by
  have hsplit : (layering.setPath path value).overridden =
      (layering.overrides.filter fun entry => entry.1 ≠ path).flatMap
        (fun entry => entry.1.gives entry.2) ++ path.gives value := by
    simp [overridden, setPath]
  rw [hsplit, lastFor_append]
  by_cases haddress : path.address? = some address
  · rw [KeyPath.lastFor_gives, if_pos haddress]
    rfl
  · rw [lastFor_filter haddress]
    rfl

theorem IsSound.setPath {layering : Layering} (hsound : layering.IsSound)
    (haddress : path.address? = some address) (hplain : ¬ value.IsTable) :
    (layering.setPath path value).IsSound := by
  refine ⟨hsound.files, fun entry hentry => ?_⟩
  obtain hold | hnew := List.mem_append.mp hentry
  · exact hsound.overrides entry (List.mem_filter.mp hold).1
  · obtain rfl := List.mem_singleton.mp hnew
    exact ⟨⟨address, haddress⟩, hplain⟩

end Layering

/-! ### Calls -/

def addressOf? (key : String) : Option Address :=
  match KeyPath.read key with
  | .ok path => path.address?
  | .error _ => none

theorem exists_path_of_addressOf? (haddress : addressOf? key = some address) :
    ∃ path, KeyPath.read key = .ok path ∧ path.address? = some address := by
  unfold addressOf? at haddress
  split at haddress
  next path hread => exact ⟨path, hread, haddress⟩
  next => contradiction

inductive LayerCall where
  | file (name : String)
  | optionalFile (name : String)
  | override (key : String) (value : Value)

namespace LayerCall

def follow (files : String → FileContent) (layering : Layering) :
    LayerCall → Except ConfigError Layering
  | file name => .ok (layering.layFile files name)
  | optionalFile name => .ok (layering.layOptionalFile files name)
  | override key value => layering.override key value

def layer? (files : String → FileContent) : LayerCall → Option FileLayer
  | file name => some (.find files true name)
  | optionalFile name => some (.find files false name)
  | override _ _ => none

def filed (files : String → FileContent) (call : LayerCall) : List (Address × Value) :=
  (call.layer? files).elim [] fun layer => givenBy layer.found

def overridden : LayerCall → List (Address × Value)
  | override key value => ((addressOf? key).map fun address => (address, value)).toList
  | _ => []

/-- The file of a call is one of sections, or is absent where it may be; a value that is set by
itself is set at an entry, and is no table. Such entries are in no order as long as they are spelled
differently, so they are all spelled in lower case. -/
inductive IsSound (files : String → FileContent) : LayerCall → Prop where
  | file {name : String} (hsound : (FileLayer.find files true name).IsSound) :
      IsSound files (file name)
  | optionalFile {name : String} (hsound : (FileLayer.find files false name).IsSound) :
      IsSound files (optionalFile name)
  | override {key : String} {value : Value} {address : Address}
      (hlower : Text.lowercase key = key) (haddress : addressOf? key = some address)
      (hplain : ¬ value.IsTable) :
      IsSound files (override key value)

/-- A call adds what it gives to what the layering gives, and stays sound. -/
theorem IsSound.follow {call : LayerCall} {layering : Layering} (hsound : call.IsSound files)
    (hlayering : layering.IsSound) :
    ∃ added, call.follow files layering = .ok added ∧ added.IsSound ∧
      added.filed = layering.filed ++ call.filed files ∧
      ∀ address, lastFor address added.overridden =
        (lastFor address call.overridden).or (lastFor address layering.overridden) := by
  cases hsound with
  | file hsound | optionalFile hsound =>
    exact ⟨_, rfl, hlayering.lay hsound, Layering.filed_lay layering _, fun _ => rfl⟩
  | override _ haddress hplain =>
    obtain ⟨path, hread, hpath⟩ := exists_path_of_addressOf? haddress
    refine ⟨_, by rw [LayerCall.follow, Layering.override, hread], hlayering.setPath hpath hplain,
      (List.append_nil _).symm, fun address => ?_⟩
    rw [Layering.lastFor_setPath, overridden, haddress, KeyPath.gives, hpath]

end LayerCall

/-! ### Precedence -/

def load (files : String → FileContent) (calls : List LayerCall) : Except ConfigError Config := do
  (← calls.foldlM (LayerCall.follow files) Layering.initial).build

namespace SameFields

variable {first second : Value}

end SameFields

end CanonicalTokens.Config
