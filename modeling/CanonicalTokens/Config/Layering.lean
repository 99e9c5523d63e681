import CanonicalTokens.Config.Decoding
import CanonicalTokens.Path

/-!
# Loading a configuration

The defaults, the files that are layered over them in order, and the values that are set by
themselves. What is set by itself counts over all files, and of two values for one path the last one
counts.
-/

namespace CanonicalTokens.Config

/-- What is found at the path of a file. -/
inductive FileContent where
  | absent
  | malformed
  | entries (entries : Entries)
  deriving Inhabited

/-- A file that is layered over what comes before it, as it was named and as it was found. -/
structure FileLayer where
  name : String
  path : String
  content : FileContent
  /-- Whether it is an error if there is no such file. -/
  required : Bool

namespace FileLayer

def extendedPath (name : String) : String :=
  Path.normalize name ++ ".toml"

/-- Looks for a file under its name, and if there is none, under its name with the extension. -/
def find (files : String → FileContent) (required : Bool) (name : String) : FileLayer :=
  match files name with
  | .absent => ⟨name, extendedPath name, files (extendedPath name), required⟩
  | content => ⟨name, Path.normalize name, content, required⟩

/-- The values of a file, each with the file as its origin. -/
def values (layer : FileLayer) : Except ConfigError Entries :=
  match layer.content with
  | .entries entries => .ok (Value.locatedEntries layer.path entries)
  | .malformed => .error (.fileMalformed layer.name)
  | .absent => if layer.required then .error (.fileNotFound layer.name) else .ok []

end FileLayer

structure Layering where
  files : List FileLayer
  overrides : List (KeyPath × Value)

def defaults : Entries :=
  let standard := Config.standard
  [("parsing", .table none [
      ("fast_timeout_ms", .ofNat standard.parsing.fastTimeoutMs),
      ("forgiving_timeout_ms", .ofNat standard.parsing.forgivingTimeoutMs),
      ("max_error_nodes", .ofNat standard.parsing.maxErrorNodes),
      ("max_error_ratio", .ofFloat standard.parsing.maxErrorRatio)]),
    ("canonicalization", .table none [
      ("scope_boundaries", .ofString standard.canonicalization.scopeBoundaries.name),
      ("distinguish_numbers", .ofBool standard.canonicalization.distinguishNumbers)]),
    ("output", .table none [("format", .ofString standard.format.name)])]

namespace Layering

def initial : Layering := ⟨[], []⟩

def layFile (layering : Layering) (files : String → FileContent) (name : String) : Layering :=
  { layering with files := layering.files ++ [.find files true name] }

def layOptionalFile (layering : Layering) (files : String → FileContent) (name : String) :
    Layering :=
  { layering with files := layering.files ++ [.find files false name] }

def setPath (layering : Layering) (path : KeyPath) (value : Value) : Layering :=
  { layering with
    overrides := layering.overrides.filter (fun (other, _) => other ≠ path) ++ [(path, value)] }

/-- Sets the value at the path that a text denotes. -/
def override (layering : Layering) (key : String) (value : Value) : Except ConfigError Layering :=
  match KeyPath.read key with
  | .ok path => .ok (layering.setPath path value)
  | .error error => .error (.badPath error)

def merge (layering : Layering) : Except ConfigError Entries := do
  let layers ← layering.files.mapM FileLayer.values
  let layered := layers.foldl (fun base layer => layer.foldl layNamed base) defaults
  return layering.overrides.foldl (fun base (path, value) => putPath base path value) layered

def build (layering : Layering) : Except ConfigError Config := do
  (← decode (← layering.merge)).validate

end Layering

end CanonicalTokens.Config
