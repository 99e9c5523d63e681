import CanonicalTokens.Path
import CanonicalTokens.Text.Classes
import CanonicalTokens.Text.Lowercase

/-!
# Languages

The languages whose source is canonicalized, with their names, the spellings accepted for them and
the extensions of their files.
-/

namespace CanonicalTokens

inductive Language where
  | cpp
  | csharp
  | go
  | python
  deriving DecidableEq, Repr, Inhabited

namespace Language

def all : List Language := [cpp, csharp, go, python]

/-- The name in lower case that is used wherever a language is written. -/
def name : Language → String
  | cpp => "cpp"
  | csharp => "csharp"
  | go => "go"
  | python => "python"

def display : Language → String
  | cpp => "C++"
  | csharp => "C#"
  | go => "Go"
  | python => "Python"

/-- Every accepted spelling, the name first. -/
def aliases : Language → List String
  | cpp => ["cpp", "c++"]
  | csharp => ["csharp", "c#", "cs"]
  | go => ["go", "golang"]
  | python => ["python", "python3", "py", "py3"]

/-- The extensions of source files, without the point. Capitals count: `C` is C++. -/
def extensions : Language → List String
  | cpp => ["cpp", "hpp", "cxx", "hxx", "cc", "hh", "C", "H", "c", "h"]
  | csharp => ["cs"]
  | go => ["go"]
  | python => ["py", "py3"]

def ofExtension? (extension : String) : Option Language :=
  all.find? fun language => language.extensions.contains extension

/-- The language of a file, judged by its extension. -/
def ofPath? (path : String) : Option Language :=
  (Path.extension? path).bind ofExtension?

/-- The language that a text names, whatever its case and the blanks around it. -/
def ofName? (text : String) : Option Language :=
  let wanted := Text.lowercase (String.ofList (Text.trim text.toList))
  all.find? fun language => language.aliases.contains wanted

def unknownMessage (text : String) : String :=
  s!"unknown language: {text} (expected one of cpp, csharp, go, python)"

end Language

end CanonicalTokens
