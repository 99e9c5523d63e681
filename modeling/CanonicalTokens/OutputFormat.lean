/-!
# Output formats

How results are printed: as one JSON object per file, as one token per line, or as one file per
line.
-/

namespace CanonicalTokens

inductive OutputFormat where
  | json
  | lines
  | text
  deriving DecidableEq, Repr, Inhabited

namespace OutputFormat

def all : List OutputFormat := [json, lines, text]

def name : OutputFormat → String
  | json => "json"
  | lines => "lines"
  | text => "text"

/-- The format with the given name; case counts. -/
def ofName? (name : String) : Option OutputFormat :=
  all.find? fun format => format.name = name

def unknownMessage (text : String) : String :=
  s!"unknown output format '{text}'"

end OutputFormat

end CanonicalTokens
