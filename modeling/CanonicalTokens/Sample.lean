import CanonicalTokens.Language

/-!
# Samples

The curated source files of each language. A language keeps its samples in a directory of its own,
under the first of its extensions.
-/

namespace CanonicalTokens

structure Sample where
  language : Language
  name : String
  deriving DecidableEq, Repr

namespace Sample

def extension (language : Language) : String :=
  language.extensions.headD ""

/-- Where the sample is kept, from the directory that holds the samples of all languages. -/
def path (sample : Sample) : String :=
  s!"samples/{sample.language.name}/{sample.name}.{extension sample.language}"

/-- The names of the samples that every language has, in order. -/
def names : List String := ["literals", "scopes"]

def all (language : Language) : List Sample :=
  names.map fun name => ⟨language, name⟩

end Sample

end CanonicalTokens
