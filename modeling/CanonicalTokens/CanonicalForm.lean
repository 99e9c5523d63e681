import CanonicalTokens.Parse
import CanonicalTokens.Pipeline
import CanonicalTokens.Rules.Cpp
import CanonicalTokens.Rules.CSharp
import CanonicalTokens.Rules.Go
import CanonicalTokens.Rules.Python
import CanonicalTokens.Walk

/-!
# Canonical tokens of a source

The whole way from a source text to its canonical tokens: parse in two attempts, then walk the
tree by the rules of its language. The full form keeps how the tokens were obtained, or says why
there are none; where only the tokens are asked for, there are none then.
-/

namespace CanonicalTokens

def Language.rules : Language → Rules
  | cpp => Rules.cpp
  | csharp => Rules.csharp
  | go => Rules.go
  | python => Rules.python

@[simp]
theorem Language.language_rules (language : Language) : language.rules.language = language := by
  cases language <;> rfl

structure CanonicalOptions where
  parsing : ParseLimits
  walk : WalkOptions
  deriving DecidableEq, Repr

def CanonicalOptions.standard : CanonicalOptions :=
  ⟨.standard, .standard⟩

/-- The tokens of a source, with how they were obtained. -/
structure CanonicalForm where
  language : Language
  tokens : List String
  attempt : Attempt
  report : DamageReport
  tally : ScopeTally
  deriving DecidableEq, Repr

inductive FormFailure where
  | parse (cause : ParseFailure)
  deriving DecidableEq, Repr

namespace FormFailure

def cause : FormFailure → ParseFailure
  | parse cause => cause

def message (failure : FormFailure) : Checked String :=
  failure.cause.message

end FormFailure

namespace CanonicalOptions

variable {m : Type → Type} [Monad m]

def parseStep (options : CanonicalOptions) (grammars : Grammars m) (file : SourceFile) :
    CheckedT m (Except FormFailure AcceptedTree) := do
  return (← options.parsing.parse grammars file).mapError .parse

def formOf (options : CanonicalOptions) (accepted : AcceptedTree) : CanonicalForm :=
  let language := accepted.file.language
  let walked := (Walk.mk accepted.file.source language.rules options.walk).run accepted.tree
  ⟨language, walked.tokens.map Token.text, accepted.attempt, accepted.report, walked.tally⟩

/-- The second step: the tokens of the tree. It does not fail. -/
def walkStep (options : CanonicalOptions) (accepted : AcceptedTree) :
    CheckedT m (Except FormFailure CanonicalForm) :=
  return .ok (options.formOf accepted)

def pipeline (options : CanonicalOptions) (grammars : Grammars m) :
    Pipeline (CheckedT m) FormFailure SourceFile CanonicalForm :=
  (Pipeline.identity.andThen (options.parseStep grammars)).andThen options.walkStep

/-- The tokens of a source with how they were obtained, or why there are none. -/
def canonicalize (options : CanonicalOptions) (grammars : Grammars m) (file : SourceFile) :
    CheckedT m (Except FormFailure CanonicalForm) :=
  (options.pipeline grammars).run file

/-- The tokens of a source, none if it cannot be parsed. -/
def tokens (options : CanonicalOptions) (grammars : Grammars m) (file : SourceFile) :
    CheckedT m (List String) := do
  match ← options.canonicalize grammars file with
  | .ok form => return form.tokens
  | .error _ => return []

end CanonicalOptions

end CanonicalTokens
