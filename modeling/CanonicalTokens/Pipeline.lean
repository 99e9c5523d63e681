/-!
# Pipelines

A chain of steps, each turning one value into the next or failing. The first failure ends the run
and is its result. A pipeline can itself be a step of another one; nesting does not change which
steps run.
-/

namespace CanonicalTokens

/-- A chain of steps from an input to an output, with effects in a monad and failures of one
type. -/
inductive Pipeline (m : Type → Type) (Failure : Type) : Type → Type → Type 1 where
  /-- Passes the input on. -/
  | identity {Input : Type} : Pipeline m Failure Input Input
  /-- Gives the output of a pipeline to one more step. -/
  | andThen {Input Middle Output : Type} (pipeline : Pipeline m Failure Input Middle)
      (step : Middle → m (Except Failure Output)) : Pipeline m Failure Input Output
  /-- Gives the output of a pipeline to another pipeline. -/
  | andThenAll {Input Middle Output : Type} (pipeline : Pipeline m Failure Input Middle)
      (next : Pipeline m Failure Middle Output) : Pipeline m Failure Input Output

namespace Pipeline

variable {m : Type → Type} [Monad m] {Failure : Type}

def run {Input Output : Type} :
    Pipeline m Failure Input Output → Input → m (Except Failure Output)
  | identity, input => return .ok input
  | andThen pipeline step, input => do
    match ← run pipeline input with
    | .ok value => step value
    | .error failure => return .error failure
  | andThenAll pipeline next, input => do
    match ← run pipeline input with
    | .ok value => run next value
    | .error failure => return .error failure

end Pipeline

end CanonicalTokens
