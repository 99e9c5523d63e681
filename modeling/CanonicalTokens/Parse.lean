import CanonicalTokens.Language
import CanonicalTokens.Damage

/-!
# Parsing in two attempts

A source is parsed with a short budget first. A tree without damage that comes in time is taken as
it is. Otherwise the forgiving attempt decides: it judges the damaged tree, or, if there was no tree
in time, the tree of a second parse with a longer budget. It accepts a tree whose root is no error,
whose damage is not at the end of the source, and whose damage stays within two limits. Damage at
the end means that the source was cut off, and repairing it would invent the end.

How a tree is made is up to the parser that is given; it may run in any monad. The run ends without
a decision if the counters of a report do not add up to a word.
-/

namespace CanonicalTokens

open Numeral

structure Duration where
  micros : Nat
  deriving DecidableEq, Repr

namespace Duration

def ofMillis (millis : Nat) : Duration := ⟨1000 * millis⟩

/-- Whole milliseconds; the rest is dropped. -/
def millis (duration : Duration) : Nat := duration.micros / 1000

end Duration

structure ParseLimits where
  fastTimeout : Duration
  forgivingTimeout : Duration
  maxErrorNodes : Nat
  maxErrorRatio : Binary64
  deriving DecidableEq, Repr

/-- A quarter of a second, then five seconds; at most 32 damaged nodes and a quarter of the source
in error. -/
def ParseLimits.standard : ParseLimits :=
  ⟨.ofMillis 250, .ofMillis 5000, 32, ⟨0x3FD0000000000000⟩⟩

inductive Attempt where
  | fast
  | forgiving
  deriving DecidableEq, Repr

def Attempt.name : Attempt → String
  | fast => "fast"
  | forgiving => "forgiving"

/-! ### What may go wrong -/

/-- Why the fast attempt did not take a tree. A damaged tree is kept for the forgiving attempt. -/
inductive Rejection where
  | syntaxErrors (report : DamageReport) (tree : Tree)
  | timedOut (budget : Duration)

namespace Rejection

def syntaxErrorsMessage (report : DamageReport) : Checked String := do
  let description ← report.describe
  return s!"syntax errors: {description}"

def message : Rejection → Checked String
  | syntaxErrors report _ => syntaxErrorsMessage report
  | timedOut budget => return s!"fast parse exceeded {budget.millis}ms"

end Rejection

inductive ParseFailure where
  | tooManyErrors (report : DamageReport)
  | timedOut (budget : Duration)
  | grammar (message : String)
  deriving DecidableEq, Repr

def ParseFailure.message : ParseFailure → Checked String
  | tooManyErrors report => do
    let description ← report.describe
    return s!"too many syntax errors: {description}"
  | timedOut budget => return s!"forgiving parse exceeded {budget.millis}ms"
  | grammar message => return s!"grammar could not be loaded: {message}"

/-! ### The attempts -/

structure SourceFile where
  language : Language
  source : Source
  deriving DecidableEq, Repr

structure AcceptedTree where
  file : SourceFile
  tree : Tree
  attempt : Attempt
  report : DamageReport

/-- Makes the tree of a source within a budget, or runs out of time. A budget of zero is no
limit. -/
abbrev Parser (m : Type → Type) := Source → Duration → m (Option Tree)

/-- The parsers by language. A grammar that cannot be loaded has an explanation instead. -/
abbrev Grammars (m : Type → Type) := Language → Except String (Parser m)

namespace ParseLimits

variable {m : Type → Type} [Monad m]

/-- Whether the forgiving attempt accepts a tree with this report. Nothing is added up if the root
is in error or the source is cut off. -/
def accepts (options : ParseLimits) (report : DamageReport) : Checked Bool :=
  if report.rootIsError || report.truncated then .ok false
  else do
    let damage ← report.damage
    return damage ≤ options.maxErrorNodes && report.damagedShare.le options.maxErrorRatio

/-- Takes the tree of the first parse if it has come in time and has no damage. -/
def tryFast (options : ParseLimits) (parser : Parser m) (source : Source) :
    CheckedT m (Except Rejection (Tree × DamageReport)) := do
  match ← parser source options.fastTimeout with
  | none => return .error (.timedOut options.fastTimeout)
  | some tree =>
    let report := DamageReport.ofTree source tree
    return if ← report.isDamaged then .error (.syntaxErrors report tree) else .ok (tree, report)

def judge (options : ParseLimits) (tree : Tree) (report : DamageReport) :
    Checked (Except ParseFailure (Tree × DamageReport)) := do
  return if ← options.accepts report then .ok (tree, report) else .error (.tooManyErrors report)

/-- Judges the rejected tree, or parses a second time if there was none. -/
def tryForgiving (options : ParseLimits) (parser : Parser m) (source : Source) :
    Rejection → CheckedT m (Except ParseFailure (Tree × DamageReport))
  | .syntaxErrors report tree => options.judge tree report
  | .timedOut _ => do
    match ← parser source options.forgivingTimeout with
    | none => return .error (.timedOut options.forgivingTimeout)
    | some tree => options.judge tree (DamageReport.ofTree source tree)

/-- The tree of a file from the first attempt that accepts one. -/
def parse (options : ParseLimits) (grammars : Grammars m) (file : SourceFile) :
    CheckedT m (Except ParseFailure AcceptedTree) := do
  match grammars file.language with
  | .error message => return .error (.grammar message)
  | .ok parser =>
    match ← options.tryFast parser file.source with
    | .ok (tree, report) => return .ok ⟨file, tree, .fast, report⟩
    | .error rejection =>
      match ← options.tryForgiving parser file.source rejection with
      | .ok (tree, report) => return .ok ⟨file, tree, .forgiving, report⟩
      | .error failure => return .error failure

end ParseLimits

end CanonicalTokens
