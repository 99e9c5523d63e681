import CanonicalTokens.Text.Classes
import CanonicalTokens.Text.Quoted
import CanonicalTokens.Token

/-!
# Checks on token sequences

Expectations about the tokens of a source, each with the words in which its failure is told. Checks
are run one after the other, and the first that fails ends the run. A check that compares two values
shows both of them.
-/

namespace CanonicalTokens

/-- An expectation about a sequence of tokens, or the label for the failures of those that
follow. -/
inductive TokenCheck where
  | context (label : String)
  | isEmpty
  | notEmpty
  | count (expected : Nat)
  | equals (expected : List String)
  | startsWith (expected : List String)
  | containsSequence (expected : List String)
  | neverContains (token : String)
  | occurrences (token : String) (expected : Nat)
  | placeholderCount (placeholder : Placeholder) (expected : Nat)
  | balanced (opening closing : String)
  | wellFormed
  deriving DecidableEq, Repr

namespace TokenCheck

/-- Why a check fails: an expectation in words, or two values that should be the same. -/
inductive Failure where
  | unmet (message : String)
  | unequal (message left right : String)
  deriving DecidableEq, Repr

def Failure.message : Failure → String
  | unmet message => message
  | unequal message left right =>
    s!"assertion `left == right` failed: {message}\n  left: {left}\n right: {right}"

/-! ### Properties of token sequences -/

def occursIn (wanted : List String) : List String → Bool
  | [] => wanted.isEmpty
  | token :: rest => wanted.isPrefixOf (token :: rest) || occursIn wanted rest

/-- The openers left open at the end, when `depth` are open at the start; nothing if a closer comes
while none is open. A token that is both an opener and a closer opens. -/
def unclosed? (opening closing : String) : Nat → List String → Option Nat
  | depth, [] => some depth
  | depth, token :: rest =>
    if token = opening then unclosed? opening closing (depth + 1) rest
    else if token = closing then
      match depth with
      | 0 => none
      | outer + 1 => unclosed? opening closing outer rest
    else unclosed? opening closing depth rest

def malformation? (token : String) : Option String :=
  if token.isEmpty then some "empty token"
  else if token.toList.any Text.isBlank then some s!"token {Text.quote token} contains whitespace"
  else none

/-! ### Failures -/

def compareCounts (message : String) (found expected : Nat) : Option Failure :=
  if found = expected then none
  else some (.unequal message (toString found) (toString expected))

def demand (holds : Bool) (message : String) : Option Failure :=
  if holds then none else some (.unmet message)

def compareOccurrences (label : String) (tokens : List String) (token : String)
    (expected : Nat) : Option Failure :=
  let message :=
    s!"{label}: expected {expected} x {Text.quote token} in {Text.quoteList tokens}"
  compareCounts message (tokens.count token) expected

/-- How a check fails on some tokens, under the label in force. -/
def failure? (label : String) (tokens : List String) : TokenCheck → Option Failure
  | context _ => none
  | isEmpty =>
    demand tokens.isEmpty s!"{label}: expected no tokens, found {Text.quoteList tokens}"
  | notEmpty => demand (!tokens.isEmpty) s!"{label}: expected tokens, found none"
  | count expected =>
    let message := s!"{label}: expected {expected} tokens, found {Text.quoteList tokens}"
    compareCounts message tokens.length expected
  | equals expected =>
    if tokens = expected then none
    else some (.unequal label (Text.quoteList tokens) (Text.quoteList expected))
  | startsWith expected =>
    demand (expected.isPrefixOf tokens)
      s!"{label}: expected prefix {Text.quoteList expected}, found {Text.quoteList tokens}"
  | containsSequence expected =>
    demand (occursIn expected tokens)
      s!"{label}: expected run {Text.quoteList expected} in {Text.quoteList tokens}"
  | neverContains token =>
    demand (!tokens.contains token)
      s!"{label}: did not expect {Text.quote token} in {Text.quoteList tokens}"
  | occurrences token expected => compareOccurrences label tokens token expected
  | placeholderCount placeholder expected =>
    compareOccurrences label tokens placeholder.text expected
  | balanced opening closing =>
    match unclosed? opening closing 0 tokens with
    | none => some (.unmet s!"{label}: unmatched {Text.quote closing}")
    | some depth => compareCounts s!"{label}: {depth} unclosed {Text.quote opening}" depth 0
  | wellFormed => (tokens.findSome? malformation?).map fun wrong => .unmet s!"{label}: {wrong}"

def relabel (label : String) : TokenCheck → String
  | context next => next
  | _ => label

/-- The number of checks that succeed before the first failure, and that failure. -/
def run (label : String) (tokens : List String) : List TokenCheck → Nat × Option Failure
  | [] => (0, none)
  | check :: rest =>
    match check.failure? label tokens with
    | some failure => (0, some failure)
    | none =>
      let (passed, failure?) := run (check.relabel label) tokens rest
      (passed + 1, failure?)

/-- Runs checks under the label that holds before one is given. -/
def runAll (tokens : List String) (checks : List TokenCheck) : Nat × Option Failure :=
  run "tokens" tokens checks

end TokenCheck

end CanonicalTokens
