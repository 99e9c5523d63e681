import CanonicalTokens.Numeral.Binary64
import CanonicalTokens.Text.Classes
import CanonicalTokens.Tree.Traversal

/-!
# Damage of trees

What is wrong with a tree: how many nodes are in error or missing, how much of the source they
cover, where the first of them stands, and whether the source seems to end too early.

Only outermost damage counts. A node in error is not searched for further damage, and a subtree
that the parser marks as clean is not entered.

A report may hold any counters, so what is added up from them is checked. Counting the nodes of a
tree is not: a node counts once at most, and there are more words than nodes in memory.
-/

namespace CanonicalTokens

open Numeral

/-! ### Sums of counters -/

/-- Why a program ends before it has an answer. -/
inductive Overflow where
  | addition
  deriving DecidableEq, Repr

def Overflow.message : Overflow → String
  | addition => "attempt to add with overflow"

/-- Results that there are only if no sum on the way overflows. -/
abbrev Checked := Except Overflow

/-- Runs in a monad that end where a sum overflows. -/
abbrev CheckedT (m : Type → Type) := ExceptT Overflow m

/-- Counters are words of 64 bits, and a sum of two that is no word ends the program. -/
def wordSum (left right : Nat) : Checked Nat :=
  if left + right < UInt64.size then .ok (left + right) else .error .addition

theorem wordSum_of_lt {left right : Nat} (hfits : left + right < UInt64.size) :
    wordSum left right = .ok (left + right) :=
  if_pos hfits

theorem wordSum_of_le {left right : Nat} (hover : UInt64.size ≤ left + right) :
    wordSum left right = .error .addition :=
  if_neg (Nat.not_lt.mpr hover)

/-! ### Reports -/

structure DamageReport where
  errorNodes : Nat
  missingNodes : Nat
  /-- Bytes covered by outermost error nodes. -/
  errorBytes : Nat
  sourceBytes : Nat
  firstError : Option Position
  rootIsError : Bool
  /-- A node in error or missing has nothing but white space behind it. -/
  truncated : Bool
  deriving DecidableEq, Repr

namespace DamageReport

def undamaged (source : Source) (rootIsError : Bool) : DamageReport :=
  ⟨0, 0, 0, source.size, none, rootIsError, false⟩

/-! ### Collecting -/

/-- Notes where a damaged node stands and what follows it. -/
def noteAt (source : Source) (tree : Tree) (report : DamageReport) : DamageReport :=
  { report with
    truncated := report.truncated || Text.allBlank (source.rest tree.label.stop)
    firstError := report.firstError.or (some (source.position tree.label.start)) }

/-- Counts a node, and says whether there may be damage below it that counts. -/
def inspect (source : Source) (tree : Tree) (report : DamageReport) : DamageReport × Bool :=
  if tree.label.missing then
    (noteAt source tree { report with missingNodes := report.missingNodes + 1 }, false)
  else if tree.label.error then
    let covered := tree.label.stop - tree.label.start
    (noteAt source tree
      { report with
        errorNodes := report.errorNodes + 1
        errorBytes := report.errorBytes + covered }, false)
  else (report, tree.label.hasError)

def inspector (source : Source) : Visitor DamageReport :=
  ⟨inspect source, fun _ report => report⟩

def ofTree (source : Source) (tree : Tree) : DamageReport :=
  let report := undamaged source tree.label.error
  if tree.label.hasError then (inspector source).traverse tree report else report

/-! ### Reading -/

def damage (report : DamageReport) : Checked Nat :=
  wordSum report.errorNodes report.missingNodes

/-- Nothing is added up if the root is in error. -/
def isDamaged (report : DamageReport) : Checked Bool :=
  if report.rootIsError then .ok true
  else do
    let damage ← report.damage
    return 0 < damage

/-- The share of the source that error nodes cover, at most one; zero for an empty source. -/
def damagedShare (report : DamageReport) : Binary64 :=
  if report.sourceBytes = 0 then .zero
  else (Binary64.quotient report.errorBytes report.sourceBytes).cappedAtOne

/-- Where the first damage stands, in words. Lines and columns are counted from one. -/
def describeFirst : Option Position → Checked String
  | none => .ok ""
  | some position => do
    let line ← wordSum position.row 1
    let column ← wordSum position.column 1
    return s!", first at line {line} column {column}"

def describe (report : DamageReport) : Checked String := do
  let first ← describeFirst report.firstError
  return s!"{report.errorNodes} error nodes, {report.missingNodes} missing nodes, " ++
    s!"{report.errorBytes} of {report.sourceBytes} bytes in errors" ++
    (if report.truncated then ", input ends inside a construct" else "") ++ first

end DamageReport

end CanonicalTokens
