import CanonicalTokens.Rules
import CanonicalTokens.Scope
import CanonicalTokens.Tree.Traversal

/-!
# The canonicalizing walk

One walk serves every language. It visits the nodes of a tree in document order, and the rules of
the language give each node its part: what is skipped or missing emits nothing, a literal emits its
placeholder and an identifier emits its name or the placeholder for variables, all without a visit
to their children. Every other node is a construct. It opens a scope if it bounds one, then declares
the names it introduces; its children are visited, or its text is emitted if it has none, and its
scope is closed behind it.

Where braces bound scopes, they open and close them as they are emitted, whatever they belong to.
Leaves of white space, such as the line ends that end statements, are dropped.
-/

namespace CanonicalTokens

structure WalkOptions where
  boundaries : ScopeBoundaries
  /-- Keep apart the numbers that the language's rules allow to be collapsed. -/
  distinguishNumbers : Bool
  deriving DecidableEq, Repr

/-- Scopes by braces where the language has them, and collapsed numbers. -/
def WalkOptions.standard : WalkOptions :=
  ⟨.legacy, false⟩

structure Walked where
  tokens : List Token
  tally : ScopeTally
  deriving DecidableEq, Repr

/-- A walk over the trees of one source, under the rules of its language. -/
structure Walk where
  source : Source
  rules : Rules
  options : WalkOptions

namespace Walk

structure State where
  scopes : OpenScopes
  tokens : Array Token

namespace State

def initial : State := ⟨.initial, #[]⟩

def emit (state : State) (token : Token) : State :=
  { state with tokens := state.tokens.push token }

/-- Emits a name, or the placeholder for variables if the name is declared. A name without text
emits nothing. -/
def emitName (state : State) (name : String) : State :=
  if name.isEmpty then state
  else if state.scopes.isDeclared name then state.emit (.placeholder .variableName)
  else state.emit (.verbatim name)

end State

/-- The part a node plays in the walk. -/
inductive Part where
  | ignored
  | literal (rule : LiteralRule)
  | identifier
  | construct
  deriving DecidableEq, Repr

def boundary (walk : Walk) : Boundary :=
  walk.rules.boundary walk.options.boundaries

/-- The part of a node. Only named nodes are literals or identifiers: an anonymous token may share
the kind of one. -/
def part (walk : Walk) (tree : Tree) : Part :=
  if tree.label.missing || walk.rules.isSkipped tree.kind then .ignored
  else if tree.isNamed then
    match walk.rules.literalRule? tree.kind with
    | some rule => .literal rule
    | none => if walk.rules.isIdentifier tree.kind then .identifier else .construct
  else .construct

def bounds (walk : Walk) (tree : Tree) : Bool :=
  match walk.boundary with
  | .constructs kinds => kinds.contains tree.kind
  | .braces _ => false

/-- Opens or closes a scope behind an anonymous token that is a brace. -/
def passBrace (walk : Walk) (tree : Tree) (text : String) (scopes : OpenScopes) : OpenScopes :=
  match walk.boundary with
  | .constructs _ => scopes
  | .braces braces =>
    if tree.isNamed then scopes
    else if text = braces.opening then scopes.push
    else if text = braces.closing then scopes.pop
    else scopes

/-- Emits the text of a leaf, unless it is blank. -/
def emitText (walk : Walk) (tree : Tree) (state : State) : State :=
  let text := tree.text walk.source
  if Text.allBlank text.toList then state
  else
    let emitted := state.emit (.verbatim text)
    { emitted with scopes := walk.passBrace tree text emitted.scopes }

/-- Opens the scope of a construct and declares the names it introduces. -/
def openConstruct (walk : Walk) (tree : Tree) (scopes : OpenScopes) : OpenScopes :=
  (if walk.bounds tree then scopes.push else scopes).declareAll
    (walk.rules.declaredNames walk.source tree)

/-- Does the part of a node, and says whether its children are visited. -/
def enter (walk : Walk) (tree : Tree) (state : State) : State × Bool :=
  match walk.part tree with
  | .ignored => (state, false)
  | .literal rule =>
    let placeholder := rule.resolve (tree.text walk.source) walk.options.distinguishNumbers
    (state.emit (.placeholder placeholder), false)
  | .identifier => (state.emitName (tree.text walk.source), false)
  | .construct =>
    let opened := { state with scopes := walk.openConstruct tree state.scopes }
    (if tree.isLeaf then walk.emitText tree opened else opened, true)

def leave (walk : Walk) (tree : Tree) (state : State) : State :=
  if walk.bounds tree then { state with scopes := state.scopes.pop } else state

def visitor (walk : Walk) : Visitor State :=
  ⟨walk.enter, walk.leave⟩

/-- The tokens of a tree and the tally of its scopes. -/
def run (walk : Walk) (tree : Tree) : Walked :=
  let final := walk.visitor.traverse tree .initial
  ⟨final.tokens.toList, final.scopes.tally⟩

end Walk

end CanonicalTokens
