/-!
# Scopes

The names that have been declared so far, scope by scope. There is always a scope, the root, and
closing it is refused. A name counts as declared if any open scope has it, so the names of an
enclosing function are known inside the functions within it.

Every opening, closing and declaration is counted, which is how unbalanced boundaries are found.
-/

namespace CanonicalTokens

/-- What has happened to a stack of scopes. -/
structure ScopeTally where
  opened : Nat
  closed : Nat
  maxDepth : Nat
  declared : Nat
  /-- Closings that were refused because only the root scope was open. -/
  unmatchedCloses : Nat
  deriving DecidableEq, Repr

/-- Every opening had its closing and no closing came without an opening. -/
def ScopeTally.isBalanced (tally : ScopeTally) : Bool :=
  tally.opened = tally.closed && tally.unmatchedCloses = 0

/-- The open scopes, each with its names: the innermost and those around it, from the inside out.
The last of them is the root. -/
structure OpenScopes where
  innermost : List String
  enclosing : List (List String)
  tally : ScopeTally
  deriving DecidableEq, Repr

namespace OpenScopes

def initial : OpenScopes :=
  ⟨[], [], ⟨0, 0, 1, 0, 0⟩⟩

def depth (stack : OpenScopes) : Nat :=
  stack.enclosing.length + 1

def push (stack : OpenScopes) : OpenScopes :=
  { innermost := []
    enclosing := stack.innermost :: stack.enclosing
    tally := { stack.tally with
      opened := stack.tally.opened + 1
      maxDepth := max stack.tally.maxDepth (stack.depth + 1) } }

def canPop (stack : OpenScopes) : Bool :=
  !stack.enclosing.isEmpty

/-- Closes the innermost scope. The root stays open. -/
def pop (stack : OpenScopes) : OpenScopes :=
  match stack.enclosing with
  | outer :: further =>
    { innermost := outer
      enclosing := further
      tally := { stack.tally with closed := stack.tally.closed + 1 } }
  | [] =>
    { stack with
      tally := { stack.tally with unmatchedCloses := stack.tally.unmatchedCloses + 1 } }

/-- Adds a name to the innermost scope, unless it is there already. -/
def declare (stack : OpenScopes) (name : String) : OpenScopes :=
  if stack.innermost.contains name then stack
  else
    { stack with
      innermost := name :: stack.innermost
      tally := { stack.tally with declared := stack.tally.declared + 1 } }

def declareAll (stack : OpenScopes) (names : List String) : OpenScopes :=
  names.foldl declare stack

def isDeclared (stack : OpenScopes) (name : String) : Bool :=
  stack.innermost.contains name || stack.enclosing.any fun scope => scope.contains name

theorem depth_pos (stack : OpenScopes) : 0 < stack.depth := by
  simp [depth]

@[simp]
theorem depth_push (stack : OpenScopes) : stack.push.depth = stack.depth + 1 := by
  simp [push, depth]

@[simp]
theorem depth_declare (stack : OpenScopes) (name : String) :
    (stack.declare name).depth = stack.depth := by
  unfold declare
  split <;> rfl

@[simp]
theorem depth_pop (stack : OpenScopes) : stack.pop.depth = max 1 (stack.depth - 1) := by
  unfold pop
  split <;> simp_all [depth]

@[simp]
theorem enclosing_declare (stack : OpenScopes) (name : String) :
    (stack.declare name).enclosing = stack.enclosing := by
  unfold declare
  split <;> rfl

theorem mem_innermost_declare {stack : OpenScopes} {name other : String} :
    name ∈ (stack.declare other).innermost ↔ name ∈ stack.innermost ∨ name = other := by
  unfold declare
  split
  · simp_all
  · simp [or_comm]

@[simp]
theorem enclosing_declareAll (stack : OpenScopes) (names : List String) :
    (stack.declareAll names).enclosing = stack.enclosing := by
  unfold declareAll
  induction names generalizing stack with
  | nil => rfl
  | cons name names ih => rw [List.foldl_cons, ih, enclosing_declare]

theorem mem_innermost_declareAll {stack : OpenScopes} {names : List String} {name : String} :
    name ∈ (stack.declareAll names).innermost ↔ name ∈ stack.innermost ∨ name ∈ names := by
  unfold declareAll
  induction names generalizing stack with
  | nil => simp
  | cons first names ih => rw [List.foldl_cons, ih, mem_innermost_declare, List.mem_cons, or_assoc]

theorem isDeclared_iff {stack : OpenScopes} {name : String} :
    stack.isDeclared name ↔ name ∈ stack.innermost ∨ ∃ scope ∈ stack.enclosing, name ∈ scope := by
  simp [isDeclared]

@[simp]
theorem isDeclared_initial (name : String) : initial.isDeclared name = false := rfl

@[simp]
theorem isDeclared_push (stack : OpenScopes) (name : String) :
    stack.push.isDeclared name = stack.isDeclared name := by
  simp [push, isDeclared]

theorem isDeclared_declareAll {stack : OpenScopes} {names : List String} {name : String} :
    (stack.declareAll names).isDeclared name ↔ stack.isDeclared name ∨ name ∈ names := by
  rw [isDeclared_iff, isDeclared_iff, mem_innermost_declareAll, enclosing_declareAll]
  exact or_right_comm

end OpenScopes

end CanonicalTokens
