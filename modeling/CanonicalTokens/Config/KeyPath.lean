/-!
# Key paths

A path into a configuration: a name, then any number of steps to an entry of a table (`.name`) or to
an item of a list (`[3]`). Names consist of ASCII letters, digits, blanks, underscores and dashes.
-/

namespace CanonicalTokens.Config

/-- One step into a value. An index below zero counts from the end of the list. -/
inductive KeyStep where
  | entry (name : String)
  | item (index : Int)
  deriving DecidableEq, Repr

/-- A name at the top of a configuration and the steps from there. -/
structure KeyPath where
  name : String
  steps : List KeyStep
  deriving DecidableEq, Repr

inductive KeyPathError where
  | noName
  | noDigit
  | indexTooLarge
  | unexpectedCharacter
  deriving DecidableEq, Repr

def KeyPathError.message : KeyPathError → String
  | noName => "IsA"
  | noDigit => "Digit"
  | indexTooLarge => "Map on Result"
  | unexpectedCharacter => "Char"

namespace KeyPath

def isNameCharacter (character : Char) : Bool :=
  character.isAlphanum || character = ' ' || character = '_' || character = '-'

def isIndexBlank (character : Char) : Bool :=
  character = ' ' || character = '\t'

/-- The sign of an index and what follows it. -/
def readSign (characters : List Char) :
    Bool × { rest : List Char // rest.length ≤ characters.length } :=
  match characters with
  | '-' :: rest => (true, ⟨rest, Nat.le_succ _⟩)
  | rest => (false, ⟨rest, Nat.le_refl _⟩)

/-- An index with blanks around it, and what follows. Indices are signed words of 64 bits. -/
def readIndex (characters : List Char) :
    Except KeyPathError (Int × { rest : List Char // rest.length ≤ characters.length }) :=
  let (negative, body) := readSign (characters.dropWhile isIndexBlank)
  let digits := body.val.takeWhile Char.isDigit
  let rest := (body.val.dropWhile Char.isDigit).dropWhile isIndexBlank
  let magnitude := digits.foldl (fun number digit => 10 * number + (digit.toNat - '0'.toNat)) 0
  if digits.isEmpty then .error .noDigit
  else if (if negative then 1 <<< 63 else 1 <<< 63 - 1) < magnitude then .error .indexTooLarge
  else
    have hshorter : rest.length ≤ characters.length :=
      calc rest.length
        _ ≤ (body.val.dropWhile Char.isDigit).length := (List.dropWhile_suffix _).length_le
        _ ≤ body.val.length := (List.dropWhile_suffix _).length_le
        _ ≤ (characters.dropWhile isIndexBlank).length := body.property
        _ ≤ characters.length := (List.dropWhile_suffix _).length_le
    .ok (if negative then -magnitude else magnitude, ⟨rest, hshorter⟩)

def readSteps (characters : List Char) : Except KeyPathError (List KeyStep) :=
  match characters with
  | [] => .ok []
  | '.' :: body =>
    let name := body.takeWhile isNameCharacter
    if name.isEmpty then .error .unexpectedCharacter
    else (readSteps (body.dropWhile isNameCharacter)).map (.entry (String.ofList name) :: ·)
  | '[' :: body =>
    match readIndex body with
    | .error error => .error error
    | .ok (index, rest) =>
      match _ : rest.val with
      | ']' :: further => (readSteps further).map (.item index :: ·)
      | _ => .error .unexpectedCharacter
  | _ => .error .unexpectedCharacter
termination_by characters.length
decreasing_by
  · exact Nat.lt_succ_of_le ((List.dropWhile_suffix _).length_le)
  · rename_i hclosed
    have hshorter := rest.property
    rw [hclosed] at hshorter
    exact Nat.lt_succ_of_lt hshorter

def read (text : String) : Except KeyPathError KeyPath :=
  let characters := text.toList
  let name := characters.takeWhile isNameCharacter
  if name.isEmpty then .error .noName
  else (readSteps (characters.dropWhile isNameCharacter)).map (⟨String.ofList name, ·⟩)

end KeyPath

end CanonicalTokens.Config
