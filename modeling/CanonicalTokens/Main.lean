import CanonicalTokens.CommandLine.Run
import CanonicalTokens.Config.Json
import CanonicalTokens.Json.Reader
import CanonicalTokens.Tree.Decoding

/-!
# The program

Finds what a command line needs, runs it, and prints what comes of it. Trees are made by parsers
elsewhere: the tree of a source file stands beside it, in a file of the same name with `.tree` at
the end, and that of standard input in `-.tree`. Configuration files hold JSON.
-/

namespace CanonicalTokens.Program

open CommandLine Config

def decode (bytes : ByteArray) : Except ReadError String :=
  match String.fromUTF8? bytes with
  | some text => .ok text
  | none => .error .notUtf8

def readError : IO.Error → ReadError
  | .noFileOrDirectory _ _ _ => .notFound
  | .inappropriateType _ 20 _ => .notDirectory
  | .inappropriateType _ 21 _ => .isDirectory
  | error => .other (toString error)

def readFile (path : String) : IO (Except ReadError String) := do
  try
    return decode (← IO.FS.readBinFile path)
  catch error => return .error (readError error)

partial def readAll (stream : IO.FS.Stream) (before : ByteArray) : IO ByteArray := do
  let bytes ← stream.read 65536
  if bytes.isEmpty then return before else readAll stream (before ++ bytes)

/-- What is found where a configuration file should be. -/
def readConfiguration (path : String) : IO FileContent := do
  match ← readFile path with
  | .ok text => return .ofJson (Json.read? text)
  | .error .notUtf8 => return .malformed
  | .error _ => return .absent

/-- The tree that stands beside a source. -/
def readTree (path : String) : IO (Option Tree) := do
  match ← readFile (path ++ ".tree") with
  | .ok text => return (Json.read? text).bind Tree.ofJson?
  | .error _ => return none

/-- Parsers that know the trees of some sources. -/
def knownTrees (trees : List (Source × Tree)) : Grammars Id :=
  fun _ => .ok fun source _ => trees.lookup source

/-- Reads all that the command that prints tokens may need. -/
def surroundings (request : TokenizeRequest) : IO CommandLine.Surroundings := do
  let paths := request.inputPaths
  let files ← (paths.filter (· ≠ dash)).mapM fun path => return (path, ← readFile path)
  let standardInput ←
    if paths.contains dash then pure (decode (← readAll (← IO.getStdin) .empty))
    else pure (.ok "")
  let names := match request.config with
    | some name => [name, FileLayer.extendedPath name]
    | none => []
  let configurations ← names.mapM fun name => return (name, ← readConfiguration name)
  let sources := (dash, standardInput) :: files
  let trees ← sources.filterMapM fun (path, text) => do
    match text with
    | .ok text => return (← readTree path).map fun tree => (Source.ofString text, tree)
    | .error _ => return none
  return {
    file := fun path => (files.lookup path).getD (.error .notFound)
    configuration := fun path => (configurations.lookup path).getD .absent
    standardInput
    grammars := knownTrees trees }

/-- Nothing is found by a command that reads nothing. -/
def noSurroundings : CommandLine.Surroundings where
  file _ := .error .notFound
  configuration _ := .absent
  standardInput := .ok ""
  grammars := knownTrees []

end CanonicalTokens.Program

open CanonicalTokens in
def main (arguments : List String) : IO UInt32 := do
  let request := CommandLine.read arguments
  let surroundings ← match request with
    | .tokenize request => Program.surroundings request
    | _ => pure Program.noSurroundings
  let outcome := CommandLine.perform surroundings request
  (← IO.getStdout).putStr outcome.output
  (← IO.getStderr).putStr outcome.errors
  return UInt32.ofNat outcome.code
