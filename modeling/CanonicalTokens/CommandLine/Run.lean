import CanonicalTokens.CommandLine.Arguments
import CanonicalTokens.Config.Layering
import CanonicalTokens.Results

/-!
# Running a command line

What a command line prints and how it ends, as a function of what it finds: the files, standard
input and the trees that the parsers make. The command that prints tokens does so for all of its
files or for none. The configuration is loaded first, then the files are read in order, and the
first error ends the run. A file that cannot be parsed is no error; it has no tokens.
-/

namespace CanonicalTokens.CommandLine

open Config

def versionLine : String := "codecanon 0.1.0\n"

inductive ReadError where
  | notFound
  | isDirectory
  | notDirectory
  | notUtf8
  | other (message : String)
  deriving DecidableEq, Repr

def ReadError.message : ReadError → String
  | notFound => "No such file or directory (os error 2)"
  | isDirectory => "Is a directory (os error 21)"
  | notDirectory => "Not a directory (os error 20)"
  | notUtf8 => "stream did not contain valid UTF-8"
  | other message => message

/-- What a command line finds when it runs. -/
structure Surroundings where
  file : String → Except ReadError String
  /-- What is found where a configuration file should be. -/
  configuration : String → FileContent
  standardInput : Except ReadError String
  grammars : Grammars Id

/-- How a run ends: its exit code, what it prints, and what it says about errors. Log lines, which
`--verbose` asks for, are left out. -/
structure Outcome where
  code : Nat
  output : String
  errors : String
  deriving DecidableEq, Repr

namespace Outcome

def success (output : String) : Outcome := ⟨0, output, ""⟩

def failure (message : String) : Outcome := ⟨1, "", message ++ "\n"⟩

def misuse (usage : String) : Outcome := ⟨2, "", usage⟩

/-- A run that ends before it has anything to print. It says why, but not where. -/
def abort (overflow : Overflow) : Outcome := ⟨101, "", overflow.message ++ "\n"⟩

end Outcome

def usage : String :=
  "Canonical token sequences for C++, C#, Go and Python source code\n\n" ++
  "Usage: codecanon [-v] tokenize [options] [path ...]\n" ++
  "       codecanon [-v] languages\n\n" ++
  "  -l, --language NAME      source language; detected from the extension when omitted\n" ++
  "  -f, --format FORMAT      json, lines or text\n" ++
  "  -c, --config FILE        configuration file layered over the built-in defaults\n" ++
  "      --distinguish-numbers\n" ++
  "      --structural-scopes\n" ++
  "      --report             include the parse strategy and any failure in JSON output\n"

/-! ### Errors -/

inductive RunError where
  | config (cause : ConfigError)
  | noLanguageForInput
  | unreadableInput (cause : ReadError)
  | unknownLanguage (path : String)
  | unreadableFile (path : String) (cause : ReadError)

def RunError.message : RunError → String
  | config cause => s!"Configuration error: {cause.message}"
  | noLanguageForInput => "Reading standard input requires --language"
  | unreadableInput cause => s!"Error reading standard input: {cause.message}"
  | unknownLanguage path => s!"Cannot detect the language of {path}; pass --language"
  | unreadableFile path cause => s!"Error reading {path}: {cause.message}"

/-! ### Configuration -/

def setIf (layering : Layering) (key : String) (value? : Option Value) :
    Except ConfigError Layering :=
  match value? with
  | some value => layering.override key value
  | none => .ok layering

/-- The settings of a run: the defaults, the file that is asked for, and the options. -/
def settingsOf (surroundings : Surroundings) (request : TokenizeRequest) :
    Except ConfigError Config := do
  let layering := match request.config with
    | some name => Layering.initial.layFile surroundings.configuration name
    | none => .initial
  let given (flag : Flag) (value : Value) : Option Value :=
    if request.has flag then some value else none
  let layering ← setIf layering "canonicalization.distinguish_numbers"
    (given .distinguishNumbers (.ofBool true))
  let layering ← setIf layering "canonicalization.scope_boundaries"
    (given .structuralScopes (.ofString ScopeBoundaries.structural.name))
  let layering ← setIf layering "output.format"
    (request.format.map fun format => .ofString format.name)
  layering.build

/-! ### Files -/

def dash : String := "-"

/-- A text to canonicalize with the path it was asked for by. -/
structure Input where
  label : String
  file : SourceFile

/-- The text at a path. Standard input is empty once it has been read. -/
def readText (surroundings : Surroundings) (language? : Option Language) (inputRead : Bool)
    (path : String) : Except RunError Input :=
  if path = dash then
    match language? with
    | none => .error .noLanguageForInput
    | some language =>
      if inputRead then .ok ⟨path, language, .ofString ""⟩
      else
        match surroundings.standardInput with
        | .ok text => .ok ⟨path, language, .ofString text⟩
        | .error cause => .error (.unreadableInput cause)
  else
    match language?.or (Language.ofPath? path) with
    | none => .error (.unknownLanguage path)
    | some language =>
      match surroundings.file path with
      | .ok text => .ok ⟨path, language, .ofString text⟩
      | .error cause => .error (.unreadableFile path cause)

def readTexts (surroundings : Surroundings) (language? : Option Language) (inputRead : Bool) :
    List String → Except RunError (List Input)
  | [] => .ok []
  | path :: rest => do
    let input ← readText surroundings language? inputRead path
    let inputs ← readTexts surroundings language? (inputRead || path = dash) rest
    return input :: inputs

/-- The paths that are asked for; standard input if there are none. -/
def TokenizeRequest.inputPaths (request : TokenizeRequest) : List String :=
  if request.paths.isEmpty then [dash] else request.paths

/-! ### Commands -/

def tokenizeInput (surroundings : Surroundings) (options : CanonicalOptions) (input : Input) :
    Checked FileOutcome := do
  let result ← (options.canonicalize surroundings.grammars input.file).run.run
  return ⟨input.label, input.file.language, result⟩

def tokenize (surroundings : Surroundings) (request : TokenizeRequest) :
    Except RunError (Checked String) := do
  let config ← (settingsOf surroundings request).mapError .config
  let inputs ← readTexts surroundings request.language false request.inputPaths
  return do
    let results ← inputs.mapM (tokenizeInput surroundings config.canonicalOptions)
    Results.print results config.format (request.has .report)

def describeLanguage (language : Language) : String :=
  let extensions := language.extensions.map fun extension => s!".{extension}"
  s!"  {language.name} ({language.display})\n" ++
    "    aliases:    " ++ String.intercalate ", " language.aliases ++ "\n" ++
    "    extensions: " ++ String.intercalate ", " extensions ++ "\n\n"

def languagesText : String :=
  "Supported languages:\n\n" ++ String.join (Language.all.map describeLanguage)

def perform (surroundings : Surroundings) : Request → Outcome
  | .misuse => .misuse usage
  | .help => .success usage
  | .version => .success versionLine
  | .languages => .success languagesText
  | .tokenize request =>
    match tokenize surroundings request with
    | .ok (.ok output) => .success output
    | .ok (.error overflow) => .abort overflow
    | .error error => .failure error.message

def run (surroundings : Surroundings) (arguments : List String) : Outcome :=
  perform surroundings (read arguments)

end CanonicalTokens.CommandLine
