import CanonicalTokens.Language
import CanonicalTokens.OutputFormat

/-!
# Command lines

What the arguments of a command line ask for. Arguments are read from left to right: flags and
settings stand anywhere among the paths, and each of them at most once. A setting has its value
behind an equals sign, directly behind its letter, or in the next argument, which then does not look
like an option. Behind two dashes everything is a path.
-/

namespace CanonicalTokens.CommandLine

inductive Flag where
  | verbose
  | version
  | help
  | distinguishNumbers
  | structuralScopes
  | report
  deriving DecidableEq, Repr

inductive Setting where
  | language
  | format
  | config
  deriving DecidableEq, Repr

structure Vocabulary where
  letters : List (Char × (Flag ⊕ Setting))
  words : List (String × (Flag ⊕ Setting))

def Vocabulary.general : Vocabulary where
  letters := [('v', .inl .verbose), ('V', .inl .version), ('h', .inl .help)]
  words := [("verbose", .inl .verbose), ("version", .inl .version), ("help", .inl .help)]

def Vocabulary.command : Vocabulary where
  letters := [('v', .inl .verbose), ('h', .inl .help)]
  words := [("verbose", .inl .verbose), ("help", .inl .help)]

def Vocabulary.tokenize : Vocabulary where
  letters := Vocabulary.command.letters ++
    [('l', .inr .language), ('f', .inr .format), ('c', .inr .config)]
  words := Vocabulary.command.words ++
    [("language", .inr .language), ("format", .inr .format), ("config", .inr .config),
      ("distinguish-numbers", .inl .distinguishNumbers),
      ("structural-scopes", .inl .structuralScopes), ("report", .inl .report)]

/-! ### Single arguments -/

/-- A part of a command line. What cannot be read is the last part. -/
inductive Item where
  | flag (flag : Flag)
  | setting (setting : Setting) (value : String)
  | path (path : String)
  | unreadable
  deriving DecidableEq, Repr

/-- What one argument says, and the setting whose value is the next argument, if there is one. -/
structure Reading where
  items : List Item
  awaiting : Option Setting

/-- The letters behind a single dash: flags, then possibly a setting with what follows as its
value. -/
def readLetters (vocabulary : Vocabulary) : List Char → Reading
  | [] => ⟨[], none⟩
  | letter :: rest =>
    match vocabulary.letters.lookup letter, rest with
    | none, _ => ⟨[.unreadable], none⟩
    | some (.inl flag), rest =>
      let reading := readLetters vocabulary rest
      { reading with items := .flag flag :: reading.items }
    | some (.inr setting), [] => ⟨[], some setting⟩
    | some (.inr setting), '=' :: value => ⟨[.setting setting (String.ofList value)], none⟩
    | some (.inr setting), value => ⟨[.setting setting (String.ofList value)], none⟩

/-- The word behind two dashes, possibly with a value behind an equals sign. -/
def readWord (vocabulary : Vocabulary) (characters : List Char) : Reading :=
  let word := String.ofList (characters.takeWhile (· ≠ '='))
  match vocabulary.words.lookup word, characters.dropWhile (· ≠ '=') with
  | some (.inl flag), [] => ⟨[.flag flag], none⟩
  | some (.inr setting), [] => ⟨[], some setting⟩
  | some (.inr setting), _ :: value => ⟨[.setting setting (String.ofList value)], none⟩
  | _, _ => ⟨[.unreadable], none⟩

/-- One argument by itself. A single dash is a path. -/
def readArgument (vocabulary : Vocabulary) (argument : String) : Reading :=
  match argument.toList with
  | '-' :: '-' :: word => readWord vocabulary word
  | '-' :: letter :: letters => readLetters vocabulary (letter :: letters)
  | _ => ⟨[.path argument], none⟩

def isValue (argument : String) : Bool :=
  argument = "-" || argument.toList.head? ≠ some '-'

/-! ### Whole command lines -/

def items (vocabulary : Vocabulary) : List String → List Item
  | [] => []
  | "--" :: paths => paths.map .path
  | argument :: rest =>
    let reading := readArgument vocabulary argument
    match reading.awaiting, rest with
    | none, rest => reading.items ++ items vocabulary rest
    | some _, [] => reading.items ++ [.unreadable]
    | some setting, value :: rest =>
      if isValue value then reading.items ++ .setting setting value :: items vocabulary rest
      else reading.items ++ [.unreadable]

structure TokenizeRequest where
  paths : List String
  language : Option Language
  format : Option OutputFormat
  config : Option String
  flags : List Flag
  deriving DecidableEq, Repr

namespace TokenizeRequest

def initial : TokenizeRequest := ⟨[], none, none, none, []⟩

def has (request : TokenizeRequest) (flag : Flag) : Bool :=
  request.flags.contains flag

/-- Adds a value to those asked for, unless there is one or the value makes no sense. -/
def set (request : TokenizeRequest) (value : String) : Setting → Option TokenizeRequest
  | .language =>
    match request.language, Language.ofName? value with
    | none, some language => some { request with language := some language }
    | _, _ => none
  | .format =>
    match request.format, OutputFormat.ofName? value with
    | none, some format => some { request with format := some format }
    | _, _ => none
  | .config =>
    if request.config.isNone && !value.isEmpty then some { request with config := some value }
    else none

end TokenizeRequest

inductive Request where
  | misuse
  | help
  | version
  | languages
  | tokenize (request : TokenizeRequest)
  deriving DecidableEq, Repr

def follow (request : TokenizeRequest) : List Item → Request
  | [] => .tokenize request
  | .flag .help :: _ => .help
  | .flag flag :: rest =>
    if request.has flag then .misuse
    else follow { request with flags := request.flags ++ [flag] } rest
  | .setting setting value :: rest =>
    match request.set value setting with
    | some request => follow request rest
    | none => .misuse
  | .path path :: rest => follow { request with paths := request.paths ++ [path] } rest
  | .unreadable :: _ => .misuse

def readCommand (command : String) (arguments : List String) : Request :=
  match command with
  | "tokenize" => follow .initial (items .tokenize arguments)
  | "languages" =>
    match follow .initial (items .command arguments) with
    | .tokenize request => if request.paths.isEmpty then .languages else .misuse
    | other => other
  | "help" => .help
  | _ => .misuse

/-- Follows the options in front of a command; `verbose` says whether that flag has been given. -/
def followGeneral (verbose : Bool) (arguments : List String) : List Item → Request ⊕ Bool
  | [] => .inr verbose
  | .flag .version :: _ => .inl .version
  | .flag .help :: _ => .inl .help
  | .flag .verbose :: rest =>
    if verbose then .inl .misuse else followGeneral true arguments rest
  | .path command :: _ => .inl (readCommand command arguments)
  | _ => .inl .misuse

/-- What a command line asks for, given whether it has been asked to be verbose. There has to be a
command. -/
def readFrom (verbose : Bool) : List String → Request
  | [] => .misuse
  | argument :: rest =>
    match followGeneral verbose rest (readArgument .general argument).items with
    | .inl request => request
    | .inr verbose => readFrom verbose rest

def read (arguments : List String) : Request :=
  readFrom false arguments

end CanonicalTokens.CommandLine
