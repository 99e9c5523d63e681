import CanonicalTokens.Json.Printer
import CanonicalTokens.OutputFormat
import CanonicalTokens.CanonicalForm

/-!
# Printed results

The text that is printed for the results of several files, in the order of the files. A file that
could not be parsed is printed as one without tokens; the JSON form can say why.
-/

namespace CanonicalTokens

/-- What has become of one file. The label is its path, or a dash for standard input. -/
structure FileOutcome where
  label : String
  language : Language
  result : Except FormFailure CanonicalForm

namespace FileOutcome

def tokens (file : FileOutcome) : List String :=
  match file.result with
  | .ok form => form.tokens
  | .error _ => []

def attempt? (file : FileOutcome) : Option String :=
  match file.result with
  | .ok form => some form.attempt.name
  | .error _ => none

/-- Why there are no tokens, if this is reported. Nothing is put into words that is not. -/
def failure? (report : Bool) (file : FileOutcome) : Checked (Option String) :=
  match file.result with
  | .ok _ => .ok none
  | .error failure => if report then failure.message.map some else .ok none

/-- The result as an object with its entries in alphabetical order. -/
def toObject (report : Bool) (file : FileOutcome) (failure? : Option String) : Json :=
  let reported (entry : String × Json) : List (String × Json) := if report then [entry] else []
  .object (
    reported ("error", .ofOption .string failure?) ++
    [("language", .string file.language.name), ("path", .string file.label)] ++
    reported ("strategy", .ofOption .string file.attempt?) ++
    [("tokens", .ofStrings file.tokens)])

def toJson (report : Bool) (file : FileOutcome) : Checked Json :=
  (file.failure? report).map (file.toObject report)

end FileOutcome

namespace Results

def line (text : String) : String := text ++ "\n"

def jsonLines (report : Bool) (files : List FileOutcome) : Checked String :=
  (files.mapM (FileOutcome.toJson report)).map fun objects =>
    String.join (objects.map fun object => line object.render)

/-- One token per line, with an empty line between files. -/
def tokenLines (files : List FileOutcome) : String :=
  String.intercalate "\n" (files.map fun file => String.join (file.tokens.map line))

/-- One file per line, its tokens separated by spaces. -/
def fileLines (files : List FileOutcome) : String :=
  String.join (files.map fun file => line (String.intercalate " " file.tokens))

/-- The results in a format. Only JSON shows reports. -/
def print (files : List FileOutcome) (format : OutputFormat) (report : Bool) :
    Checked String :=
  match format with
  | .json => jsonLines report files
  | .lines => .ok (tokenLines files)
  | .text => .ok (fileLines files)

end Results

end CanonicalTokens
