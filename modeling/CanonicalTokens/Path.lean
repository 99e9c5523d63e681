/-!
# Paths

What the name of a file says about it: the last component of its path and the extension of that
name. Empty components and single points do not count, so a path may end in `/` or `/.`.
-/

namespace CanonicalTokens.Path

/-- The parts of a text between the separators; one more than there are separators. -/
def segments (separator : Char) : List Char → List (List Char)
  | [] => [[]]
  | character :: rest =>
    match segments separator rest with
    | [] => [[character]]
    | first :: others =>
      if character = separator then [] :: first :: others
      else (character :: first) :: others

/-- The components of a path that name something or lead to the parent directory. -/
def components (path : String) : List String :=
  ((segments '/' path.toList).map String.ofList).filter fun component =>
    component ≠ "" && component ≠ "."

/-- The path without what does not count. -/
def normalize (path : String) : String :=
  String.intercalate "/" (components path)

/-- The name of the file or directory that the path leads to, unless it ends in its parent. -/
def fileName? (path : String) : Option String :=
  match (components path).getLast? with
  | some ".." => none
  | last => last

/-- The text after the last point of the name, which may be empty. A name has no extension if its
only point comes first. -/
def extension? (path : String) : Option String :=
  (fileName? path).bind fun name =>
    let backwards := name.toList.reverse
    match backwards.dropWhile (· ≠ '.') with
    | [] => none
    | [_] => none
    | _ => some (String.ofList (backwards.takeWhile (· ≠ '.')).reverse)

end CanonicalTokens.Path
