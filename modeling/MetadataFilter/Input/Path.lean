/-!
# Paths of files

A path is names with slashes between them. Empty names and single dots lead nowhere, so paths that
differ in them only lead to the same place. The extension of a path is what follows the last dot of
its last name, unless that dot is the first character.
-/

namespace MetadataFilter.FilePath

/-- The names of a path, without those that lead nowhere. -/
def names (path : String) : List (List Char) :=
  (path.toList.splitOnP (· == '/')).filter fun name => !name.isEmpty && name != ['.']

def isAbsolute (path : String) : Bool := path.toList.head? == some '/'

/-- A path that can only lead to a directory: it ends with a slash, a single dot or a double dot. -/
def isDirectory (path : String) : Bool :=
  match (path.toList.splitOnP (· == '/')).getLast? with
  | some name => name.isEmpty || name == ['.'] || name == ['.', '.']
  | none => true

def sameFile (p q : String) : Bool :=
  !isDirectory p && !isDirectory q && isAbsolute p == isAbsolute q && names p == names q

/-- A path in reverse, from the end of its last name that leads anywhere. -/
def fromLastName : List Char → List Char
  | '/' :: rest => fromLastName rest
  | '.' :: '/' :: rest => fromLastName rest
  | ['.'] => []
  | rest => rest

/-- A path up to the end of its last name, if that is the name of a file. -/
def upToName? (path : String) : Option String :=
  let reversed := fromLastName path.toList.reverse
  let name := reversed.takeWhile (· != '/')
  if name.isEmpty || name == ['.', '.'] then none else some (String.ofList reversed.reverse)

/-- What follows the last dot of a name, unless that dot is the first character. -/
def extensionOfName (name : List Char) : Option (List Char) :=
  let reversed := name.reverse
  let ending := reversed.takeWhile (· != '.')
  match reversed.drop ending.length with
  | [] => none
  | [_] => none
  | _ :: _ => some ending.reverse

def extension? (path : String) : Option String :=
  match (names path).getLast? with
  | none => none
  | some name => if name = ['.', '.'] then none else (extensionOfName name).map String.ofList

end MetadataFilter.FilePath
