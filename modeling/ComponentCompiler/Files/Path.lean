import ComponentCompiler.Text.Trim

namespace ComponentCompiler.Files

def isAbsolute (path : String) : Bool :=
  path.toList.head? = some '/'

/-- A path taken from the folder `base`; an absolute one stands for itself. -/
def join (base path : String) : String :=
  if isAbsolute path then path
  else if base.toList.getLast?.getD '/' = '/' then base ++ path
  else base ++ "/" ++ path

def names (path : List Char) : List String :=
  (Text.splitAll (· = '/') path).map String.ofList

def isIdle (name : String) : Bool :=
  name = "" || name = "."

def parent (pieces : List String) : List String :=
  (pieces.filter fun name => !isIdle name).dropLast

def withoutEndSlashes (pieces : List String) : List String :=
  (pieces.reverse.dropWhile (· = "")).reverse

/-- A file name cut at its last dot; none when there is no dot or nothing before it. -/
def splitName? (name : String) : Option (String × String) :=
  let ending := name.toList.reverse.takeWhile (· ≠ '.')
  match name.toList.reverse.dropWhile (· ≠ '.') with
  | _ :: c :: stem => some (String.ofList (c :: stem).reverse, String.ofList ending.reverse)
  | _ => none

end ComponentCompiler.Files
