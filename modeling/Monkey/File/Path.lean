/-!
# Paths as text

A path is a text of names separated by slashes; one that starts with a slash is absolute. These
operations look at the text alone.
-/

set_option autoImplicit false

namespace Monkey.Path

def isAbsolute (path : String) : Bool := path.toList.head? == some '/'

/-- A path as seen from a directory. An absolute path does not depend on the directory. -/
def join (directory path : String) : String :=
  if isAbsolute path then path
  else if directory.isEmpty || directory.toList.getLast? == some '/' then directory ++ path
  else directory ++ "/" ++ path

def dropSlashes (chars : List Char) : List Char := (chars.reverse.dropWhile (· == '/')).reverse

/-- The directory part of a path: what stands before its last slash, without slashes at its end
unless it is nothing but slashes. -/
def directory (path : String) : String :=
  let head := (path.toList.reverse.dropWhile (· != '/')).reverse
  let trimmed := dropSlashes head
  String.ofList (if trimmed.isEmpty then head else trimmed)

/-- The names of a path, with an empty one at a slash that starts, ends or doubles. -/
def names (path : String) : List String := (path.toList.splitOn '/').map String.ofList

def ofNames (names : List String) : String := "/" ++ String.intercalate "/" names

/-- The path without empty names and names of the directory itself. Two slashes at the start, and
not more, are kept. -/
def tidy (path : String) : String :=
  let kept := (names path).filter fun name => name != "" && name != "."
  let root :=
    if !isAbsolute path then ""
    else if path.toList.take 2 == ['/', '/'] && path.toList.take 3 != ['/', '/', '/'] then "//"
    else "/"
  let text := root ++ String.intercalate "/" kept
  if text.isEmpty then "." else text

end Monkey.Path
