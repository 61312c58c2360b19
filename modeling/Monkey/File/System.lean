import Monkey.File.Path

/-!
# A file system

A snapshot of files, directories and links with a working directory, and the two ways of following a
path through it: one that needs every step to exist, and one that finds the real path of something
that need not exist.
-/

set_option autoImplicit false

namespace Monkey

/-- The names of a path from the root on, free of links. -/
abbrev RealPath := List String

inductive FileEntry
  | file (content : List UInt8)
  | directory
  | link (target : RealPath)
  deriving DecidableEq, Repr

inductive PathFault
  | notFound
  | notDirectory
  | nameTooLong
  | invalidCharacter
  deriving DecidableEq, Repr

structure FileSystem where
  workingDirectory : RealPath
  entries : List (RealPath × FileEntry)
  deriving Repr

namespace FileSystem

/-- The longest name of a directory entry, in bytes. -/
def nameLimit : Nat := 255

/-- The longest path, in bytes. -/
def pathLimit : Nat := 4095

/-- What a real path leads to. Whatever holds an entry is a directory. -/
def entry? (files : FileSystem) (path : RealPath) : Option FileEntry :=
  match files.entries.lookup path with
  | some entry => some entry
  | none =>
      if path.isEmpty || files.entries.any fun entry => path.isPrefixOf entry.1 then some .directory
      else none

def follow (files : FileSystem) : List String → RealPath → Except PathFault RealPath
  | [], path => .ok path
  | name :: rest, path =>
      match files.entry? path with
      | some .directory =>
          if name = "" ∨ name = "." then files.follow rest path
          else if name = ".." then files.follow rest path.dropLast
          else if name.utf8ByteSize > nameLimit then .error .nameTooLong
          else
            match files.entry? (path ++ [name]) with
            | none => .error .notFound
            | some (.link target) => files.follow rest target
            | some _ => files.follow rest (path ++ [name])
      | some _ => .error .notDirectory
      | none => .error .notFound

def origin (files : FileSystem) (path : String) : RealPath :=
  if Path.isAbsolute path then [] else files.workingDirectory

def find (files : FileSystem) (path : String) : Except PathFault RealPath :=
  if path.isEmpty then .error .notFound
  else if path.toList.contains '\x00' then .error .invalidCharacter
  else if path.utf8ByteSize > pathLimit then .error .nameTooLong
  else files.follow (Path.names path) (files.origin path)

/-- The content of the file that a path leads to, if it leads to one. -/
def file? (files : FileSystem) (path : String) : Option (RealPath × List UInt8) :=
  match files.find path with
  | .error _ => none
  | .ok real =>
      match files.entry? real with
      | some (.file content) => some (real, content)
      | _ => none

/-- One step of finding a real path: links are followed, and all else is taken as it is written. -/
def resolveName (files : FileSystem) (path : RealPath) (name : String) : RealPath :=
  if name = "" ∨ name = "." then path
  else if name = ".." then path.dropLast
  else
    match files.entry? (path ++ [name]) with
    | some (.link target) => target
    | _ => path ++ [name]

/-- The real path of a path, whether or not anything is there. -/
def realPath (files : FileSystem) (path : String) : RealPath :=
  (Path.names path).foldl files.resolveName (files.origin path)

end FileSystem

end Monkey
