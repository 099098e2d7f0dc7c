import SqlTemplate.Error

/-!
Files as far as they are read: by path, with a text or with the reason why there is none.
-/

namespace SqlTemplate

structure Files where
  read : String → Except ReadFault String

/-- Whether something stands at the path, be it readable or not. -/
def Files.exist (files : Files) (path : String) : Bool :=
  match files.read path with
  | .error .notFound | .error .notDirectory => false
  | _ => true

/-- The components of a path, empty ones included. -/
def pathComponents (path : String) : List String :=
  (path.toList.splitOn '/').map String.ofList

/-- Whether a component stays in the same directory. -/
def isIdle (component : String) : Bool := component == "" || component == "."

inductive FileEntry where
  | file (content : ByteArray)
  | directory

/-- Files and directories below one directory, by their components. A directory on the way to an
entry needs no entry of its own. -/
structure FileTree where
  entries : List (List String × FileEntry)

namespace FileTree

def ofList (entries : List (String × FileEntry)) : FileTree :=
  ⟨entries.map fun entry => ((pathComponents entry.1).filter (!isIdle ·), entry.2)⟩

def at? (tree : FileTree) (place : List String) : Option FileEntry :=
  match tree.entries.find? (·.1 == place) with
  | some entry => some entry.2
  | none =>
    if place.isEmpty || tree.entries.any (fun entry => place.isPrefixOf entry.1) then
      some .directory
    else none

/-- Follows the components from a directory above the tree. Only the directories above that one are
known there. -/
def walkAbove (components : List String) : Except ReadFault FileEntry :=
  if components.all fun component => isIdle component || component == ".." then .ok .directory
  else .error .notFound

/-- Follows the components from a place in the tree. -/
def walk (tree : FileTree) (place : List String) : List String → Except ReadFault FileEntry
  | [] => match tree.at? place with
    | some entry => .ok entry
    | none => .error .notFound
  | component :: rest =>
    match tree.at? place with
    | none => .error .notFound
    | some (.file _) => .error .notDirectory
    | some .directory =>
      if isIdle component then tree.walk place rest
      else if component == ".." then
        if place.isEmpty then walkAbove rest else tree.walk place.dropLast rest
      else tree.walk (place ++ [component]) rest

def find (tree : FileTree) (path : String) : Except ReadFault FileEntry :=
  if path.isEmpty then .error .notFound
  else if path.startsWith "/" then walkAbove (pathComponents path)
  else tree.walk [] (pathComponents path)

def read (tree : FileTree) (path : String) : Except ReadFault String :=
  match tree.find path with
  | .error fault => .error fault
  | .ok .directory => .error .isDirectory
  | .ok (.file content) =>
    match String.fromUTF8? content with
    | some text => .ok text
    | none => .error .notText

def files (tree : FileTree) : Files := ⟨tree.read⟩

end FileTree

end SqlTemplate
