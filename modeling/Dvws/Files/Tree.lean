import Dvws.Bytes

/-!
# Paths and file trees without symbolic links

A location is the list of names from the root down. `normalize` collapses repeated slashes, `.`
and `..` by the text of the path alone; the root is its own parent. `walk` follows a path name by
name, as the system does when it opens one, and fails at a name below something that is not a
directory.
-/

namespace Dvws.Files

/-- A place in the file tree: the names from the root down. -/
abbrev Location := List Bytes

/-- The names of a path; repeated and trailing slashes separate nothing. -/
def components (path : Bytes) : List Bytes := (path.splitOn 47).filter (· ≠ [])

/-- The location one name further. -/
def enter (here : Location) (name : Bytes) : Location :=
  if name = lit "." then here
  else if name = lit ".." then here.dropLast
  else here ++ [name]

/-- Where a path starts: at the root, or for a relative path in the working directory. -/
def origin (cwd : Location) (path : Bytes) : Location :=
  if path.head? = some 47 then [] else cwd

/-- The lexical normal form of a path. -/
def normalize (cwd : Location) (path : Bytes) : Location :=
  (components path).foldl enter (origin cwd path)

/-- The absolute path of a location. -/
def render (loc : Location) : Bytes :=
  if loc = [] then [47] else loc.flatMap fun name => 47 :: name

/-- What is at a location. A directory has the names of its entries and the size that `stat`
reports for it. -/
inductive Node where
  | file (content : Bytes) (mtime : Int) (readable : Bool)
  | dir (names : List Bytes) (mtime : Int) (size : Nat) (readable : Bool)
  deriving DecidableEq, Repr

/-- The node is a directory, `S_ISDIR`. -/
def Node.isDir : Node → Bool
  | .file .. => false
  | .dir .. => true

/-- The modification time. -/
def Node.mtime : Node → Int
  | .file _ mtime _ => mtime
  | .dir _ mtime _ _ => mtime

/-- The size that `stat` reports. -/
def Node.size : Node → Nat
  | .file content _ _ => content.length
  | .dir _ _ size _ => size

/-- The process may open the node for reading. -/
def Node.readable : Node → Bool
  | .file _ _ readable => readable
  | .dir _ _ _ readable => readable

/-- The bytes that reading the opened node yields; reading a directory fails at once. -/
def Node.content : Node → Bytes
  | .file content _ _ => content
  | .dir .. => []

/-- The files of a system. -/
abbrev FileTree := Location → Option Node

/-- There is a directory at the location. -/
def FileTree.isDir (tree : FileTree) (loc : Location) : Bool := (tree loc).any Node.isDir

/-- Follow names from a location; every name but the last must lead to a directory. -/
def walk (tree : FileTree) : Location → List Bytes → Option Location
  | here, [] => some here
  | here, name :: names =>
      if tree.isDir here then walk tree (enter here name) names else none

/-- `stat`: the location and the node a path leads to. A trailing slash asks for a directory. -/
def stat (tree : FileTree) (cwd : Location) (path : Bytes) : Option (Location × Node) :=
  if path = [] then none
  else do
    let loc ← walk tree (origin cwd path) (components path)
    let node ← tree loc
    if path.getLast? = some 47 ∧ node.isDir = false then none else some (loc, node)

/-- `fopen(path, "r")`: the location and the node opened. -/
def openRead (tree : FileTree) (cwd : Location) (path : Bytes) : Option (Location × Node) :=
  (stat tree cwd path).filter fun found => found.2.readable

/-- The location a path names, whether or not there is something at it. -/
def locate (tree : FileTree) (cwd : Location) (path : Bytes) : Option Location :=
  if path = [] then none else walk tree (origin cwd path) (components path)

/-- The directory lists one more name. -/
def Node.addName (name : Bytes) : Node → Node
  | .file content mtime readable => .file content mtime readable
  | .dir names mtime size readable => .dir (name :: names) mtime size readable

/-- The tree with the node at the location, listed in the directory above. -/
def FileTree.put (tree : FileTree) (loc : Location) (node : Node) : FileTree := fun l =>
  if l = loc then some node
  else if l = loc.dropLast ∧ tree loc = none then (tree l).map (Node.addName (loc.getLastD []))
  else tree l

/-- `mkdir`: a new directory where nothing is yet. -/
def makeDir (tree : FileTree) (cwd : Location) (path : Bytes) (now : Int) : FileTree :=
  match locate tree cwd path with
  | some loc => if tree loc = none then tree.put loc (.dir [] now 4096 true) else tree
  | none => tree

/-- `fopen(path, "wb")` and what is written before `fclose`: a new or overwritten file. -/
def createFile (tree : FileTree) (cwd : Location) (path data : Bytes) (now : Int) :
    Option FileTree :=
  match locate tree cwd path with
  | none => none
  | some loc =>
      if path.getLast? = some 47 ∨ tree.isDir loc then none
      else some (tree.put loc (.file data now true))

/-- The place that names lead to is the one got by entering them one after another. -/
theorem walk_eq_foldl {tree : FileTree} {here loc : Location} {names : List Bytes}
    (h : walk tree here names = some loc) : loc = names.foldl enter here := by
  induction names generalizing here with
  | nil => exact (Option.some.inj h).symm
  | cons name names ih =>
      obtain ⟨-, hrest⟩ := Option.ite_none_right_eq_some.mp h
      exact ih hrest

/-- What `stat` finds is at the place that the text of the path names. -/
theorem stat_location {tree : FileTree} {cwd loc : Location} {path : Bytes} {node : Node}
    (h : stat tree cwd path = some (loc, node)) : loc = normalize cwd path := by
  obtain ⟨-, hfound⟩ := Option.ite_none_left_eq_some.mp h
  obtain ⟨walked, hwalk, hnode⟩ := Option.bind_eq_some_iff.mp hfound
  obtain ⟨found, -, hdir⟩ := Option.bind_eq_some_iff.mp hnode
  obtain ⟨-, hsame⟩ := Option.ite_none_left_eq_some.mp hdir
  obtain rfl := congrArg Prod.fst (Option.some.inj hsame)
  exact walk_eq_foldl hwalk

/-- An opened node is one that `stat` finds. -/
theorem stat_of_open_read {tree : FileTree} {cwd : Location} {path : Bytes}
    {found : Location × Node} (h : openRead tree cwd path = some found) :
    stat tree cwd path = some found ∧ found.2.readable = true := by
  simpa [openRead, Option.filter_eq_some_iff] using h

end Dvws.Files
