import ParenLambda.Host.Action

/-!
# File trees

A model of the files below one directory: which paths hold a file and with what content, and which
are directories. A path given as text is followed name by name, as a system does it: every name but
the last has to be a directory, a dot stays, two dots go up, and beyond the directory itself nothing
is known but that there are directories.
-/

namespace ParenLambda

/-- The names on the way from the directory to a file. -/
abbrev FilePath := List String

/-- A file. -/
structure FileContent where
  /-- What it holds. -/
  bytes : ByteArray
  /-- Whether it may be executed. -/
  executable : Bool

/-- **A file tree.** -/
structure FileTree where
  /-- The files, by their paths. -/
  files : List (FilePath × FileContent)
  /-- The directories that are there even if no file is in them. -/
  directories : List FilePath

namespace FileTree

/-- No files. -/
def empty : FileTree := ⟨[], []⟩

/-- The file at a path. -/
def file? (tree : FileTree) (path : FilePath) : Option FileContent :=
  tree.files.lookup path

/-- Whether a path is a directory: it is one of those that are there, or something lies below it. -/
def isDirectory (tree : FileTree) (path : FilePath) : Bool :=
  path.isEmpty || (tree.directories.any fun directory => path.isPrefixOf directory) ||
    tree.files.any fun entry => path.isPrefixOf entry.1.dropLast

/-- The tree with a file at a path. -/
def write (tree : FileTree) (path : FilePath) (content : FileContent) : FileTree :=
  { tree with files := (path, content) :: tree.files.filter (·.1 != path) }

/-! ### Following a path -/

/-- Where a path leads. -/
inductive Place where
  /-- To a file. -/
  | file (path : FilePath) (content : FileContent)
  /-- To a directory of the tree, or to one outside it. -/
  | directory (path : Option FilePath)
  /-- To a name that is free in a directory of the tree. -/
  | free (path : FilePath)
  /-- To something outside the tree that is not there. -/
  | outside

/-- What is at a path of the tree. -/
def look (tree : FileTree) (path : FilePath) : Place :=
  match tree.file? path with
  | some content => .file path content
  | none => if tree.isDirectory path then .directory (some path) else .free path

/-- Names longer than this many bytes are refused. -/
def longestName : Nat := 255

/-- Follow the names of a path from a place on. -/
def follow (tree : FileTree) : Place → List String → Except Refusal Place
  | place, [] => .ok place
  | .file _ _, _ :: _ => .error .notDirectory
  | .free _, _ :: _ => .error .notFound
  | .outside, _ :: _ => .error .notFound
  | .directory none, name :: rest =>
    if name == "" || name == "." || name == ".." then follow tree (.directory none) rest
    else follow tree .outside rest
  | .directory (some path), name :: rest =>
    if name == "" || name == "." then follow tree (.directory (some path)) rest
    else if name == ".." then
      if path.isEmpty then follow tree (.directory none) rest
      else follow tree (.directory (some path.dropLast)) rest
    else if longestName < name.utf8ByteSize then .error .nameTooLong
    else follow tree (tree.look (path ++ [name])) rest

/-- **Where a path given as text leads**, in a tree whose directory has the absolute path `root`. -/
def resolve (tree : FileTree) (root path : String) : Except Refusal Place :=
  if path.isEmpty then .error .notFound
  else if path.contains '\x00' then .error .nullInPath
  else if path == root then .ok (.directory (some []))
  else
    match path.dropPrefix? (root ++ "/") with
    | some rest => tree.follow (.directory (some [])) (rest.toString.splitOn "/")
    | none =>
      if path.startsWith "/" then tree.follow (.directory none) (path.splitOn "/")
      else tree.follow (.directory (some [])) (path.splitOn "/")

/-- The bytes of the file that a path leads to. -/
def read (tree : FileTree) (root path : String) : Except Refusal ByteArray :=
  match tree.resolve root path with
  | .error refusal => .error refusal
  | .ok (.file _ content) => .ok content.bytes
  | .ok (.directory _) => .error .isDirectory
  | .ok _ => .error .notFound

/-- The tree with a text in the file that a path leads to, which need not be there yet. A path that
ends in a slash names a directory, whatever it leads to. -/
def writeText (tree : FileTree) (root path text : String) : Except Refusal FileTree :=
  let isSlashed := path.endsWith "/" && path != "/"
  match tree.resolve root (if isSlashed then (path.dropEndWhile '/').toString else path) with
  | .error refusal => .error refusal
  | .ok place =>
    if isSlashed then .error .isDirectory
    else
      match place with
      | .file path content => .ok (tree.write path { content with bytes := text.toUTF8 })
      | .free path => .ok (tree.write path ⟨text.toUTF8, false⟩)
      | .directory _ => .error .isDirectory
      | .outside => .error .notFound

/-- The files of a tree that another tree lacks or holds with other content. -/
def changedSince (later earlier : FileTree) : List (FilePath × FileContent) :=
  later.files.filter fun entry =>
    match earlier.file? entry.1 with
    | some content => content.bytes != entry.2.bytes
    | none => true

end FileTree

end ParenLambda
