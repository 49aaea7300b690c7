/-!
# Files

The command line may read its commands from a file.  Opening a path can fail
in the ways a Unix system reports, each with its error number: the path or one
of its names is too long, a name on the way is a file rather than a directory,
nothing has the name, or the path names a directory, which cannot be read as a
file.

A file system is modelled as a tree: a directory holds named entries, a file
holds its text.  A path is followed name by name from the root (when it starts
with `/`) or from the working directory; `.` stays and `..` goes up.  Each step
is taken from a directory; a name longer than 255 bytes has no entry, and a
path of 4096 bytes or more is refused before any step.  A path that ends with
`/` must name a directory.
-/

namespace DiceNotation.Files

/-- Why a file cannot be read, with the system's error number and text. -/
structure FileFault where
  code : Nat
  reason : String
  deriving DecidableEq, Repr

/-- Nothing has the name. -/
def FileFault.missing : FileFault := ⟨2, "No such file or directory"⟩

/-- A name on the way is not a directory. -/
def FileFault.notDirectory : FileFault := ⟨20, "Not a directory"⟩

/-- The path names a directory. -/
def FileFault.directory : FileFault := ⟨21, "Is a directory"⟩

/-- The path or one of its names is too long. -/
def FileFault.tooLong : FileFault := ⟨36, "File name too long"⟩

/-- An entry of a file system: a file with its text, or a directory of named entries. -/
inductive Entry where
  | file (text : String)
  | directory (entries : List (String × Entry))

/-- The entry a directory holds under a name. -/
def Entry.child? : Entry → String → Option Entry
  | .directory entries, name => entries.lookup name
  | .file _, _ => none

/-- Whether an entry is a directory. -/
def Entry.isDirectory : Entry → Bool
  | .directory _ => true
  | .file _ => false

/-- The longest name a directory can hold, in bytes. -/
def nameMax : Nat := 255

/-- The length of a path from which no path is followed, in bytes. -/
def pathMax : Nat := 4096

/-- Follows the names of a path, the entries passed being `trail` (the current
one first, the root last). -/
def walk (trail : List Entry) : List String → Except FileFault (List Entry)
  | [] => .ok trail
  | name :: rest =>
    match trail with
    | [] => .error .missing
    | current :: above =>
      if !current.isDirectory then .error .notDirectory
      else if name = "." then walk trail rest
      else if name = ".." then walk (if above.isEmpty then trail else above) rest
      else if nameMax < name.utf8ByteSize then .error .tooLong
      else
        match current.child? name with
        | some entry => walk (entry :: trail) rest
        | none => .error .missing

/-- The text of the file a path names, the working directory being the names
`cwd` from the root. -/
def read (root : Entry) (cwd : List String) (path : String) : Except FileFault String := do
  if pathMax ≤ path.utf8ByteSize then throw .tooLong
  if path.isEmpty then throw .missing
  let names := (path.splitOn "/").filter (!·.isEmpty)
  let start ← if path.startsWith "/" then pure [root] else walk [root] cwd
  match ← walk start names with
  | [] => throw .missing
  | .file text :: _ =>
    if path.endsWith "/" then throw .notDirectory else return text
  | .directory _ :: _ => throw .directory

/-- A small Unix file system: the usual directories at the root, the empty
device file `/dev/null`, and an empty working directory `/work`. -/
def standard : Entry :=
  let empty : Entry := .directory []
  .directory
    [("bin", empty), ("boot", empty), ("dev", .directory [("null", .file "")]),
     ("etc", empty), ("home", empty), ("lib", empty), ("lib64", empty), ("media", empty),
     ("mnt", empty), ("opt", empty), ("proc", empty), ("root", empty), ("run", empty),
     ("sbin", empty), ("srv", empty), ("sys", empty), ("tmp", empty), ("usr", empty),
     ("var", empty), ("work", empty)]

/-- Reading a path in the small Unix file system, from its working directory. -/
def readStandard (path : String) : Except FileFault String :=
  read standard ["work"] path

end DiceNotation.Files
