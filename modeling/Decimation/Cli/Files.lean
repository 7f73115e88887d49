/-!
# Files

The tool reads its input, configuration and snapshots from files and writes its output to
files. `FileStore` is what it needs of a file system: reading a whole file and writing one.
A refused operation reports the step that failed (`open` or `read`), the path as it was given,
and the system's reason, as in `open data.csv: no such file or directory`.

`MemoryStore` is a file system held in memory: a set of directories and the files in them. It
gives the tool a pure world to run in.
-/

namespace Decimation.Cli

/-- Why the system refuses a file operation. -/
inductive FileFault where
  | notFound
  | isDirectory
  | notDirectory
  | denied
  | other (text : String)
  deriving DecidableEq, Repr

/-- The system's text for a fault. -/
def FileFault.text : FileFault → String
  | notFound => "no such file or directory"
  | isDirectory => "is a directory"
  | notDirectory => "not a directory"
  | denied => "permission denied"
  | other t => t

/-- A refused file operation: the step that failed, the path as given, and why. -/
structure FileError where
  step : String
  path : String
  fault : FileFault
  deriving DecidableEq, Repr

/-- `open data.csv: no such file or directory`. -/
def FileError.text (e : FileError) : String := e.step ++ " " ++ e.path ++ ": " ++ e.fault.text

/-- The file operations the tool needs, in a monad `m`. -/
class FileStore (m : Type → Type) where
  /-- The whole contents of a file. -/
  readFile : String → m (Except FileError ByteArray)
  /-- Replaces or creates a file with the given contents. -/
  writeFile : String → ByteArray → m (Except FileError Unit)

/-- A directory's path joined with the name of an entry in it. -/
def joinPath (dir name : String) : String :=
  if dir.isEmpty then name else if dir = "/" then "/" ++ name else dir ++ "/" ++ name

/-- The directory a directory's path lies in: the empty path is the working directory, whose
own parent is written `..`. -/
def parentPath (p : String) : String :=
  if p = "/" then "/"
  else if p.isEmpty then ".."
  else if p = ".." ∨ p.endsWith "/.." then p ++ "/.."
  else
    match (p.splitOn "/").dropLast with
    | [] => ""
    | [""] => "/"
    | parts => "/".intercalate parts

/-- A file system in memory: its directories (the empty path is the working directory) and
its files, by the paths that lead to them, in the order they were made. -/
structure MemoryStore where
  dirs : List String
  files : List (String × ByteArray)

namespace MemoryStore

/-- The contents of the file at a path. -/
def find? (st : MemoryStore) (c : String) : Option ByteArray :=
  (st.files.find? (·.1 = c)).map (·.2)

/-- Follows the components of a path from the directory `dir`: every component but the last
must lead to a directory, `.` and empty components stay where they are and `..` goes up. The
result is the path of the entry the last component names, which need not exist. A component
that names a file where a directory is needed, or names nothing, is refused. -/
def walk (st : MemoryStore) : String → List String → Except FileFault String
  | dir, [] => .ok dir
  | dir, [c] =>
    .ok (if c = "" ∨ c = "." then dir else if c = ".." then parentPath dir else joinPath dir c)
  | dir, c :: rest =>
    if c = "" ∨ c = "." then st.walk dir rest
    else if c = ".." then st.walk (parentPath dir) rest
    else
      let next := joinPath dir c
      if st.dirs.contains next then st.walk next rest
      else if (st.find? next).isSome then .error .notDirectory
      else .error .notFound

/-- The path of the entry a path names, as `walk` finds it from the root or the working
directory; the empty path names nothing. -/
def resolve (st : MemoryStore) (p : String) : Except FileFault String :=
  if p.isEmpty then .error .notFound
  else
    let comps := p.splitOn "/"
    if p.startsWith "/" then st.walk "/" comps.tail else st.walk "" comps

/-- Reads a file. -/
def read (st : MemoryStore) (p : String) : Except FileError ByteArray :=
  match st.resolve p with
  | .error f => .error ⟨"open", p, f⟩
  | .ok c =>
    if st.dirs.contains c then .error ⟨"read", p, .isDirectory⟩
    else match st.find? c with
      | some bs => .ok bs
      | none => .error ⟨"open", p, .notFound⟩

/-- Writes a file, replacing one at the same path; its directory must exist. -/
def write (st : MemoryStore) (p : String) (bs : ByteArray) : Except FileError MemoryStore :=
  match st.resolve p with
  | .error f => .error ⟨"open", p, f⟩
  | .ok c =>
    if st.dirs.contains c then .error ⟨"open", p, .isDirectory⟩
    else if !st.dirs.contains (parentPath c) then .error ⟨"open", p, .notFound⟩
    else if (st.find? c).isSome then
      .ok { st with files := st.files.map fun e => if e.1 = c then (c, bs) else e }
    else .ok { st with files := st.files ++ [(c, bs)] }

end MemoryStore

instance : FileStore (StateM MemoryStore) where
  readFile p := do return (← get).read p
  writeFile p bs := do
    match (← get).write p bs with
    | .ok st => set st; return .ok ()
    | .error e => return .error e

end Decimation.Cli
