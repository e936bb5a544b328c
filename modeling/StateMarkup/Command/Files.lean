import StateMarkup.Engine.Error

/-!
# Files in memory

A directory tree that holds some files, with what a system answers when a path is followed: through
directories only, and to a file in the end. A relative path is followed from the top of the tree; a
path from the root of the system is followed in `Files.system`, which has what every system has.
-/

namespace StateMarkup

/-- Files under their places, a place by the steps to it from the top. -/
structure Files where
  entries : List (List String × ByteArray)
  /-- the places that are directories even if there is no file in them -/
  directories : List (List String)
  /-- whether the top is the root, where a step back stays -/
  isRoot : Bool

namespace Files

/-- The most bytes that a step of a path may have. -/
def maxStep : Nat := 255

/-- The most bytes that a path may have. -/
def maxPath : Nat := 4095

/-- A directory somewhere, without files. -/
def empty : Files := ⟨[], [], false⟩

/-- The root of a system: its standing directories, and the device that reads as an empty file. -/
def system : Files :=
  ⟨[(["dev", "null"], .empty)],
    ["bin", "boot", "dev", "etc", "home", "lib", "media", "mnt", "opt", "proc", "run", "sbin",
      "srv", "sys", "tmp", "usr", "var"].map fun name => [name],
    true⟩

/-- The place that a path leads to: an empty step and a dot stay where they are, and two dots take
the step before them back. -/
def placeOf (path : String) : List String :=
  (path.splitOn "/").foldl (fun place step =>
    if step = "" || step = "." then place
    else if step = ".." then place.dropLast
    else place ++ [step]) []

/-- The files with one more where the given path leads to, in place of the one that is there. -/
def add (files : Files) (path : String) (bytes : ByteArray) : Files :=
  ⟨(placeOf path, bytes) :: files.entries, files.directories, files.isRoot⟩

/-- The file at a place. -/
def file? (files : Files) (place : List String) : Option ByteArray := files.entries.lookup place

/-- Whether a place is a directory: the top, one that stands, or a place on the way to a file. -/
def isDirectory (files : Files) (place : List String) : Bool :=
  place.isEmpty || files.directories.contains place ||
    files.entries.any fun (path, _) => place.isPrefixOf path && place.length < path.length

/-- Follows steps from a place above the tree, where nothing is known to be but directories further
up. -/
def followAbove : List String → Except ReadError ByteArray
  | [] => .error .isADirectory
  | step :: rest =>
    if step = "" || step = "." || step = ".." then followAbove rest
    else if maxStep < step.utf8ByteSize then .error .nameTooLong
    else .error .notFound

/-- Follows steps from a place. An empty step and a dot stay where they are. -/
def follow (files : Files) (place : List String) : List String → Except ReadError ByteArray
  | [] =>
    match files.file? place with
    | some bytes => .ok bytes
    | none => if files.isDirectory place then .error .isADirectory else .error .notFound
  | step :: rest =>
    if (files.file? place).isSome then .error .notADirectory
    else if !files.isDirectory place then .error .notFound
    else if step = "" || step = "." then follow files place rest
    else if step = ".." then
      if place.isEmpty && !files.isRoot then followAbove rest else follow files place.dropLast rest
    else if maxStep < step.utf8ByteSize then .error .nameTooLong
    else follow files (place ++ [step]) rest

/-- What is found under a path. -/
def read (files : Files) (path : String) : Except ReadError ByteArray :=
  if maxPath < path.utf8ByteSize then .error .nameTooLong
  else match path.splitOn "/" with
    | [""] => .error .notFound
    | "" :: steps => system.follow [] steps
    | steps => files.follow [] steps

end Files

end StateMarkup
