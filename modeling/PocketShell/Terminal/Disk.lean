import PocketShell.Path
import PocketShell.Terminal.Basic

/-!
# Disks in memory

A `Disk` stands for the files around a terminal: text files and directories by their place below the
root, and a working directory. With it the whole program is a function, from the files before a run
to the files after it.

* `Disk.read` — what reading the file of a path gives;
* `Disk.write` — writes a file, with all directories on the way to it.

Both follow a path piece by piece, and each piece has to be there, also one that a later `..` takes
back: reading finds nothing beyond a name that is missing, and writing makes a directory of it.

Every directory above a file or another directory is there as well, and so is the working directory.
A name on a disk has at most `longestName` bytes, a path at most `longestPath`. A longer name is not
just missing: to ask for it is an error.
-/

namespace PocketShell

/-- **Disks in memory.** -/
structure Disk where
  cwd : String
  /-- Files with their text, and directories, by the names that lead to them from the root. -/
  entries : List (List String × Option String) := []
  deriving DecidableEq, Repr

namespace Disk

/-- The text of the file at a place. -/
def file? (disk : Disk) (place : List String) : Option String :=
  (disk.entries.lookup place).join

def isDirectory (disk : Disk) (place : List String) : Bool :=
  place.isPrefixOf (Path.segments "" disk.cwd) ||
    disk.entries.any fun entry => place.isPrefixOf entry.1 && (entry.2.isNone || entry.1 ≠ place)

/-- The number of bytes that a name may have. -/
def longestName : Nat := 255

/-- The number of bytes that a path may have. -/
def longestPath : Nat := 4095

/-- Is a name too long to be one? -/
def isTooLong (name : String) : Bool :=
  longestName < name.utf8ByteSize

/-- The place that a piece of a path leads to. -/
def next (place : List String) (piece : String) : List String :=
  (Path.enter place.reverse piece).reverse

/-! ### Reading -/

/-- Follows the pieces of a path from a place. Only a directory can be gone through. -/
def walk (disk : Disk) (place : List String) : List String → Except Reading (List String)
  | [] => .ok place
  | piece :: rest =>
    if disk.isDirectory place then
      if isTooLong piece then .error .unreadable
      else disk.walk (next place piece) rest
    else if (disk.file? place).isSome then .error .unreadable
    else .error .missing

/-- **Reading.** What reading the file of a path gives. -/
def read (disk : Disk) (path : String) : Reading :=
  if path.isEmpty then .missing
  else if longestPath < path.utf8ByteSize then .unreadable
  else
    match disk.walk [] (Path.pieces disk.cwd path) with
    | .error reading => reading
    | .ok place =>
      match disk.file? place with
      | some text => .text text
      | none => if disk.isDirectory place then .unreadable else .missing

/-! ### Writing -/

/-- Follows pieces from the place of a directory, and makes a directory wherever there is nothing:
the disk after it and the place of the last directory. There is no way on at a file or at a name
that is too long, also if a later `..` would take it back. -/
def pave? (disk : Disk) (place : List String) : List String → Option (Disk × List String)
  | [] => some (disk, place)
  | piece :: rest =>
    let there := next place piece
    if isTooLong piece || (disk.file? there).isSome then none
    else if disk.isDirectory there then disk.pave? there rest
    else { disk with entries := disk.entries ++ [(there, none)] }.pave? there rest

/-- The disk with a directory at a path and all directories on the way to it; without a change if
something is in the way. -/
def makeDirectory (disk : Disk) (path : String) : Disk :=
  ((disk.pave? [] (Path.pieces disk.cwd path)).map (·.1)).getD disk

/-- The disk with a file at a place, instead of one that was there before. -/
def put (disk : Disk) (place : List String) (text : String) : Disk :=
  let others := disk.entries.filter fun entry => entry.1 ≠ place
  { disk with entries := others ++ [(place, some text)] }

/-- **Writing.** The disk with a file at a path and all directories on the way to it; without a
change if something is in the way or the file's name cannot be one. -/
def write (disk : Disk) (path text : String) : Disk :=
  let pieces := Path.pieces disk.cwd path
  let name := pieces.getLastD ""
  match disk.pave? [] pieces.dropLast with
  | none => disk
  | some (paved, above) =>
    let place := next above name
    if longestPath < path.utf8ByteSize || isTooLong name || paved.isDirectory place then disk
    else paved.put place text

def files (disk : Disk) : List (String × String) :=
  disk.entries.filterMap fun entry => entry.2.map fun text => (Path.render entry.1, text)

end Disk

end PocketShell
