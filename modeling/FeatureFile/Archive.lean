import FeatureFile.Fault
import FeatureFile.Intake

/-!
# Files

An archive is a set of files by name, all in one directory. A message takes the text of a file
whole, as UTF-8, with nothing taken away from it. When a file is opened as a source it is read
line by line; a name without a file stands for itself as a source.
-/

namespace FeatureFile

/-- A name and the bytes stored under it. -/
structure File where
  name : Text
  bytes : ByteArray

/-- Files by name. -/
abbrev Archive := List File

namespace Archive

/-- The pieces of a name that lead nowhere. -/
def isIdle (piece : Text) : Bool := piece.isEmpty || piece == ['.']

/-- A name without the pieces that lead from the directory to itself. A name that starts at the
root or ends in such a piece stays as it is. -/
def plainName (name : Text) : Text :=
  let pieces := Text.splitOn '/' name
  if name.head? = some '/' || (pieces.getLast?.map isIdle).getD true then name
  else Text.join ['/'] (pieces.filter fun p => !isIdle p)

/-- Does the name stand for the directory itself or for one above it? -/
def namesDirectory (name : Text) : Bool :=
  !name.isEmpty && (Text.splitOn '/' name).all fun p => isIdle p || p == ['.', '.']

/-- The file of that name; a later file replaces an earlier one of the same name. -/
def find (a : Archive) (name : Text) : Option File :=
  a.reverse.find? fun f => f.name == plainName name

/-- The text of a file. -/
def decode (f : File) : Except Fault Text :=
  match String.fromUTF8? f.bytes with
  | none => .error .badEncoding
  | some s => .ok s.toList

/-- The text of the file of that name. -/
def read (a : Archive) (support : Support) (name : Text) : Except Fault Text :=
  if support.files then
    match a.find name with
    | none => .error (if namesDirectory name then .isDirectory else .noFile)
    | some f => decode f
  else .error .filesUnsupported

/-- Opens a file as a source. -/
def openFile (support : Support) (f : File) : Except Fault Intake :=
  if support.files then .ok (.ofBytes f.bytes) else .error .filesUnsupported

/-- Opens the file of that name, or takes the name as a source if there is no such file. -/
def openSource (a : Archive) (support : Support) (name : Text) : Except Fault Intake :=
  match a.find name with
  | some f => openFile support f
  | none =>
    if namesDirectory name then
      .error (if support.files then .isDirectory else .filesUnsupported)
    else .ok (.ofText name)

end Archive

end FeatureFile
