import Equational.Text.Lines

namespace Equational

/-- Why a file cannot be read. -/
inductive FileError where
  | missing
  | forbidden
  | notFolder
  | folder
  | nameTooLong
  | notText
  | other (message : String)
deriving DecidableEq

def FileError.message : FileError → String
  | missing => "No such file or directory (os error 2)"
  | forbidden => "Permission denied (os error 13)"
  | notFolder => "Not a directory (os error 20)"
  | folder => "Is a directory (os error 21)"
  | nameTooLong => "File name too long (os error 36)"
  | notText => "stream did not contain valid UTF-8"
  | other message => message

inductive Entry where
  | file (text : String)
  | folder (entries : List (String × Entry))
deriving Inhabited

/-- An entry with the folders that it lies in, the innermost first. -/
structure Place where
  entry : Entry
  outer : List Entry
deriving Inhabited

namespace Place

/-- The greatest length of a name in bytes. -/
def maxName : Nat := 255

/-- The greatest length of a path in bytes. -/
def maxPath : Nat := 4095

/-- The outermost folder around a place. -/
def root (p : Place) : Place := ⟨p.outer.getLast?.getD p.entry, []⟩

/-- The place one name further. Two points lead out of a folder, but not out of the outermost one,
and one point, or no name at all, leads nowhere else. -/
def enter (p : Place) (name : String) : Except FileError Place :=
  match p.entry with
  | .file _ => .error .notFolder
  | .folder entries =>
    if name.isEmpty || name = "." then .ok p
    else if name = ".." then
      match p.outer with
      | [] => .ok p
      | e :: es => .ok ⟨e, es⟩
    else if name.utf8ByteSize > maxName then .error .nameTooLong
    else match entries.find? (·.1 == name) with
      | some (_, e) => .ok ⟨e, p.entry :: p.outer⟩
      | none => .error .missing

/-- The names in a path. -/
def names (path : String) : List String := (Text.parts '/' path.toList).map String.ofList

/-- Where a path leads to. It begins at the root if it begins with a slash. -/
def follow (p : Place) (path : String) : Except FileError Place :=
  if path.isEmpty then .error .missing
  else if path.utf8ByteSize > maxPath then .error .nameTooLong
  else (names path).foldlM enter (if path.toList.head? = some '/' then p.root else p)

/-- The text of the file that a path leads to. -/
def readFile (p : Place) (path : String) : Except FileError String := do
  match (← p.follow path).entry with
  | .file text => return text
  | .folder _ => throw .folder

end Place

end Equational
