import Equational.Script.Folder
import Equational.Script.Listing

namespace Equational

structure Options where
  script : String
  layout : Layout
deriving DecidableEq, Inhabited

/-- Options that have been given so far. -/
structure PartialOptions where
  script : Option String
  style : Option Style
  asJson : Bool

/-- Arguments from which no options can be made, or that ask for help. -/
inductive UsageError where
  | unknownOption (arg : String)
  | repeatedOption (arg : String)
  | badStyle (value : String)
  | missingValue (arg : String)
  | secondScript (arg : String)
  | missingScript
  | helpWanted
deriving DecidableEq

def Style.ofName? (name : String) : Option Style :=
  if name = "text" then some .text
  else if name = "display" then some .display
  else if name = "markdown" then some .markdown
  else if name = "latex" then some .latex
  else none

namespace PartialOptions

def empty : PartialOptions := ⟨none, none, false⟩

def setStyle (o : PartialOptions) (value : String) : Except UsageError PartialOptions :=
  match Style.ofName? value, o.style with
  | none, _ => .error (.badStyle value)
  | some _, some _ => .error (.repeatedOption "--notation")
  | some s, none => .ok { o with style := s }

def setScript (o : PartialOptions) (path : String) : Except UsageError PartialOptions :=
  if path.isEmpty then .error .missingScript
  else if o.script.isSome then .error (.secondScript path)
  else .ok { o with script := path }

/-- Reads arguments from left to right. All arguments behind `--` are paths. -/
def readArgs (o : PartialOptions) : List String → Except UsageError PartialOptions
  | [] => .ok o
  | "--" :: args => args.foldlM setScript o
  | ["--notation"] => .error (.missingValue "--notation")
  | "--notation" :: value :: args => do
    let o ← o.setStyle value
    o.readArgs args
  | "--json" :: args =>
    if o.asJson then .error (.repeatedOption "--json")
    else PartialOptions.readArgs { o with asJson := true } args
  | "--help" :: _ => .error .helpWanted
  | "-h" :: _ => .error .helpWanted
  | arg :: args => do
    let o ←
      match arg.dropPrefix? "--notation=" with
      | some value => o.setStyle value.toString
      | none =>
        if arg.startsWith "-" && arg ≠ "-" then throw (.unknownOption arg) else o.setScript arg
    o.readArgs args

end PartialOptions

def Options.ofArgs (args : List String) : Except UsageError Options := do
  let o ← PartialOptions.empty.readArgs args
  match o.script with
  | some script => return ⟨script, o.style.getD .text, o.asJson⟩
  | none => throw .missingScript

/-- What is said if a script cannot be read. -/
def Exit.unreadable (script : String) (e : FileError) : Exit :=
  .failedWithin "" ("could not read " ++ script) e.message

/-- Checks the text of a script against the shipped theories. -/
def Options.check (o : Options) (text : String) : Exit :=
  match Library.ofPresentations Library.shipped with
  | .ok L => (Run.ofScript L text).show o.layout o.script
  | .error e => .failed "" e.message

/-- Checks the script that the path of the options leads to from a place. -/
def Options.checkAt (o : Options) (p : Place) : Exit :=
  match p.readFile o.script with
  | .ok text => o.check text
  | .error e => .unreadable o.script e

end Equational
