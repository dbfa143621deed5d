import Equational.Theory.Boolean
import Equational.Theory.Propositions
import Equational.Theory.Sets

namespace Equational

inductive LibraryError where
  | signature (e : SignatureError)
  | notFound (name : String)
  | nameTaken (name : String)
deriving DecidableEq

def LibraryError.message : LibraryError → String
  | signature e => e.message
  | notFound name => "Theory '" ++ name ++ "' not found"
  | nameTaken name => "Theory '" ++ name ++ "' is already registered"

/-- Theories under their names, which are listed in the order of the names. -/
structure Library where
  theories : SortedMap String Theory

namespace Library

def empty : Library := ⟨∅⟩

def get? (L : Library) (name : String) : Option Theory := L.theories.get? name

def get (L : Library) (name : String) : Except LibraryError Theory :=
  match L.get? name with
  | some θ => .ok θ
  | none => .error (.notFound name)

def contains (L : Library) (name : String) : Bool := L.theories.contains name

def names (L : Library) : List String := L.theories.keys

/-- Sets the theory kept under a name. -/
def put (L : Library) (name : String) (θ : Theory) : Library := ⟨L.theories.insert name θ⟩

/-- Adds a theory whose name is not taken yet. -/
def register (L : Library) (θ : Theory) : Except LibraryError Library :=
  if L.contains θ.name then .error (.nameTaken θ.name) else .ok (L.put θ.name θ)

/-- Builds a theory from a presentation and adds it. -/
def add (L : Library) (p : Presentation) : Except LibraryError Library :=
  match Theory.ofPresentation p with
  | .ok θ => L.register θ
  | .error e => .error (.signature e)

/-- Builds theories from presentations and adds them one by one. -/
def ofPresentations (ps : List Presentation) : Except LibraryError Library := ps.foldlM add empty

/-- The presentations of the theories that every script can use. -/
def shipped : List Presentation := [.sets, .boolean, .propositions]

end Library

end Equational
