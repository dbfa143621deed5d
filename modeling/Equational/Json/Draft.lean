import Equational.Json.Value

/-!
A draft is a JSON text as far as it can be read. Whoever interprets a text meets its faults in the
order of the text, so a draft does not stand for the text's first fault but keeps each fault at its
place. A value may be wanted or passed over: a string with an escape that stands for half a
character, and a number too large for any format, are faults only for those who want them.
-/

namespace Equational

namespace Json

/-- What is wrong with a text: it is not JSON, or JSON of another form than is wanted, or it ends
too early. -/
inductive Fault where
  | malformed
  | mismatched
  | truncated
deriving DecidableEq

/-- `int` is an integer of at most 64 bits and `fraction` any other number. An array that is not
`closed` has no end, and an object ends with a fault if it has no proper end. The key of a member
is missing where its string has no characters to stand for it. `sealed` is an array or object that
lies too deep to be entered. In `broken` stand the faults for those who want the value and, if
there is one, for those who pass over it. -/
inductive Draft where
  | null
  | bool (b : Bool)
  | int (n : Int)
  | fraction
  | str (s : String)
  | arr (items : List Draft) (closed : Bool)
  | obj (members : List (Option String × Draft)) (fault : Option Fault)
  | sealed (content : Draft)
  | broken (wanted : Fault) (passed : Option Fault)
deriving Inhabited

namespace Draft

/-- A place where nothing can be read by anyone. -/
def fault (f : Fault) : Draft := broken f (some f)

mutual

/-- Passes over a value. -/
def pass : Draft → Except Fault Unit
  | arr ds closed => do
    passItems ds
    if closed then return () else throw .truncated
  | obj ms fault => do
    passMembers ms
    match fault with
    | some f => throw f
    | none => return ()
  | sealed d => pass d
  | broken _ (some f) => .error f
  | _ => .ok ()

def passItems : List Draft → Except Fault Unit
  | [] => .ok ()
  | d :: ds => do
    pass d
    passItems ds

def passMembers : List (Option String × Draft) → Except Fault Unit
  | [] => .ok ()
  | (_, d) :: ms => do
    pass d
    passMembers ms

end

mutual

/-- How deep arrays and objects lie in each other. -/
def depth : Draft → Nat
  | arr ds _ => depthItems ds + 1
  | obj ms _ => depthMembers ms + 1
  | sealed d => depth d + 1
  | _ => 0

def depthItems : List Draft → Nat
  | [] => 0
  | d :: ds => max (depth d) (depthItems ds)

def depthMembers : List (Option String × Draft) → Nat
  | [] => 0
  | (_, d) :: ms => max (depth d) (depthMembers ms)

end

end Draft

mutual

/-- A value as it is read back. -/
def draft : Json → Draft
  | null => .null
  | bool b => .bool b
  | int n => .int n
  | str s => .str s
  | arr js => .arr (draftItems js) true
  | obj ms => .obj (draftMembers ms) none

def draftItems : List Json → List Draft
  | [] => []
  | j :: js => draft j :: draftItems js

def draftMembers : List (String × Json) → List (Option String × Draft)
  | [] => []
  | (k, j) :: ms => (some k, draft j) :: draftMembers ms

end

end Json

end Equational
