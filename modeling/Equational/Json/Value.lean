namespace Equational

/-- The JSON values that are written. Numbers are integers, and the members of an object keep their
order. -/
inductive Json where
  | null
  | bool (b : Bool)
  | int (n : Int)
  | str (s : String)
  | arr (items : List Json)
  | obj (members : List (String × Json))
deriving Inhabited

namespace Json

def ofOption {α : Type} (f : α → Json) : Option α → Json
  | some a => f a
  | none => null

def list {α : Type} (f : α → Json) (as : List α) : Json := arr (as.map f)

def strings (ss : List String) : Json := list str ss

def char (c : Char) : Json := str (String.singleton c)

def nat (n : Nat) : Json := int n

/-- A digit to the base 16. -/
def hexDigit (n : Nat) : Char := ("0123456789abcdef".toList.drop n).headD '0'

/-- A character within a written string. Only quotes, backslashes and control characters are
escaped. -/
def escape (c : Char) : String :=
  if c = '"' then "\\\""
  else if c = '\\' then "\\\\"
  else if c = '\x08' then "\\b"
  else if c = '\x0c' then "\\f"
  else if c = '\n' then "\\n"
  else if c = '\r' then "\\r"
  else if c = '\t' then "\\t"
  else if c.toNat < 0x20 then
    "\\u00" ++ String.ofList [hexDigit (c.toNat / 16), hexDigit (c.toNat % 16)]
  else String.singleton c

def quoted (s : String) : String := "\"" ++ String.join (s.toList.map escape) ++ "\""

mutual

/-- A value on one line, without any white space. -/
def compact : Json → String
  | null => "null"
  | bool b => if b then "true" else "false"
  | int n => toString n
  | str s => quoted s
  | arr js => "[" ++ ",".intercalate (compactItems js) ++ "]"
  | obj ms => "\x7b" ++ ",".intercalate (compactMembers ms) ++ "\x7d"

def compactItems : List Json → List String
  | [] => []
  | j :: js => compact j :: compactItems js

def compactMembers : List (String × Json) → List String
  | [] => []
  | (k, j) :: ms => (quoted k ++ ":" ++ compact j) :: compactMembers ms

end

/-- A line feed and the indentation of a level, two blanks for each. -/
def newline (level : Nat) : String := "\n" ++ String.ofList (List.replicate (2 * level) ' ')

/-- Entries with one on each line between brackets that stand on the given level. -/
def block (level : Nat) (first last : String) : List String → String
  | [] => first ++ last
  | e :: es =>
    first ++ newline (level + 1) ++ ("," ++ newline (level + 1)).intercalate (e :: es) ++
      newline level ++ last

mutual

/-- A value with one entry a line, indented by two blanks for each level. -/
def pretty (level : Nat) : Json → String
  | null => "null"
  | bool b => if b then "true" else "false"
  | int n => toString n
  | str s => quoted s
  | arr js => block level "[" "]" (prettyItems (level + 1) js)
  | obj ms => block level "\x7b" "\x7d" (prettyMembers (level + 1) ms)

def prettyItems (level : Nat) : List Json → List String
  | [] => []
  | j :: js => pretty level j :: prettyItems level js

def prettyMembers (level : Nat) : List (String × Json) → List String
  | [] => []
  | (k, j) :: ms => (quoted k ++ ": " ++ pretty level j) :: prettyMembers level ms

end

end Json

end Equational
