namespace Equational.Text

/-- Puts a character in front of the first line. -/
def consLine (c : Char) : List (List Char) → List (List Char)
  | [] => [[c]]
  | l :: ls => (c :: l) :: ls

/-- The lines of a text. A line ends with a line feed or with the text, and a carriage return just
before a line feed belongs to the end of the line. -/
def lines : List Char → List (List Char)
  | [] => []
  | c :: cs =>
    if c = '\n' then [] :: lines cs
    else if c = '\r' ∧ cs.head? = some '\n' then lines cs
    else consLine c (lines cs)

example : lines "a\r\n\nb\r".toList = [['a'], [], ['b', '\r']] := by decide

/-- The parts before and behind the first `mark`, if there is one. -/
def cut (mark : Char) : List Char → Option (List Char × List Char)
  | [] => none
  | c :: cs =>
    if c = mark then some ([], cs) else (cut mark cs).map fun (l, r) => (c :: l, r)

/-- The parts between the marks, and those before the first and behind the last. -/
def parts (mark : Char) : List Char → List (List Char)
  | [] => [[]]
  | c :: cs => if c = mark then [] :: parts mark cs else consLine c (parts mark cs)

example : parts '/' "a//bc/".toList = [['a'], [], ['b', 'c'], []] := by decide

end Equational.Text
