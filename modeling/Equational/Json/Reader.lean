import Equational.Json.Number
import Equational.Json.Quoted

namespace Equational.Json

/-- Arrays and objects that lie in as many others as this cannot be entered. -/
def maxDepth : Nat := 127

def isGap (c : Char) : Bool := c == ' ' || c == '\n' || c == '\t' || c == '\r'

def skipGap (cs : List Char) : List Char := cs.dropWhile isGap

/-- The rest of a word whose first letter has been read. -/
def readWord (d : Draft) : (word cs : List Char) → Reading
  | [], cs => (d, some cs)
  | _ :: _, [] => stop .truncated
  | w :: ws, c :: cs => if c = w then readWord d ws cs else stop .malformed

/-- An array or object that lies in `depth` others. -/
def sealAt (depth : Nat) (d : Draft) : Draft := if depth < maxDepth then d else .sealed d

/-- The items of an array, whether it is closed, and the rest of the text. -/
abbrev Items := List Draft × Bool × Option (List Char)

def stopItems (f : Fault) : Items := ([.fault f], true, none)

/-- The members of an object, its fault, and the rest of the text. -/
abbrev Members := List (Option String × Draft) × Option Fault × Option (List Char)

def stopMembers (f : Fault) : Members := ([], some f, none)

mutual

/-- A value that lies in `depth` arrays and objects. -/
def readValue (fuel depth : Nat) (cs : List Char) : Reading :=
  match fuel with
  | 0 => stop .malformed
  | n + 1 =>
    match skipGap cs with
    | [] => stop .truncated
    | 'n' :: cs => readWord .null ['u', 'l', 'l'] cs
    | 't' :: cs => readWord (.bool true) ['r', 'u', 'e'] cs
    | 'f' :: cs => readWord (.bool false) ['a', 'l', 's', 'e'] cs
    | '"' :: cs =>
      match quotedAt cs with
      | .closed (some text) rest => (.str (String.ofList text), some rest)
      | .closed none rest => (.broken .malformed none, some rest)
      | .unclosed wanted passed => (.broken wanted (some passed), none)
    | '[' :: cs =>
      match readItems n (depth + 1) true cs with
      | (items, closed, rest) => (sealAt depth (.arr items closed), rest)
    | '\x7b' :: cs =>
      match readMembers n (depth + 1) true cs with
      | (members, fault, rest) => (sealAt depth (.obj members fault), rest)
    | '-' :: cs => readNumber true cs
    | c :: cs => if c.isDigit then readNumber false (c :: cs) else stop .malformed

/-- The items of an array from its bracket, or from behind an item, to its end. -/
def readItems (fuel depth : Nat) (first : Bool) (cs : List Char) : Items :=
  match fuel with
  | 0 => stopItems .malformed
  | n + 1 =>
    match skipGap cs, first with
    | [], _ => ([], false, none)
    | ']' :: cs, _ => ([], true, some cs)
    | cs, true => readItem n depth cs
    | ',' :: cs, false =>
      match skipGap cs with
      | ']' :: _ => stopItems .malformed
      | cs => readItem n depth cs
    | _, false => stopItems .malformed

/-- An item of an array and those behind it. -/
def readItem (fuel depth : Nat) (cs : List Char) : Items :=
  match fuel with
  | 0 => stopItems .malformed
  | n + 1 =>
    match readValue n depth cs with
    | (d, none) => ([d], true, none)
    | (d, some cs) =>
      match readItems n depth false cs with
      | (ds, closed, rest) => (d :: ds, closed, rest)

/-- The members of an object from its brace, or from behind a member, to its end. -/
def readMembers (fuel depth : Nat) (first : Bool) (cs : List Char) : Members :=
  match fuel with
  | 0 => stopMembers .malformed
  | n + 1 =>
    match skipGap cs, first with
    | [], _ => stopMembers .truncated
    | '\x7d' :: cs, _ => ([], none, some cs)
    | '"' :: cs, true => readMember n depth cs
    | ',' :: cs, false =>
      match skipGap cs with
      | [] => stopMembers .truncated
      | '"' :: cs => readMember n depth cs
      | _ => stopMembers .malformed
    | _, _ => stopMembers .malformed

/-- A member of an object, from behind the opening quote of its key, and those behind it. -/
def readMember (fuel depth : Nat) (cs : List Char) : Members :=
  match fuel with
  | 0 => stopMembers .malformed
  | n + 1 =>
    match quotedAt cs with
    | .unclosed wanted passed =>
      if wanted = passed then stopMembers wanted else ([(none, .fault passed)], none, none)
    | .closed text cs =>
      let key := text.map String.ofList
      match skipGap cs with
      | [] => ([(key, .fault .truncated)], none, none)
      | ':' :: cs =>
        match readValue n depth cs with
        | (d, none) => ([(key, d)], none, none)
        | (d, some cs) =>
          match readMembers n depth false cs with
          | (ms, fault, rest) => ((key, d) :: ms, fault, rest)
      | _ => ([(key, .fault .malformed)], none, none)

end

/-- A text as the draft of its first value, and whether there is more than white space behind. -/
structure Document where
  body : Draft
  trailing : Bool

def Document.ofText (text : String) : Document :=
  let cs := text.toList
  match readValue (3 * cs.length + 3) 0 cs with
  | (d, none) => ⟨d, false⟩
  | (d, some rest) => ⟨d, !(skipGap rest).isEmpty⟩

end Equational.Json
