import Equational.Signature.Symbol
import Equational.Term.Basic
import Equational.Text.Blank

/-!
A signature is a list of symbols that can be told apart, from each other and from variables,
parentheses and white space, both by their ids and by the texts typed for them. The order of the
list matters to the reading of formulas. The main statement is `Signature.ofSymbols`: it builds a
signature exactly if the symbols are lawful, and it names the first offence otherwise.
-/

namespace Equational

inductive SignatureError where
  | duplicateId (id : Char)
  | duplicateText (text : String)
  | reservedId (id : Char)
  | reservedText (text : String)
  | unsupportedFixity (code : Int)
deriving DecidableEq

def SignatureError.message : SignatureError → String
  | duplicateId c => "symbol id `" ++ String.singleton c ++ "` is used more than once"
  | duplicateText s => "symbol text `" ++ s ++ "` is used more than once"
  | reservedId c =>
    "symbol id `" ++ String.singleton c ++ "` collides with a variable or a parenthesis"
  | reservedText s =>
    "symbol text `" ++ s ++ "` is empty or contains letters, parentheses or whitespace"
  | unsupportedFixity n => "unsupported arity " ++ toString n

def Fixity.ofCode (n : Int) : Except SignatureError Fixity :=
  match ofCode? n with
  | some f => .ok f
  | none => .error (.unsupportedFixity n)

namespace Signature

/-- Letters, parentheses and white space have a meaning of their own in formulas. -/
def isReserved (c : Char) : Bool := Term.isLetter c || c == '(' || c == ')' || Text.isBlank c

def isReservedText (s : String) : Bool := s.toList.isEmpty || s.toList.any isReserved

/-- What is wrong with a symbol that comes after the symbols `earlier`. -/
def offence? (earlier : List Symbol) (s : Symbol) : Option SignatureError :=
  if isReserved s.id then some (.reservedId s.id)
  else if isReservedText s.text then some (.reservedText s.text)
  else if earlier.any (·.id == s.id) then some (.duplicateId s.id)
  else if earlier.any (·.text == s.text) then some (.duplicateText s.text)
  else none

/-- The first offence in a list of symbols that come after the symbols `earlier`. -/
def firstOffence? (earlier : List Symbol) : List Symbol → Option SignatureError
  | [] => none
  | s :: ss => (offence? earlier s).or (firstOffence? (earlier ++ [s]) ss)

/-- The symbols of a list can be told apart from all else and from each other. -/
structure Lawful (symbols : List Symbol) : Prop where
  id_free : ∀ s ∈ symbols, isReserved s.id = false
  text_free : ∀ s ∈ symbols, isReservedText s.text = false
  ids_ne : symbols.Pairwise (·.id ≠ ·.id)
  texts_ne : symbols.Pairwise (·.text ≠ ·.text)

theorem offence?_eq_none_iff {earlier : List Symbol} {s : Symbol} :
    offence? earlier s = none ↔ isReserved s.id = false ∧ isReservedText s.text = false ∧
      (∀ e ∈ earlier, e.id ≠ s.id) ∧ ∀ e ∈ earlier, e.text ≠ s.text := by
  simp only [offence?]
  split <;> simp_all
  split <;> simp_all
  split
  · next h => simpa using fun h' => absurd h (by simpa using h')
  · next h => simp_all

theorem firstOffence?_eq_none_iff {earlier symbols : List Symbol} :
    firstOffence? earlier symbols = none ↔ Lawful symbols ∧
      ∀ e ∈ earlier, ∀ s ∈ symbols, e.id ≠ s.id ∧ e.text ≠ s.text := by
  induction symbols generalizing earlier with
  | nil => exact ⟨fun _ => ⟨⟨by simp, by simp, .nil, .nil⟩, by simp⟩, fun _ => rfl⟩
  | cons s ss ih =>
    rw [firstOffence?, Option.or_eq_none_iff, offence?_eq_none_iff, ih]
    constructor
    · rintro ⟨⟨hi, ht, hid, htx⟩, hl, hp⟩
      refine ⟨⟨?_, ?_, ?_, ?_⟩, ?_⟩
      · simpa using ⟨hi, hl.id_free⟩
      · simpa using ⟨ht, hl.text_free⟩
      · exact .cons (fun u hu => (hp s (by simp) u hu).1) hl.ids_ne
      · exact .cons (fun u hu => (hp s (by simp) u hu).2) hl.texts_ne
      · intro e he u hu
        rcases List.mem_cons.mp hu with rfl | hu
        · exact ⟨hid e he, htx e he⟩
        · exact hp e (by simp [he]) u hu
    · rintro ⟨hl, hp⟩
      have hi := List.pairwise_cons.mp hl.ids_ne
      have ht := List.pairwise_cons.mp hl.texts_ne
      refine ⟨⟨hl.id_free s (by simp), hl.text_free s (by simp),
        fun e he => (hp e he s (by simp)).1, fun e he => (hp e he s (by simp)).2⟩,
        ⟨fun u hu => hl.id_free u (by simp [hu]), fun u hu => hl.text_free u (by simp [hu]),
          hi.2, ht.2⟩, fun e he u hu => ?_⟩
      rcases List.mem_append.mp he with he | he
      · exact hp e he u (by simp [hu])
      · obtain rfl : e = s := by simpa using he
        exact ⟨hi.1 u hu, ht.1 u hu⟩

theorem lawful_iff {symbols : List Symbol} :
    Lawful symbols ↔ firstOffence? [] symbols = none := by
  simp [firstOffence?_eq_none_iff]

instance (symbols : List Symbol) : Decidable (Lawful symbols) :=
  decidable_of_iff _ lawful_iff.symm

end Signature

structure Signature where
  symbols : List Symbol
  equality : EqualitySign
  lawful : Signature.Lawful symbols

namespace Signature

def ofSymbols (symbols : List Symbol) (equality : EqualitySign) :
    Except SignatureError Signature :=
  match h : firstOffence? [] symbols with
  | none => .ok ⟨symbols, equality, lawful_iff.mpr h⟩
  | some e => .error e

theorem ofSymbols_of_lawful {symbols : List Symbol} (h : Lawful symbols)
    (equality : EqualitySign) :
    ofSymbols symbols equality = .ok ⟨symbols, equality, h⟩ := by
  rw [ofSymbols]
  split
  · rfl
  · next e he =>
    rw [lawful_iff.mp h] at he
    cases he

variable (σ : Signature)

def byId? (c : Char) : Option Symbol := σ.symbols.find? (·.id == c)

def byText? (text : String) : Option Symbol := σ.symbols.find? (·.text == text)

def fixity? (c : Char) : Option Fixity := (σ.byId? c).map (·.fixity)

def constants : List Symbol := σ.symbols.filter (·.fixity == .constant)

def unaryOperators : List Symbol := σ.symbols.filter (·.fixity.isUnary)

def binaryOperators : List Symbol := σ.symbols.filter (·.fixity == .between)

/-- How many symbols come before the one with this id. -/
def position (c : Char) : Nat := σ.symbols.findIdx (·.id == c)

mutual

/-- Every node is a variable, or a symbol applied to as many terms as it takes. -/
def wellFormed : Term → Bool
  | .node c ts =>
    (match σ.fixity? c with
      | some f => f.operands == ts.length
      | none => ts.isEmpty && Term.isLetter c) && wellFormedList ts

def wellFormedList : List Term → Bool
  | [] => true
  | t :: ts => wellFormed t && wellFormedList ts

end

/-- Where a key tells the symbols of a list apart, a symbol is found by its key. -/
theorem find?_of_pairwise_ne {κ : Type} [BEq κ] [LawfulBEq κ] {key : Symbol → κ}
    {symbols : List Symbol} (hne : symbols.Pairwise (key · ≠ key ·)) {s : Symbol}
    (hs : s ∈ symbols) : symbols.find? (key · == key s) = some s := by
  induction symbols with
  | nil => cases hs
  | cons t ts ih =>
    obtain ⟨ht, hts⟩ := List.pairwise_cons.mp hne
    rcases List.mem_cons.mp hs with rfl | hs
    · simp
    · rw [List.find?_cons_of_neg (by simpa using ht s hs)]
      exact ih hts hs

theorem wellFormedList_eq (ts : List Term) : σ.wellFormedList ts = ts.all σ.wellFormed := by
  induction ts with
  | nil => rfl
  | cons t ts ih => rw [wellFormedList, ih, List.all_cons]

variable {σ}

theorem byId?_of_mem {s : Symbol} (h : s ∈ σ.symbols) : σ.byId? s.id = some s :=
  find?_of_pairwise_ne σ.lawful.ids_ne h

theorem byText?_of_mem {s : Symbol} (h : s ∈ σ.symbols) : σ.byText? s.text = some s :=
  find?_of_pairwise_ne σ.lawful.texts_ne h

end Signature

end Equational
