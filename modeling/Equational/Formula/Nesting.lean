import Equational.Formula.Token

namespace Equational

/-- A token that is no parenthesis, or what stands inside a pair of them. -/
inductive Piece where
  | token (c : Char)
  | group (pieces : List Piece)
deriving Inhabited

namespace Piece

mutual

def tokens : Piece → List Char
  | token c => [c]
  | group ps => '(' :: tokensList ps ++ [')']

def tokensList : List Piece → List Char
  | [] => []
  | p :: ps => tokens p ++ tokensList ps

end

mutual

/-- Single tokens are no parentheses. -/
def isProper : Piece → Bool
  | token c => c != '(' && c != ')'
  | group ps => isProperList ps

def isProperList : List Piece → Bool
  | [] => true
  | p :: ps => isProper p && isProperList ps

end

/-- The pieces up to the next parenthesis that closes a group opened before, then the pieces up to
the next such parenthesis, and so on to the end. Without one that is the whole list. It fails on a
parenthesis that is never closed. -/
def levels : List Char → Option (List (List Piece))
  | [] => some [[]]
  | c :: cs =>
    if c = '(' then
      match levels cs with
      | some (g :: ps :: rest) => some ((group g :: ps) :: rest)
      | _ => none
    else if c = ')' then (levels cs).map ([] :: ·)
    else
      match levels cs with
      | some (ps :: rest) => some ((token c :: ps) :: rest)
      | _ => none

/-- The pieces of balanced tokens. -/
def nest (cs : List Char) : Option (List Piece) :=
  match levels cs with
  | some [ps] => some ps
  | _ => none

/-- The tokens of several levels, each ended by a parenthesis but the last. -/
def levelTokens : List (List Piece) → List Char
  | [] => []
  | [ps] => tokensList ps
  | ps :: qs :: rest => tokensList ps ++ ')' :: levelTokens (qs :: rest)

theorem tokensList_append (ps qs : List Piece) :
    tokensList (ps ++ qs) = tokensList ps ++ tokensList qs := by
  induction ps with
  | nil => rfl
  | cons p ps ih => simp [tokensList, ih]

theorem levels_ne_nil {cs : List Char} {ls : List (List Piece)} (h : levels cs = some ls) :
    ls ≠ [] := by
  cases cs with
  | nil => simp only [levels, Option.some.injEq] at h; simp [← h]
  | cons c cs =>
    rw [levels] at h
    split at h
    · split at h
      · simp only [Option.some.injEq] at h; simp [← h]
      · simp at h
    · split at h
      · obtain ⟨_, _, rfl⟩ := Option.map_eq_some_iff.mp h; simp
      · split at h
        · simp only [Option.some.injEq] at h; simp [← h]
        · simp at h

theorem levelTokens_levels {cs : List Char} {ls : List (List Piece)} (h : levels cs = some ls) :
    levelTokens ls = cs ∧ ∀ ps ∈ ls, isProperList ps = true := by
  induction cs generalizing ls with
  | nil =>
    obtain rfl : [[]] = ls := by simpa [levels] using h
    exact ⟨rfl, by simp [isProperList]⟩
  | cons c cs ih =>
    rw [levels] at h
    split at h
    · next hc =>
      split at h
      · next g ps rest hl =>
        obtain ⟨ht, hp⟩ := ih hl
        obtain rfl := Option.some.inj h
        refine ⟨?_, ?_⟩
        · rw [hc, ← ht]
          cases rest <;> simp [levelTokens, tokensList, tokens]
        · intro qs hq
          rcases List.mem_cons.mp hq with rfl | hq
          · simp [isProperList, isProper, hp g (by simp), hp ps (by simp)]
          · exact hp qs (by simp [hq])
      · simp at h
    · split at h
      · next hc =>
        obtain ⟨ks, hk, rfl⟩ := Option.map_eq_some_iff.mp h
        obtain ⟨ht, hp⟩ := ih hk
        obtain ⟨k, ks', rfl⟩ := List.exists_cons_of_ne_nil (levels_ne_nil hk)
        refine ⟨by simp [levelTokens, tokensList, ht, hc], ?_⟩
        intro qs hq
        rcases List.mem_cons.mp hq with rfl | hq
        · rfl
        · exact hp qs hq
      · next ho hc =>
        split at h
        · next ps rest hl =>
          obtain ⟨ht, hp⟩ := ih hl
          obtain rfl := Option.some.inj h
          refine ⟨?_, ?_⟩
          · rw [← ht]
            cases rest <;> simp [levelTokens, tokensList, tokens]
          · intro qs hq
            rcases List.mem_cons.mp hq with rfl | hq
            · simp [isProperList, isProper, hp ps (by simp), ho, hc]
            · exact hp qs (by simp [hq])
        · simp at h

mutual

theorem levels_tokens_append {p : Piece} (hp : isProper p = true) {cs : List Char}
    {ps : List Piece} {rest : List (List Piece)} (h : levels cs = some (ps :: rest)) :
    levels (tokens p ++ cs) = some ((p :: ps) :: rest) := by
  match p with
  | token c =>
    simp only [isProper, Bool.and_eq_true, bne_iff_ne] at hp
    simp [tokens, levels, hp.1, hp.2, h]
  | group qs =>
    have hc : levels (')' :: cs) = some ([] :: ps :: rest) := by simp [levels, h]
    have hq : levels (tokensList qs ++ ')' :: cs) = some ((qs ++ []) :: ps :: rest) :=
      levels_tokensList_append hp hc
    simp [tokens, levels, hq]

theorem levels_tokensList_append {ps : List Piece} (hp : isProperList ps = true) {cs : List Char}
    {qs : List Piece} {rest : List (List Piece)} (h : levels cs = some (qs :: rest)) :
    levels (tokensList ps ++ cs) = some ((ps ++ qs) :: rest) := by
  match ps with
  | [] => exact h
  | p :: ps =>
    simp only [isProperList, Bool.and_eq_true] at hp
    rw [tokensList, List.append_assoc]
    exact levels_tokens_append hp.1 (levels_tokensList_append hp.2 h)

end

theorem nest_eq_some_iff {cs : List Char} {ps : List Piece} :
    nest cs = some ps ↔ tokensList ps = cs ∧ isProperList ps = true := by
  constructor
  · intro h
    rw [nest] at h
    split at h
    · next hl =>
      obtain rfl := Option.some.inj h
      obtain ⟨ht, hp⟩ := levelTokens_levels hl
      exact ⟨ht, hp _ (by simp)⟩
    · simp at h
  · rintro ⟨rfl, hp⟩
    have h : levels (tokensList ps ++ []) = some [ps ++ []] := levels_tokensList_append hp rfl
    simp only [List.append_nil] at h
    rw [nest, h]

end Piece

/-- The parenthesis that is wrong in tokens, read from the left with `depth` groups still to be
closed. The depth has no bound, and a count in 32 bits gives another answer only from 2 ^ 31 open
groups on. -/
def parenthesisFault? (depth : Nat) : List Char → Option ReadError
  | [] => if depth = 0 then none else some .unclosed
  | c :: cs =>
    if c = '(' then parenthesisFault? (depth + 1) cs
    else if c = ')' then
      match depth with
      | 0 => some .unopened
      | n + 1 => parenthesisFault? n cs
    else parenthesisFault? depth cs

end Equational
