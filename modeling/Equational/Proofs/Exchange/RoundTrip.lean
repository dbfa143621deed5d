import Equational.Exchange.Proof
import Equational.Exchange.Term
import Equational.Proofs.Json.Rearranging
import Equational.Proofs.Rewriting.Pattern

namespace Equational

open Json

/-! ### Symbols, rules and presentations -/

theorem Fixity.recovers (f : Fixity) : Fixity.decode.Recovers f.toJson f := by
  rintro _ ⟨⟩
  cases f <;> rfl

theorem Symbol.recovers (s : Symbol) : Symbol.decode.Recovers s.toJson s := by
  rw [Symbol.decode, Symbol.toJson]
  refine .obj (.map (a := (s.id, s.name, s.display, s.text, s.markdown, s.latex, s.fixity)) ?_ rfl)
  refine .and (by decide) (.member rfl (.character _)) ?_
  refine .and (by decide) (.member rfl (.text _)) ?_
  refine .and (by decide) (.member rfl (.text _)) ?_
  refine .and (by decide) (.member rfl (.text _)) ?_
  refine .and (by decide) (.member rfl (.option .text (by simp) _)) ?_
  refine .and (by decide) (.member rfl (.text _)) ?_
  exact .member rfl (Fixity.recovers _)

theorem EqualitySign.recovers (e : EqualitySign) : EqualitySign.decode.Recovers e.toJson e := by
  rw [EqualitySign.decode, EqualitySign.toJson]
  refine .obj (.map (a := (e.display, e.markdown, e.latex)) ?_ rfl)
  refine .and (by decide) (.member rfl (.text _)) ?_
  refine .and (by decide) (.member rfl (.text _)) ?_
  exact .member rfl (.text _)

theorem Rule.recovers (r : Rule) : Rule.decode.Recovers r.toJson r := by
  rw [Rule.decode, Rule.toJson]
  refine .obj (.map (a := (r.name, r.text, r.lhs, r.rhs, r.level)) ?_ rfl)
  refine .and (by decide) (.member rfl (.text _)) ?_
  refine .and (by decide) (.member rfl (.text _)) ?_
  refine .and (by decide) (.member rfl (.text _)) ?_
  refine .and (by decide) (.member rfl (.text _)) ?_
  exact .member rfl (.uint8 _)

theorem TheoryInfo.recovers (i : TheoryInfo) : TheoryInfo.decode.Recovers i.toJson i := by
  rw [TheoryInfo.decode, TheoryInfo.toJson]
  refine .obj (.map (a := (i.name, i.displayName, i.description)) ?_ rfl)
  refine .and (by decide) (.member rfl (.text _)) ?_
  refine .and (by decide) (.member rfl (.text _)) ?_
  exact .member rfl (.text _)

theorem Presentation.recovers (p : Presentation) : Presentation.decode.Recovers p.toJson p := by
  rw [Presentation.decode, Presentation.toJson]
  refine .obj (.map (a := (p.info, p.symbols, p.equality, p.rules)) ?_ rfl)
  refine .and (by decide) (.member rfl (TheoryInfo.recovers _)) ?_
  refine .and (by decide) (.member rfl (.list fun s _ => s.recovers)) ?_
  refine .and (by decide) (.member rfl (EqualitySign.recovers _)) ?_
  exact .member rfl (.list fun r _ => r.recovers)

/-! ### Laws and problems -/

theorem Law.recovers (l : Law) : Law.decode.Recovers l.toJson l := by
  rw [Law.decode, Law.toJson]
  refine .obj (.map (a := (l.name, l.text, l.lhs, l.rhs, l.theory)) ?_ rfl)
  refine .and (by decide) (.member rfl (.text _)) ?_
  refine .and (by decide) (.member rfl (.option .text (by simp) _)) ?_
  refine .and (by decide) (.member rfl (.text _)) ?_
  refine .and (by decide) (.member rfl (.text _)) ?_
  exact .member rfl (.option .text (by simp) _)

/-- The members of an object give a law. Each side has one of its two names, and what a law may do
without may be left out or `null`. -/
structure Law.Spells (ms : List (String × Json)) (l : Law) : Prop where
  name : Field ["name"] .text none ms l.name
  text : Field ["text"] (.option .text) (some none) ms l.text
  lhs : Field ["lhs", "LHS"] .text none ms l.lhs
  rhs : Field ["rhs", "RHS"] .text none ms l.rhs
  theory : Field ["theory"] (.option .text) (some none) ms l.theory

theorem Law.decode_obj_iff {ms : List (String × Json)} {l : Law} :
    Law.decode (draft (.obj ms)) = .ok l ↔ Law.Spells ms l := by
  rw [Law.decode, Record.decode_obj_iff, Record.reads_map]
  simp (disch := decide) only [Record.field, Record.fieldD, Record.reads_field_and,
    Record.reads_fieldOf, Prod.exists]
  constructor
  · rintro ⟨_, _, _, _, _, ⟨hname, htext, hlhs, hrhs, htheory⟩, rfl⟩
    exact ⟨hname, htext, hlhs, hrhs, htheory⟩
  · rintro ⟨hname, htext, hlhs, hrhs, htheory⟩
    exact ⟨_, _, _, _, _, ⟨hname, htext, hlhs, hrhs, htheory⟩, rfl⟩

/-- The members of an object give a problem. An empty list of rules or laws is told from one that is
left out or `null`, and hints may be left out but not be `null`. -/
structure Problem.Spells (ms : List (String × Json)) (p : Problem) : Prop where
  week : Field ["week"] .uint32 none ms p.week
  number : Field ["number"] .uint32 none ms p.number
  theory : Field ["theory"] .text none ms p.theory
  name : Field ["name"] .text (some "") ms p.name
  description : Field ["description"] .text (some "") ms p.description
  lhs : Field ["LHS"] .text none ms p.lhs
  rhs : Field ["RHS"] .text none ms p.rhs
  hints : Field ["hints"] (.list .text) (some []) ms p.hints
  enabled : Field ["enabledRules"] (.option (.list .text)) (some none) ms p.enabledRules
  disabled : Field ["disabledRules"] (.option (.list .text)) (some none) ms p.disabledRules
  laws : Field ["customLaws"] (.option (.list Law.decode)) (some none) ms p.customLaws

theorem Problem.decode_obj_iff {ms : List (String × Json)} {p : Problem} :
    Problem.decode (draft (.obj ms)) = .ok p ↔ Problem.Spells ms p := by
  rw [Problem.decode, Record.decode_obj_iff, Record.reads_map]
  simp (disch := decide) only [Record.field, Record.fieldD, Record.reads_field_and,
    Record.reads_fieldOf, Prod.exists]
  constructor
  · rintro ⟨_, _, _, _, _, _, _, _, _, _, _, h, rfl⟩
    obtain ⟨hweek, hnumber, htheory, hname, hdescription, hlhs, hrhs, hhints, henabled, hdisabled,
      hlaws⟩ := h
    exact ⟨hweek, hnumber, htheory, hname, hdescription, hlhs, hrhs, hhints, henabled, hdisabled,
      hlaws⟩
  · intro h
    exact ⟨_, _, _, _, _, _, _, _, _, _, _, ⟨h.week, h.number, h.theory, h.name, h.description,
      h.lhs, h.rhs, h.hints, h.enabled, h.disabled, h.laws⟩, rfl⟩

theorem Json.named_memberOfOption {α : Type} {names : List String} {key : String} {f : α → Json}
    (o : Option α) : named names (memberOfOption key f o) =
      if names.contains key then (o.map f).toList else [] := by
  cases o with
  | none => simp [memberOfOption]
  | some a => rw [memberOfOption, named_cons]; rfl

theorem Problem.recovers (p : Problem) : Problem.decode.Recovers p.toJson p := by
  rw [Problem.decode, Problem.toJson]
  refine .obj (.map (a := (p.week, p.number, p.theory, p.name, p.description, p.lhs, p.rhs,
    p.hints, p.enabledRules, p.disabledRules, p.customLaws)) ?_ rfl)
  refine .and (by decide) (.member ?week (.uint32 _)) <|
    .and (by decide) (.member ?number (.uint32 _)) <|
    .and (by decide) (.member ?theory (.text _)) <|
    .and (by decide) (.member ?name (.text _)) <|
    .and (by decide) (.member ?description (.text _)) <|
    .and (by decide) (.member ?lhs (.text _)) <|
    .and (by decide) (.member ?rhs (.text _)) <|
    .and (by decide) ?hints <|
    .and (by decide) (.optional ?enabled .strings list_ne_null) <|
    .and (by decide) (.optional ?disabled .strings list_ne_null) <|
    .optional ?laws (fun _ => .list fun l _ => l.recovers) list_ne_null
  case hints =>
    cases hp : p.hints with
    | nil => exact .leftOut (by simp [named_append, named_cons, named_memberOfOption])
    | cons h hs =>
      refine .member ?_ (.strings (h :: hs))
      simp [named_append, named_cons, named_memberOfOption]
  all_goals simp [named_append, named_cons, named_ite, named_memberOfOption]

theorem ProblemSet.recovers (s : ProblemSet) : ProblemSet.decode.Recovers s.toJson s := by
  rw [ProblemSet.decode, ProblemSet.toJson]
  exact .obj (.map (a := s.problems) (.member rfl (.list fun p _ => p.recovers)) rfl)

/-! ### Proofs and terms -/

theorem ProofStep.recovers (s : ProofStep) : ProofStep.decode.Recovers s.toJson s := by
  rw [ProofStep.decode, ProofStep.toJson]
  refine .obj (.map (a := (s.expression, s.rule)) ?_ rfl)
  refine .and (by decide) (.member rfl (.text _)) ?_
  exact .member rfl (Rule.recovers _)

theorem ProofSheet.recovers (s : ProofSheet) : ProofSheet.decode.Recovers s.toJson s := by
  rw [ProofSheet.decode, ProofSheet.toJson]
  refine .obj (.map (a := (s.title, s.description, s.lhs, s.rhs, s.expressions, s.rules,
    s.theory)) ?_ rfl)
  refine .and (by decide) (.member rfl (.text _)) ?_
  refine .and (by decide) (.member rfl (.text _)) ?_
  refine .and (by decide) (.member rfl (.text _)) ?_
  refine .and (by decide) (.member rfl (.text _)) ?_
  refine .and (by decide) (.member rfl (.strings _)) ?_
  refine .and (by decide) (.member rfl (.strings _)) ?_
  exact .member rfl (.text _)

theorem Term.toJsonList_eq (ts : List Term) : Term.toJsonList ts = ts.map Term.toJson := by
  induction ts with
  | nil => rfl
  | cons t ts ih => rw [toJsonList, ih, List.map_cons]

/-- A term is read within any depth that its text does not exceed. -/
theorem Term.decodeWithin_eq_ok {t : Term} {j : Json} {n : Nat} (h : t.toJson.Rearranged j)
    (hn : j.draft.depth < n) : Term.decodeWithin n j.draft = .ok t := by
  induction t generalizing j n with
  | node c ts ih =>
    cases n with
    | zero => omega
    | succ m =>
      rw [toJson] at h
      cases h with
      | @obj _ ns ms hns hp =>
        have h : Rearranged (.obj _) (.obj ms) := .obj hns hp
        obtain ⟨root, hroot, hc⟩ :=
          h.named_eq_singleton (show named ["root"] _ = [.char c] from rfl)
        obtain ⟨children, hchildren, hts⟩ :=
          h.named_eq_singleton (show named ["children"] _ = [.arr (toJsonList ts)] from rfl)
        -- each argument lies deeper in the text than the term, so a smaller bound is enough for it
        have hd : children.draft.depth < (draft (.obj ms)).depth :=
          depth_lt_of_named (hchildren ▸ List.mem_singleton_self children)
        rw [decodeWithin, Record.decode_obj_iff, Record.reads_map]
        refine ⟨(c, ts), (Record.reads_and (by decide)).mpr ⟨?_, ?_⟩, rfl⟩
        · exact Record.reads_fieldOf.mpr (.inr ⟨root, hroot, Decoder.Recovers.character c root hc⟩)
        · refine Record.reads_fieldOf.mpr (.inr ⟨children, hchildren, ?_⟩)
          rw [toJsonList_eq] at hts
          cases hts with
          | arr hjs =>
            refine Decoder.list_eq_ok hjs fun t ht j hj htj => ih t ht htj ?_
            have := depth_lt_of_mem hj
            omega

theorem Term.recovers (t : Term) : Term.decode.Recovers t.toJson t := by
  intro j hj
  exact Term.decodeWithin_eq_ok hj (Nat.lt_succ_self _)

/-! ### All of them -/

/-- What is written is read back as it was, in whatever order its members come, and what has been
read from a text in any form is read again when it is written. -/
structure Json.Faithful {α : Type} (write : α → Json) (decode : Decoder α) : Prop where
  recovers (a : α) : decode.Recovers (write a) a
  again {d : Draft} {a : α} (h : decode d = .ok a) : decode (write a).draft = .ok a

theorem Json.Faithful.of_recovers {α : Type} {write : α → Json} {decode : Decoder α}
    (h : ∀ a, decode.Recovers (write a) a) : Faithful write decode :=
  ⟨h, fun _ => (h _).eq_ok⟩

theorem Json.written_read_back :
    Faithful Problem.toJson Problem.decode ∧ Faithful ProblemSet.toJson ProblemSet.decode ∧
    Faithful Law.toJson Law.decode ∧ Faithful Rule.toJson Rule.decode ∧
    Faithful Symbol.toJson Symbol.decode ∧ Faithful EqualitySign.toJson EqualitySign.decode ∧
    Faithful TheoryInfo.toJson TheoryInfo.decode ∧
    Faithful Presentation.toJson Presentation.decode ∧ Faithful Term.toJson Term.decode ∧
    Faithful ProofStep.toJson ProofStep.decode ∧ Faithful ProofSheet.toJson ProofSheet.decode ∧
    (∀ ms l, Law.decode (draft (.obj ms)) = .ok l ↔ Law.Spells ms l) ∧
    ∀ ms p, Problem.decode (draft (.obj ms)) = .ok p ↔ Problem.Spells ms p :=
  ⟨.of_recovers Problem.recovers, .of_recovers ProblemSet.recovers, .of_recovers Law.recovers,
    .of_recovers Rule.recovers, .of_recovers Symbol.recovers, .of_recovers EqualitySign.recovers,
    .of_recovers TheoryInfo.recovers, .of_recovers Presentation.recovers,
    .of_recovers Term.recovers, .of_recovers ProofStep.recovers,
    .of_recovers ProofSheet.recovers, fun _ _ => Law.decode_obj_iff,
    fun _ _ => Problem.decode_obj_iff⟩

/-- A problem without any member that may be left out, and with a law whose sides are named each
in its own way. -/
theorem Json.written_read_back_of_respelled :
    let d := draft (.obj [("RHS", .str "y"), ("LHS", .str "x"), ("theory", .str "boolean"),
      ("number", .int 2), ("week", .int 1), ("enabledRules", .arr []),
      ("customLaws", .arr [.obj [("rhs", .str "y"), ("LHS", .str "x"), ("name", .str "l")]])])
    let p : Problem := ⟨1, 2, "boolean", "", "", "x", "y", [], some [], none,
      some [⟨"l", none, "x", "y", none⟩]⟩
    Problem.decode d = .ok p ∧ Problem.decode p.toJson.draft = .ok p := by
  intro d p
  have hd : Problem.decode d = .ok p := rfl
  exact ⟨hd, Json.written_read_back.1.again hd⟩

end Equational
