import Equational.Proofs.Theory.Loading
import Equational.Proofs.Theory.Shipped

/-! What a theory has become after problems have been loaded, cleared and started in any order. Its
schemas are kept by two ways of changing them, reading all rules anew and leaving some out, and both
give what is found when the rules of the theory and of the active problem are read at once. -/

namespace Equational

/-- The rules of a list both of whose sides can be read, in the order of the list. -/
def Signature.readableRules (σ : Signature) (rules : List Rule) : List Rule :=
  rules.filter fun r => (σ.read r.lhs).isOk && (σ.read r.rhs).isOk

namespace Theory

/-- What a switch between problems is made of. -/
inductive Move where
  | load (problem : String) (laws : List Law)
  | clear

namespace Move

def problem? : Move → Option String
  | load problem _ => some problem
  | clear => none

def lawsFor? (problem : String) : Move → Option (List Law)
  | load other laws => if other = problem then some laws else none
  | clear => none

end Move

/-- The problem of the last load, if no clear has followed it. -/
def lastActive? (ms : List Move) : Option String := ms.getLast?.bind Move.problem?

/-- The laws that were loaded for a problem last, whatever has followed. -/
def lastLaws? (ms : List Move) (problem : String) : Option (List Law) :=
  ms.reverse.findSome? (Move.lawsFor? problem)

@[simp] theorem lastActive?_load (ms : List Move) (problem : String) (laws : List Law) :
    lastActive? (ms ++ [.load problem laws]) = some problem := by
  simp [lastActive?, Move.problem?]

@[simp] theorem lastActive?_clear (ms : List Move) : lastActive? (ms ++ [.clear]) = none := by
  simp [lastActive?, Move.problem?]

@[simp] theorem lastLaws?_load_self (ms : List Move) (problem : String) (laws : List Law) :
    lastLaws? (ms ++ [.load problem laws]) problem = some laws := by
  simp [lastLaws?, Move.lawsFor?]

@[simp] theorem lastLaws?_load_of_ne (ms : List Move) {problem other : String} (laws : List Law)
    (h : other ≠ problem) : lastLaws? (ms ++ [.load problem laws]) other = lastLaws? ms other := by
  simp [lastLaws?, Move.lawsFor?, Ne.symm h]

@[simp] theorem lastLaws?_clear (ms : List Move) (problem : String) :
    lastLaws? (ms ++ [.clear]) problem = lastLaws? ms problem := by
  rw [lastLaws?, List.reverse_concat, List.findSome?_cons]
  rfl

/-- The ways to change which problem is active. -/
inductive Switch where
  | load (problem : String) (laws : List Law)
  | clear
  | start (p : Problem)

/-- To start a problem is to clear what was there, and to load its laws if it lists any. -/
def Switch.moves : Switch → List Move
  | load problem laws => [.load problem laws]
  | clear => [.clear]
  | start p => .clear :: p.customLaws.toList.map (.load p.id)

def switch (θ : Theory) : Switch → Theory
  | .load problem laws => θ.load problem laws
  | .clear => θ.clear
  | .start p => θ.start p

def switchAll (θ : Theory) (ss : List Switch) : Theory := ss.foldl switch θ

/-- The schemas of the active problem when its stored laws are read anew. -/
def activeSchemas (θ : Theory) : List Schema :=
  match θ.active with
  | some problem => θ.lawSchemas problem θ.customLaws
  | none => []

/-- The schemas of a theory when all its rules are read anew. -/
def compiled (θ : Theory) : List Schema :=
  readable θ.signature .theory θ.listed ++ θ.activeSchemas

/-- The theory is what `θ₀` becomes by the moves. -/
structure Follows (θ₀ : Theory) (ms : List Move) (θ : Theory) : Prop where
  presented : θ.presented = θ₀.presented
  active : θ.active = lastActive? ms
  stored : ∀ problem, θ.stored.get? problem = lastLaws? ms problem
  schemas : θ.schemas = θ.compiled

variable {θ₀ θ : Theory} {ms : List Move}

theorem follows_ofPresentation {p : Presentation} (h : ofPresentation p = .ok θ₀) :
    Follows θ₀ [] θ₀ := by
  obtain ⟨σ, -, rfl⟩ := ofPresentation_eq_ok_iff.mp h
  exact ⟨rfl, rfl, fun _ => rfl, (List.append_nil _).symm⟩

theorem source_of_mem_readable {σ : Signature} {source : Source} {rules : List Rule} {d : Schema}
    (h : d ∈ readable σ source rules) : d.source = source := by
  obtain ⟨r, -, hd⟩ := mem_readable.mp h
  exact (Rule.schema_eq_ok_iff.mp hd).2.2.2

theorem source_of_mem_activeSchemas {d : Schema} (h : d ∈ θ.activeSchemas) :
    ∃ problem, θ.active = some problem ∧ d.source = .problem problem := by
  rw [activeSchemas] at h
  cases ha : θ.active with
  | none => simp [ha] at h
  | some problem =>
    rw [ha] at h
    exact ⟨problem, rfl, source_of_mem_readable h⟩

/-- Leaving out the laws of the active problem leaves what is found without one. -/
theorem filter_compiled (θ : Theory) :
    θ.compiled.filter (!·.isCustom) = readable θ.signature .theory θ.listed := by
  have hlisted : ∀ d ∈ readable θ.signature .theory θ.listed, (!d.isCustom) = true := by
    intro d hd
    rw [Schema.isCustom, source_of_mem_readable hd]
    rfl
  have hlaws : ∀ d ∈ θ.activeSchemas, ¬ (!d.isCustom) = true := by
    intro d hd
    obtain ⟨problem, -, hsource⟩ := source_of_mem_activeSchemas hd
    rw [Schema.isCustom, hsource]
    simp [Source.problem?]
  rw [compiled, List.filter_append, List.filter_eq_self.mpr hlisted,
    List.filter_eq_nil_iff.mpr hlaws, List.append_nil]

theorem customLaws_load (θ : Theory) (problem : String) (laws : List Law) :
    (θ.load problem laws).customLaws = laws := by
  simp [customLaws, load]

/-- Loading reads all rules anew. -/
theorem schemas_load (θ : Theory) (problem : String) (laws : List Law) :
    (θ.load problem laws).schemas = (θ.load problem laws).compiled := by
  change _ = _ ++ (θ.load problem laws).lawSchemas problem (θ.load problem laws).customLaws
  rw [customLaws_load]
  rfl

/-- Clearing reads nothing anew: the laws are left out of what was read before. -/
theorem schemas_clear (h : θ.schemas = θ.compiled) : θ.clear.schemas = θ.clear.compiled := by
  have hfilter : θ.clear.schemas = readable θ.signature .theory θ.listed := by
    rw [clear, h, filter_compiled]
  rw [hfilter]
  exact (List.append_nil _).symm

theorem Follows.load (h : Follows θ₀ ms θ) (problem : String) (laws : List Law) :
    Follows θ₀ (ms ++ [.load problem laws]) (θ.load problem laws) where
  presented := h.presented
  active := (lastActive?_load ms problem laws).symm
  stored other := by
    by_cases ho : other = problem
    · rw [ho, lastLaws?_load_self]
      exact SortedMap.get?_insert_self _ _ _
    · rw [lastLaws?_load_of_ne ms laws ho, ← h.stored other]
      exact SortedMap.get?_insert_of_ne _ _ ho
  schemas := schemas_load θ problem laws

theorem Follows.clear (h : Follows θ₀ ms θ) : Follows θ₀ (ms ++ [.clear]) θ.clear where
  presented := h.presented
  active := (lastActive?_clear ms).symm
  stored problem := by
    rw [lastLaws?_clear]
    exact h.stored problem
  schemas := schemas_clear h.schemas

theorem Follows.switch (h : Follows θ₀ ms θ) (s : Switch) :
    Follows θ₀ (ms ++ s.moves) (θ.switch s) := by
  cases s with
  | load problem laws => exact h.load problem laws
  | clear => exact h.clear
  | start p =>
    rw [Theory.switch, start, Switch.moves]
    cases p.customLaws with
    | none => exact h.clear
    | some laws =>
      have hl := h.clear.load p.id laws
      rwa [List.append_assoc] at hl

theorem Follows.switchAll (h : Follows θ₀ ms θ) (ss : List Switch) :
    Follows θ₀ (ms ++ ss.flatMap Switch.moves) (θ.switchAll ss) := by
  induction ss generalizing θ ms with
  | nil => rwa [List.flatMap_nil, List.append_nil]
  | cons s ss ih =>
    -- the history so far is general, as it grows at its end with each switch
    have hs := ih (h.switch s)
    rwa [List.append_assoc, ← List.flatMap_cons] at hs

/-- Every schema is its rule as the theory reads it. -/
theorem Follows.read_of_mem (h : Follows θ₀ ms θ) {d : Schema} (hd : d ∈ θ.schemas) :
    θ.read d.rule.lhs = .ok d.equation.lhs ∧ θ.read d.rule.rhs = .ok d.equation.rhs := by
  have hread : ∃ source rules, d ∈ readable θ.signature source rules := by
    rw [h.schemas, compiled, List.mem_append] at hd
    rcases hd with hd | hd
    · exact ⟨_, _, hd⟩
    · rw [activeSchemas] at hd
      split at hd
      · exact ⟨_, _, hd⟩
      · cases hd
  obtain ⟨source, rules, hm⟩ := hread
  obtain ⟨r, -, hr⟩ := mem_readable.mp hm
  obtain ⟨hlhs, hrhs, rfl, -⟩ := Rule.schema_eq_ok_iff.mp hr
  exact ⟨hlhs, hrhs⟩

/-- The rules of those schemas that can be read are the rules that can be read. -/
theorem map_rule_readable (σ : Signature) (source : Source) (rules : List Rule) :
    (readable σ source rules).map (·.rule) = σ.readableRules rules := by
  rw [readable, List.map_filterMap, Signature.readableRules, ← List.filterMap_eq_filter]
  congr 1
  funext r
  rw [Rule.schema, Option.guard]
  cases σ.read r.lhs with
  | error e => rfl
  | ok t =>
    cases σ.read r.rhs with
    | error e => rfl
    | ok u => rfl

/-- The rules that a history leaves to the active problem: those of its laws that hold in the
theory and can be read. -/
def problemRules (θ₀ : Theory) (ms : List Move) : List Rule :=
  match lastActive? ms with
  | some problem =>
    θ₀.signature.readableRules
      ((((lastLaws? ms problem).getD []).filter (·.appliesTo θ₀.name)).map (·.rule problem))
  | none => []

theorem Follows.map_rule_activeSchemas (h : Follows θ₀ ms θ) :
    θ.activeSchemas.map (·.rule) = problemRules θ₀ ms := by
  obtain ⟨hinfo, hσ, -⟩ := presented_eq_iff.mp h.presented
  rw [problemRules, ← h.active, activeSchemas]
  cases ha : θ.active with
  | none => rfl
  | some problem =>
    have hlaws : θ.customLaws = (lastLaws? ms problem).getD [] := by
      rw [customLaws, ha, ← h.stored problem]
    dsimp only
    rw [lawSchemas, map_rule_readable, hlaws, name, name, hinfo, hσ]

theorem Follows.available_eq (h : Follows θ₀ ms θ) :
    θ.available = θ₀.signature.readableRules θ₀.listed ++ problemRules θ₀ ms := by
  obtain ⟨-, hσ, hlisted⟩ := presented_eq_iff.mp h.presented
  rw [available, h.schemas, compiled, List.map_append, map_rule_readable, h.map_rule_activeSchemas,
    hσ, hlisted]

theorem find?_available (θ : Theory) (name : String) :
    θ.available.find? (·.name == name) = (θ.schema? name).map (·.rule) := by
  rw [available, List.find?_map]
  rfl

theorem rule_validate (θ : Theory) (t u : Term) (name : String) :
    (θ.validate t u name).rule = θ.available.find? (·.name == name) := by
  rw [find?_available, validate]
  cases θ.schema? name <;> rfl

/-- Where the schema of a theory comes from, if there is one of the name. -/
theorem Follows.source_of_schema? (h : Follows θ₀ ms θ) {name : String} {d : Schema}
    (hd : θ.schema? name = some d) :
    (d.source = .theory ∧ d.rule ∈ θ₀.signature.readableRules θ₀.listed) ∨
    ((∀ r ∈ θ₀.signature.readableRules θ₀.listed, r.name ≠ name) ∧
      d.rule ∈ problemRules θ₀ ms ∧ ∃ problem, d.source = .problem problem ∧
        θ.active = some problem) := by
  obtain ⟨-, hσ, hlisted⟩ := presented_eq_iff.mp h.presented
  rw [← hσ, ← hlisted, ← map_rule_readable θ.signature .theory, ← h.map_rule_activeSchemas]
  rw [schema?, h.schemas, compiled, List.find?_append, Option.or_eq_some_iff] at hd
  rcases hd with hd | ⟨hnone, hd⟩
  · have hm := List.mem_of_find?_eq_some hd
    exact .inl ⟨source_of_mem_readable hm, List.mem_map_of_mem hm⟩
  · have hm := List.mem_of_find?_eq_some hd
    obtain ⟨problem, ha, hsource⟩ := source_of_mem_activeSchemas hm
    refine .inr ⟨fun r hr => ?_, List.mem_map_of_mem hm, problem, hsource, ha⟩
    obtain ⟨e, he, rfl⟩ := List.mem_map.mp hr
    simpa using List.find?_eq_none.mp hnone e he

/-- What a report says about where the rule of a name comes from. It is called custom just if the
active problem has brought it along and no listed rule has its name. -/
theorem Follows.report (h : Follows θ₀ ms θ) (t u : Term) (name : String) :
    (θ.validate t u name).isCustom = (θ.validate t u name).isProblemSpecific ∧
    ((θ.validate t u name).isCustom = true ↔
      (∀ r ∈ θ₀.signature.readableRules θ₀.listed, r.name ≠ name) ∧
        ∃ r ∈ problemRules θ₀ ms, (θ.validate t u name).rule = some r) := by
  rw [validate]
  cases hd : θ.schema? name with
  | none => simp
  | some d =>
    rcases h.source_of_schema? hd with ⟨hs, hm⟩ | ⟨hne, hm, problem, hs, ha⟩
    · have hfalse : ¬ ∀ r ∈ θ₀.signature.readableRules θ₀.listed, r.name ≠ name :=
        fun hall => hall d.rule hm (name_of_schema? hd)
      simp only [Schema.isCustom, hs, Source.problem?, hfalse, false_and, iff_false]
      simp
    · simp only [Schema.isCustom, hs, ha, Source.problem?]
      refine ⟨by simp, fun _ => ⟨hne, d.rule, hm, rfl⟩, fun _ => rfl⟩

/-- After any history the active problem is that of the last load that no clear has followed, the
schemas are those of a theory whose rules are all read anew, and the available rules are the listed
rules and the laws of the active problem, as loaded last, that can be read. A report names the first
of them with the name asked for. It calls a rule custom and specific to the problem just if the
active problem has brought it along. -/
theorem rules_of_history {p : Presentation} (h : ofPresentation p = .ok θ₀) (ss : List Switch) :
    (θ₀.switchAll ss).active = lastActive? (ss.flatMap Switch.moves) ∧
    (θ₀.switchAll ss).schemas = (θ₀.switchAll ss).compiled ∧
    (θ₀.switchAll ss).available =
      θ₀.signature.readableRules p.rules ++ problemRules θ₀ (ss.flatMap Switch.moves) ∧
    ∀ (t u : Term) (name : String),
      let report := (θ₀.switchAll ss).validate t u name
      report.rule = (θ₀.switchAll ss).available.find? (·.name == name) ∧
      report.isCustom = report.isProblemSpecific ∧
      (report.isCustom = true ↔
        (∀ r ∈ θ₀.signature.readableRules p.rules, r.name ≠ name) ∧
          ∃ r ∈ problemRules θ₀ (ss.flatMap Switch.moves), report.rule = some r) := by
  have hf : Follows θ₀ (ss.flatMap Switch.moves) (θ₀.switchAll ss) :=
    (follows_ofPresentation h).switchAll ss
  have hlisted : θ₀.listed = p.rules := by
    obtain ⟨σ, -, rfl⟩ := ofPresentation_eq_ok_iff.mp h
    rfl
  rw [← hlisted]
  exact ⟨hf.active, hf.schemas, hf.available_eq,
    fun t u name => ⟨rule_validate _ t u name, hf.report t u name⟩⟩

/-- A law of the theory of sets, loaded again after another problem and beside laws that cannot be
used. -/
theorem rules_of_history_of_absorption :
    let absorption : Law := ⟨"Absorption", none, "(x ∪ y) ∩ x", "x", none⟩
    let unreadable : Law := ⟨"Union", none, "x ∪", "x", none⟩
    let foreign : Law := ⟨"Other", none, "x", "x", some "bool_alg"⟩
    let p : Problem := { (default : Problem) with
      week := 3, number := 2, customLaws := some [absorption, absorption] }
    let θ := sets.switchAll [.start p, .load "1.1" [absorption], .clear,
      .load "3.2" [foreign, absorption, unreadable]]
    ofPresentation .sets = .ok sets ∧ θ.active = some "3.2" ∧
      θ.available = Presentation.sets.rules ++ [absorption.rule "3.2"] ∧
      (θ.validate (.leaf 'A') (.leaf 'A') "custom_3.2_absorption").isProblemSpecific = true := by
  intro absorption unreadable foreign p θ
  obtain ⟨hactive, -, havailable, hreport⟩ := rules_of_history ofPresentation_sets
    [.start p, .load "1.1" [absorption], .clear, .load "3.2" [foreign, absorption, unreadable]]
  obtain ⟨hrule, hspecific, hcustom⟩ :=
    hreport (.leaf 'A') (.leaf 'A') "custom_3.2_absorption"
  have hlisted : sets.signature.readableRules Presentation.sets.rules =
      Presentation.sets.rules := by
    decide +kernel
  have hlaws : problemRules sets (List.flatMap Switch.moves [.start p, .load "1.1" [absorption],
      .clear, .load "3.2" [foreign, absorption, unreadable]]) = [absorption.rule "3.2"] := by
    decide +kernel
  rw [hlisted, hlaws] at havailable hcustom
  refine ⟨ofPresentation_sets, hactive, havailable, ?_⟩
  rw [← hspecific, hcustom, hrule, havailable]
  exact ⟨by decide, absorption.rule "3.2", List.mem_singleton_self _, by decide +kernel⟩

end Theory

end Equational
