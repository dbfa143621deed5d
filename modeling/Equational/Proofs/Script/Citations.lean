import Equational.Proofs.Script.Soundness
import Equational.Proofs.Theory.History
import Equational.Proofs.Theory.LawNames

/-! Which law a step is justified by that names one. The session finds a law of exactly that name,
but hands the name of its rule to the theory, which takes the first law that has become a rule of
this name. Laws whose names differ in case or white space only can so be taken for each other. -/

namespace Equational

/-- The first of the laws that has become a rule of the name in the theory. -/
def Theory.lawNamed? (θ : Theory) (problem : String) (laws : List Law) (ruleName : String) :
    Option Law :=
  laws.find? fun l => l.appliesTo θ.name && ((θ.read l.lhs).isOk && (θ.read l.rhs).isOk) &&
    l.ruleName problem == ruleName

namespace Theory

variable {θ : Theory} {problem name : String} {laws : List Law} {l : Law}

theorem lawNamed?_eq_some (h : θ.lawNamed? problem laws name = some l) :
    l ∈ laws ∧ l.ruleName problem = name := by
  have hfound := List.find?_some h
  rw [Bool.and_eq_true, beq_iff_eq] at hfound
  exact ⟨List.mem_of_find?_eq_some h, hfound.2⟩

theorem find?_lawSchemas (θ : Theory) (problem : String) (laws : List Law) (name : String) :
    ((θ.lawSchemas problem laws).map (·.rule)).find? (·.name == name) =
      (θ.lawNamed? problem laws name).map (·.rule problem) := by
  rw [lawSchemas, map_rule_readable, Signature.readableRules, List.find?_filter, List.find?_map,
    List.find?_filter, lawNamed?]
  congr 2
  funext l
  by_cases hl : l.ruleName problem = name <;> simp [Law.rule, read, Bool.and_assoc, hl]

end Theory

/-- In a theory none of whose listed rules has the name, a rule of that name is found among the laws
that the proof has brought along. -/
theorem Proof.WrittenIn.find?_available {π : Proof} {θ : Theory} (hw : π.WrittenIn θ)
    {laws : List Law} (hlaws : π.problem.customLaws = some laws) {name : String}
    (hlisted : ∀ r ∈ θ.listed, r.name ≠ name) :
    θ.available.find? (·.name == name) =
      (θ.lawNamed? π.problem.id laws name).map (·.rule π.problem.id) := by
  obtain ⟨laws', hlaws', hschemas⟩ := hw.schemas
  obtain rfl : laws' = laws := Option.some.inj (hlaws'.symm.trans hlaws)
  have hnone : ((Theory.readable θ.signature .theory θ.listed).map (·.rule)).find?
      (·.name == name) = none := by
    rw [Theory.map_rule_readable, List.find?_eq_none]
    intro r hr
    simpa using hlisted r (List.mem_filter.mp hr).1
  rw [Theory.available, hschemas, List.map_append, List.find?_append, hnone, Option.none_or,
    Theory.find?_lawSchemas]

/-- Laws with names are told apart by the texts of their rules. -/
theorem Law.name_eq_of_rule_eq {k l : Law} {problem : String} (hk : k.name ≠ "") (hl : l.name ≠ "")
    (h : k.rule problem = l.rule problem) : k.name = l.name := by
  have htext := congrArg Rule.text h
  rwa [rule, rule, if_neg (by simpa using hk), if_neg (by simpa using hl)] at htext

namespace Session

/-- The laws that the running proof has brought along are those that the session had then, and it
has only got more of them since. -/
def KeepsLaws (s : Session) : Prop :=
  ∀ π, s.proof = some π → ∃ laws later, π.problem.customLaws = some laws ∧ s.laws = laws ++ later

variable {s s' : Session} {c : Command} {o : Outcome}

theorem keepsLaws_fresh (L : Library) : (fresh L).KeepsLaws := by
  intro π hπ
  cases hπ

theorem keepsLaws_of_executes (h : s.KeepsLaws) (hc : s.Executes c o s') : s'.KeepsLaws := by
  intro π hπ
  cases hc with
  | theory hθ => cases hπ
  | @law l name hs =>
    obtain ⟨laws, later, hlaws, hs'⟩ := h π hπ
    refine ⟨laws, later ++ [l], hlaws, ?_⟩
    change s.laws ++ [l] = _
    rw [hs', List.append_assoc]
  | prove hs hθ =>
    obtain rfl := Option.some.inj hπ
    exact ⟨s.laws, [], rfl, (List.append_nil _).symm⟩
  | @step rule expression name θ ρ st hs hθ hρ hj =>
    obtain rfl := Option.some.inj hπ
    exact h ρ hρ

theorem keepsLaws_executeAll (h : s.KeepsLaws) (cs : List Command) :
    (s.executeAll cs).2.KeepsLaws :=
  (executeAll_induction (Q := fun _ => True) (fun _ _ _ _ hs hc => keepsLaws_of_executes hs hc)
    (fun _ _ _ _ => trivial) cs h).1

/-- A law is known by its name, and another of the same name gives the same rule name. -/
theorem ruleName_of_mem {k : Law} (hk : k ∈ s.laws) (p : Problem) :
    s.ruleName p k.name = k.ruleName p.id := by
  rw [ruleName]
  split
  · next l hl =>
    have hname := List.find?_some hl
    exact Law.ruleName_congr (beq_iff_eq.mp hname) p.id
  · next hnone =>
    exact absurd (List.find?_eq_none.mp hnone k hk) (by simp)

/-- The session turns the name of a law of the running proof into the name of its rule. -/
theorem KeepsLaws.ruleName_eq (h : s.KeepsLaws) {π : Proof} (hπ : s.proof = some π)
    {laws : List Law} (hlaws : π.problem.customLaws = some laws) {k : Law} (hk : k ∈ laws) :
    s.ruleName π.problem k.name = k.ruleName π.problem.id := by
  obtain ⟨laws', later, hlaws', happend⟩ := h π hπ
  obtain rfl : laws' = laws := Option.some.inj (hlaws'.symm.trans hlaws)
  apply ruleName_of_mem
  rw [happend]
  exact List.mem_append_left _ hk

/-- The rules that a theory of the session lists are those of a shipped one, and none of them has the
name of a law's rule. -/
theorem Sound.name_ne_ruleName {L : Library} (h : s.Sound L)
    (hL : Library.ofPresentations Library.shipped = .ok L) {name : String} {θ : Theory}
    (hθ : s.library.get? name = some θ) {r : Rule} (hr : r ∈ θ.listed) (l : Law)
    (problem : String) : r.name ≠ l.ruleName problem := by
  have hpres := h.presented name
  rw [hθ, Option.map_some] at hpres
  obtain ⟨θ₀, hget, hp₀⟩ := Option.map_eq_some_iff.mp hpres.symm
  obtain ⟨p, hp, hof⟩ := Library.exists_presentation_of_get? hL hget
  obtain ⟨σ, -, rfl⟩ := Theory.ofPresentation_eq_ok_iff.mp hof
  rw [← (Theory.presented_eq_iff.mp hp₀).2.2] at hr
  exact Library.name_ne_ruleName_of_shipped hp hr l problem

/-- In whatever way the session has got there with the shipped theories: a step that is accepted
under the name of a law of its problem is recorded with the rule of the first law that has become a
rule of the same rule name. This is a law of just the name that the step gives if no law of another
name has the same rule name, and, where all laws have names, only if the first one has it. -/
theorem rule_of_cited_law {L : Library} (hL : Library.ofPresentations Library.shipped = .ok L)
    (cs : List Command) {π : Proof} {laws : List Law} {k : Law} {expression : String}
    {st : ProofStep} (hπ : ((fresh L).executeAll cs).2.proof = some π)
    (hlaws : π.problem.customLaws = some laws) (hk : k ∈ laws)
    (hstep : (((fresh L).executeAll cs).2.execute (.step k.name expression)).1 =
      .ok (.stepAdded st)) :
    ∃ θ l, ((fresh L).executeAll cs).2.library.get? π.problem.theory = some θ ∧
      θ.lawNamed? π.problem.id laws (k.ruleName π.problem.id) = some l ∧
      st.rule = l.rule π.problem.id ∧
      ((∀ m ∈ laws, m.ruleName π.problem.id = k.ruleName π.problem.id → m.name = k.name) →
        l.name = k.name) ∧
      ((∀ m ∈ laws, m.name ≠ "") →
        ((∃ m ∈ laws, m.name = k.name ∧ st.rule = m.rule π.problem.id) ↔ l.name = k.name)) := by
  have hsound := (sound_executeAll (sound_fresh L) cs).1
  have hkeeps := keepsLaws_executeAll (keepsLaws_fresh L) cs
  generalize ((fresh L).executeAll cs).2 = s at *
  obtain ⟨hselected, θ, hθ, hw⟩ := hsound.running π hπ
  -- the theory is asked for the name made from that of the law, and none of its own rules has it
  have hname := hkeeps.ruleName_eq hπ hlaws hk
  have hlisted : ∀ r ∈ θ.listed, r.name ≠ k.ruleName π.problem.id :=
    fun r hr => hsound.name_ne_ruleName hL hθ hr k π.problem.id
  have hfound : (θ.lawNamed? π.problem.id laws (k.ruleName π.problem.id)).map
      (·.rule π.problem.id) = some st.rule := by
    obtain ⟨s', hs'⟩ : ∃ s', s.execute (.step k.name expression) = (.ok (.stepAdded st), s') :=
      ⟨_, Prod.ext hstep rfl⟩
    obtain ⟨name, θ', d, hs, hθ', hd, hrule⟩ := (executes_of_execute hs').exists_schema hπ
    obtain rfl : name = π.problem.theory := Option.some.inj (hs.symm.trans hselected)
    obtain rfl : θ' = θ := Option.some.inj (hθ'.symm.trans hθ)
    rw [← hw.find?_available hlaws hlisted, Theory.find?_available, ← hname, hd, Option.map_some,
      hrule]
  obtain ⟨l, hl, hrule⟩ := Option.map_eq_some_iff.mp hfound
  obtain ⟨hmem, hsame⟩ := Theory.lawNamed?_eq_some hl
  refine ⟨θ, l, hθ, hl, hrule.symm, fun hinj => hinj l hmem hsame, fun hnamed => ⟨?_, ?_⟩⟩
  · rintro ⟨m, hm, hmk, hmrule⟩
    rw [← hmk]
    exact Law.name_eq_of_rule_eq (hnamed l hmem) (hnamed m hm) (hrule.trans hmrule)
  · intro hlk
    exact ⟨l, hmem, hlk, hrule.symm⟩

/-- A step that names the first of two laws whose names become the same rule name. -/
theorem rule_of_cited_law_of_idempotence :
    let laws : List Law :=
      [⟨"Idempotence", none, "x ∪ x", "x", none⟩, ⟨"idempotence", none, "A ∪ A", "A", none⟩]
    let cs : List Command := .theory "set_theory" :: laws.map .law ++ [.prove "A ∪ A" "A"]
    ∃ L π st, Library.ofPresentations Library.shipped = .ok L ∧
      ((fresh L).executeAll cs).2.proof = some π ∧ π.problem.customLaws = some laws ∧
      (((fresh L).executeAll cs).2.execute (.step "Idempotence" "A")).1 = .ok (.stepAdded st) ∧
      (∀ m ∈ laws, m.name ≠ "") ∧
      ∃ θ l, ((fresh L).executeAll cs).2.library.get? π.problem.theory = some θ ∧
        θ.lawNamed? π.problem.id laws "custom_0.1_idempotence" = some l ∧
        l.name = "Idempotence" ∧ st.rule = l.rule π.problem.id := by
  intro laws cs
  obtain ⟨L, hL, hrun⟩ := Library.exists_shipped_of_any (f := fun L =>
      let s := ((fresh L).executeAll cs).2
      (s.proof.any fun π => π.problem.customLaws == some laws && π.problem.id == "0.1") &&
        (s.execute (.step "Idempotence" "A")).1.toOption ==
          some (.stepAdded ⟨"A", laws[0].rule "0.1"⟩)) (by decide +kernel)
  simp only [Bool.and_eq_true, beq_iff_eq, toOption_eq_some_iff, Option.any_eq_true] at hrun
  obtain ⟨⟨π, hπ, hlaws, hid⟩, hstep⟩ := hrun
  have hfirst : laws[0] ∈ laws := List.getElem_mem _
  have hnamed : ∀ m ∈ laws, m.name ≠ "" := by decide
  obtain ⟨θ, l, hθ, hl, hrule, -, hexact⟩ := rule_of_cited_law hL cs hπ hlaws hfirst hstep
  have hname : l.name = laws[0].name := by
    refine (hexact hnamed).mp ⟨laws[0], hfirst, rfl, ?_⟩
    rw [hid]
  have hruleName : laws[0].ruleName π.problem.id = "custom_0.1_idempotence" := by
    rw [hid]
    decide +kernel
  rw [hruleName] at hl
  exact ⟨L, π, _, hL, hπ, hlaws, hstep, hnamed, θ, l, hθ, hl, hname, hrule⟩

/-- A step that names the second of these laws is recorded with the equation of the first. -/
theorem cited_law_is_not_recorded :
    let laws : List Law :=
      [⟨"Idempotence", none, "x ∪ x", "x", none⟩, ⟨"idempotence", none, "A ∪ A", "A", none⟩]
    let cs : List Command := .theory "set_theory" :: laws.map .law ++ [.prove "A ∪ A" "A"]
    ∃ L π st, Library.ofPresentations Library.shipped = .ok L ∧
      ((fresh L).executeAll cs).2.proof = some π ∧ π.problem.customLaws = some laws ∧
      (∃ k ∈ laws, k.name = "idempotence") ∧
      (((fresh L).executeAll cs).2.execute (.step "idempotence" "A")).1 = .ok (.stepAdded st) ∧
      ¬ ∃ m ∈ laws, m.name = "idempotence" ∧ st.rule.text = (m.rule π.problem.id).text ∧
        st.rule.lhs = m.lhs ∧ st.rule.rhs = m.rhs := by
  intro laws cs
  obtain ⟨L, hL, hrun⟩ := Library.exists_shipped_of_any (f := fun L =>
      let s := ((fresh L).executeAll cs).2
      (s.proof.any fun π => π.problem.customLaws == some laws) &&
        (s.execute (.step "idempotence" "A")).1.toOption ==
          some (.stepAdded ⟨"A", laws[0].rule "0.1"⟩)) (by decide +kernel)
  simp only [Bool.and_eq_true, beq_iff_eq, toOption_eq_some_iff, Option.any_eq_true] at hrun
  obtain ⟨⟨π, hπ, hlaws⟩, hstep⟩ := hrun
  refine ⟨L, π, _, hL, hπ, hlaws, ⟨laws[1], by simp [laws], rfl⟩, hstep, ?_⟩
  rintro ⟨m, hm, hname, -, hlhs, -⟩
  simp only [laws, List.mem_cons, List.not_mem_nil, or_false] at hm
  rcases hm with rfl | rfl
  · exact absurd hname (by decide)
  · exact absurd hlhs (by decide)

end Session

end Equational
