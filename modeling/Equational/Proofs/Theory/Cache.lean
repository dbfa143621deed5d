import Equational.Proofs.Theory.History
import Equational.Theory.Cache

namespace Equational

namespace CachedTheory

def switch (κ : CachedTheory) : Theory.Switch → CachedTheory
  | .load problem laws => κ.load problem laws
  | .clear => κ.clear
  | .start p => κ.start p

def switchAll (κ : CachedTheory) (ss : List Theory.Switch) : CachedTheory := ss.foldl switch κ

end CachedTheory

namespace Theory

/-- The laws of a problem can be read one after another. -/
theorem lawSchemas_eq_filterMap (θ : Theory) (problem : String) (laws : List Law) :
    θ.lawSchemas problem laws = laws.filterMap fun l =>
      if l.appliesTo θ.name then
        ((l.rule problem).schema θ.signature (.problem problem)).toOption
      else none := by
  rw [lawSchemas, readable, List.filterMap_map, List.filterMap_filter]
  rfl

theorem cached_load (θ : Theory) (problem : String) (laws : List Law) :
    (θ.load problem laws).cached = θ.cached.load problem laws := by
  simp only [cached, load, CachedTheory.load, CachedTheory.compile, RuleCache.loadProblem,
    RuleCache.compile, SortedMap.get?_insert_self, Option.getD_some, lawSchemas_eq_filterMap]
  rfl

theorem cached_clear (θ : Theory) : θ.clear.cached = θ.cached.clear := rfl

theorem cached_switch (θ : Theory) (s : Switch) : (θ.switch s).cached = θ.cached.switch s := by
  cases s with
  | load problem laws => exact cached_load θ problem laws
  | clear => exact cached_clear θ
  | start p =>
    rw [switch, start, CachedTheory.switch, CachedTheory.start]
    cases p.customLaws with
    | none => exact cached_clear θ
    | some laws => rw [cached_load, cached_clear]

theorem cached_switchAll (θ : Theory) (ss : List Switch) :
    (θ.switchAll ss).cached = θ.cached.switchAll ss :=
  (List.foldl_hom cached fun θ s => (cached_switch θ s).symm).symm

/-- A theory with a cache is at any time the one without, and its cache is compiled. -/
theorem switchAll_ofPresentation_cached (p : Presentation) (ss : List Switch) :
    (CachedTheory.ofPresentation p).map (·.switchAll ss) =
      (ofPresentation p).map fun θ => (θ.switchAll ss).cached := by
  rw [ofPresentation, CachedTheory.ofPresentation]
  cases Signature.ofSymbols p.symbols p.equality with
  | error e => rfl
  | ok σ =>
    have h := cached_switchAll ⟨p.info, σ, p.rules, ∅, none, readable σ .theory p.rules⟩ ss
    exact congrArg Except.ok h.symm

end Theory

end Equational
