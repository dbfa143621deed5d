import Equational.Theory.Basic

/-!
A theory whose schemas are kept in a cache. A switch between problems first leaves the cache in a
state that may have to be compiled and then compiles it. The laws of the active problem are looked
up by its id at that time.
-/

namespace Equational

inductive RuleCache where
  | uncompiled (problem : Option String)
  | compiled (problem : Option String) (schemas : List Schema)

namespace RuleCache

def problem : RuleCache → Option String
  | uncompiled problem => problem
  | compiled problem _ => problem

def schemas : RuleCache → List Schema
  | uncompiled _ => []
  | compiled _ ds => ds

/-- Forgets all schemas. The next compilation includes the laws of the problem. -/
def loadProblem (problem : String) (_ : RuleCache) : RuleCache := uncompiled (some problem)

/-- Leaves no problem active and takes the laws out of what is compiled. -/
def clearProblem : RuleCache → RuleCache
  | uncompiled _ => uncompiled none
  | compiled _ ds => compiled none (ds.filter (!·.isCustom))

/-- Compiles the listed rules and behind them the laws stored for the active problem. Rules that
cannot be read are left out, and what is compiled already stays as it is. -/
def compile (σ : Signature) (theory : String) (listed : List Rule)
    (stored : SortedMap String (List Law)) : RuleCache → RuleCache
  | compiled problem ds => compiled problem ds
  | uncompiled none => compiled none (Theory.readable σ .theory listed)
  | uncompiled (some problem) =>
    let laws := (stored.get? problem).getD []
    compiled (some problem) (Theory.readable σ .theory listed ++ laws.filterMap fun l =>
      if l.appliesTo theory then ((l.rule problem).schema σ (.problem problem)).toOption else none)

end RuleCache

structure CachedTheory where
  info : TheoryInfo
  signature : Signature
  listed : List Rule
  stored : SortedMap String (List Law)
  cache : RuleCache

namespace CachedTheory

def compile (κ : CachedTheory) : CachedTheory :=
  { κ with cache := κ.cache.compile κ.signature κ.info.name κ.listed κ.stored }

def ofPresentation (p : Presentation) : Except SignatureError CachedTheory := do
  let σ ← Signature.ofSymbols p.symbols p.equality
  return compile ⟨p.info, σ, p.rules, ∅, .uncompiled none⟩

def load (κ : CachedTheory) (problem : String) (laws : List Law) : CachedTheory :=
  compile { κ with
    stored := κ.stored.insert problem laws
    cache := κ.cache.loadProblem problem }

def clear (κ : CachedTheory) : CachedTheory := compile { κ with cache := κ.cache.clearProblem }

def start (κ : CachedTheory) (p : Problem) : CachedTheory :=
  match p.customLaws with
  | some laws => κ.clear.load p.id laws
  | none => κ.clear

end CachedTheory

/-- The theory with its active problem and its schemas in a cache. -/
def Theory.cached (θ : Theory) : CachedTheory :=
  ⟨θ.info, θ.signature, θ.listed, θ.stored, .compiled θ.active θ.schemas⟩

end Equational
