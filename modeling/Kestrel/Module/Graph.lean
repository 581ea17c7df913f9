import Kestrel.Fault.Cause

/-!
# Who imported whom

Every import is noted as an edge from the importing module to the imported one. An import that
would close a cycle is refused, so the graph never has one.
-/

namespace Kestrel

/-- The noted imports: each pair holds an imported module and a module that imported it. -/
structure ImportGraph where
  edges : List (String × String)
  deriving DecidableEq, Repr, Inhabited

namespace ImportGraph

/-- No imports. -/
def empty : ImportGraph := ⟨[]⟩

/-- The modules that imported a module directly. -/
def importers (graph : ImportGraph) (module : String) : List String :=
  (graph.edges.filter fun edge => edge.1 = module).map Prod.snd

/-- Looks for a module among the importers of the modules in the queue and among theirs in turn,
passing over those that were visited. Each round takes one module from the queue. -/
def search (graph : ImportGraph) (candidate : String) :
    Nat → (visited queue : List String) → Bool
  | 0, _, _ => false
  | _ + 1, _, [] => false
  | rounds + 1, visited, module :: queue =>
    let direct := graph.importers module
    if candidate ∈ direct then true
    else
      let fresh := (direct.filter fun importer => importer ∉ visited).eraseDups
      graph.search candidate rounds (visited ++ fresh) (queue ++ fresh)

/-- Whether a module imported another one, directly or through others. Every module enters the
queue at most once, so one round for each edge and one for the start suffice. -/
def isTransitiveImporter (graph : ImportGraph) (candidate module : String) : Bool :=
  graph.search candidate (graph.edges.length + 1) [] [module]

/-- Notes that `importer` imports `target`, unless that would close a cycle. -/
def record (graph : ImportGraph) (target importer : String) : Except Cause ImportGraph :=
  if target = importer ∨ graph.isTransitiveImporter target importer then
    .error (.circularImport target importer)
  else if (target, importer) ∈ graph.edges then .ok graph
  else .ok ⟨graph.edges ++ [(target, importer)]⟩

/-- The modules that imported a module directly, sorted. -/
def importersOf (graph : ImportGraph) (module : String) : List String :=
  (graph.importers module).mergeSort fun a b => a ≤ b

end ImportGraph

end Kestrel
