import Kestrel.Eval.Statement
import Kestrel.Proofs.Module.Graph

/-!
# The imports noted so far

Modules note their imports one after the other, and a refused import is not noted. The graph that
they make has no cycle at any time: an import is refused exactly if it would close one.
-/

namespace Kestrel

namespace ImportGraph

open Relation (ReflTransGen TransGen)

/-- No module imports itself, directly or through others. -/
def Acyclic (graph : ImportGraph) : Prop := ∀ module, ¬ TransGen graph.Imports module module

/-- The graph after a call that notes an import: a refused one leaves it as it is. -/
def afterCall (graph : ImportGraph) (target importer : String) : ImportGraph :=
  match graph.record target importer with
  | .ok after => after
  | .error _ => graph

/-- The graph after calls in order, each with its target and its importer. -/
def afterCalls (calls : List (String × String)) : ImportGraph :=
  calls.foldl (fun graph (target, importer) => graph.afterCall target importer) .empty

variable {graph : ImportGraph} {target importer : String}

/-- Without imports there is no cycle. -/
theorem acyclic_empty : empty.Acyclic := by
  intro module hcycle
  obtain ⟨_, himports, _⟩ := TransGen.head'_iff.mp hcycle
  exact absurd himports (by simp [Imports, empty])

/-- A chain of imports in a graph with one more import goes on in the graph without it, or passes
the new import. -/
theorem transGen_withImport {a b : String}
    (hchain : TransGen (graph.withImport target importer).Imports a b) :
    TransGen graph.Imports a b ∨
      (ReflTransGen graph.Imports a importer ∧ ReflTransGen graph.Imports target b) := by
  induction hchain with
  | single hstep =>
    rcases imports_withImport.mp hstep with hold | ⟨rfl, rfl⟩
    · exact .inl (.single hold)
    · exact .inr ⟨.refl, .refl⟩
  | tail _ hstep ih =>
    rcases imports_withImport.mp hstep with hold | ⟨rfl, rfl⟩
    · exact ih.imp (·.tail hold) (And.imp_right (·.tail hold))
    · exact .inr ⟨ih.elim TransGen.to_reflTransGen And.left, .refl⟩

/-- One more import keeps a graph without cycles so exactly if no chain of imports leads from its
target to its importer. -/
theorem acyclic_withImport_iff (hacyclic : graph.Acyclic) :
    (graph.withImport target importer).Acyclic ↔ ¬ ReflTransGen graph.Imports target importer := by
  constructor
  · intro hnone hchain
    have hchain : ReflTransGen (graph.withImport target importer).Imports target importer :=
      hchain.lift id fun _ _ h => imports_withImport.mpr (.inl h)
    exact hnone target (.tail' hchain (imports_withImport.mpr (.inr ⟨rfl, rfl⟩)))
  · intro hnone module hcycle
    rcases transGen_withImport hcycle with hold | ⟨hfront, hback⟩
    · exact hacyclic module hold
    · exact hnone (hback.trans hfront)

/-- Noting an import keeps a graph without cycles so. -/
theorem acyclic_afterCall (hacyclic : graph.Acyclic) (target importer : String) :
    (graph.afterCall target importer).Acyclic := by
  rcases graph.record_eq target importer with ⟨_, hrecord⟩ | ⟨hnone, after, hrecord, hafter⟩
  · simpa only [afterCall, hrecord] using hacyclic
  · have himports : after.Imports = (graph.withImport target importer).Imports := by
      funext a b
      exact propext (hafter a b)
    simp only [afterCall, hrecord, Acyclic, himports]
    exact (acyclic_withImport_iff hacyclic).mpr hnone

/-- Calls one after the other leave a graph without cycles. -/
theorem acyclic_afterCalls (calls : List (String × String)) : (afterCalls calls).Acyclic := by
  refine List.foldlRecOn calls _ acyclic_empty ?_
  exact fun _ hacyclic call _ => acyclic_afterCall hacyclic call.1 call.2

end ImportGraph

/-- A program whose import is refused goes on in the state that it was in. -/
theorem recordImport_refused {scope : Scope} {target : String} {state : State} {cause : Cause}
    (hrefused : (state.store.get scope.imports).record target scope.module = .error cause) :
    recordImport scope target state = .interrupted (.error (.ofCause cause)) state := by
  simp only [recordImport, Eval.viewOrFail, bind, Eval.bind, hrefused]

/-- However imports were noted and refused before, there is no cycle, the search finds exactly the
chains of imports, and one more import is either noted, and then it is the only edge that is new
and closes no cycle, or is refused as circular, and then it would close one and nothing changes. -/
theorem imports_noted_without_cycles (calls : List (String × String)) :
    (ImportGraph.afterCalls calls).Acyclic ∧
    (∀ candidate module,
      (ImportGraph.afterCalls calls).isTransitiveImporter candidate module = true ↔
        Relation.TransGen (ImportGraph.afterCalls calls).Imports candidate module) ∧
    ∀ target importer,
      match (ImportGraph.afterCalls calls).record target importer with
      | .ok after =>
        ((ImportGraph.afterCalls calls).withImport target importer).Acyclic ∧
        (∀ a b, after.Imports a b ↔
          (ImportGraph.afterCalls calls).Imports a b ∨ (a = importer ∧ b = target)) ∧
        ImportGraph.afterCalls (calls ++ [(target, importer)]) = after
      | .error cause =>
        cause = .circularImport target importer ∧
        ¬ ((ImportGraph.afterCalls calls).withImport target importer).Acyclic ∧
        ImportGraph.afterCalls (calls ++ [(target, importer)]) = ImportGraph.afterCalls calls ∧
        ∀ (scope : Scope) (state : State), scope.module = importer →
          state.store.get scope.imports = ImportGraph.afterCalls calls →
          recordImport scope target state = .interrupted (.error (.ofCause cause)) state := by
  have hacyclic := ImportGraph.acyclic_afterCalls calls
  refine ⟨hacyclic, fun _ _ => ImportGraph.isTransitiveImporter_iff, fun target importer => ?_⟩
  have hafter : ImportGraph.afterCalls (calls ++ [(target, importer)]) =
      (ImportGraph.afterCalls calls).afterCall target importer := by
    simp [ImportGraph.afterCalls]
  generalize ImportGraph.afterCalls calls = graph at hacyclic hafter
  have hcycle : (graph.withImport target importer).Acyclic ↔ _ :=
    ImportGraph.acyclic_withImport_iff hacyclic
  rcases graph.record_eq target importer with ⟨hchain, hrecord⟩ | ⟨hnone, after, hrecord, hedges⟩
  · have hrefused (scope : Scope) (state : State) (hmodule : scope.module = importer)
        (hgraph : state.store.get scope.imports = graph) :
        recordImport scope target state =
          .interrupted (.error (.ofCause (.circularImport target importer))) state :=
      recordImport_refused (by rw [hgraph, hmodule, hrecord])
    simp only [hrecord, hafter, ImportGraph.afterCall, hcycle]
    exact ⟨trivial, not_not_intro hchain, trivial, hrefused⟩
  · simp only [hrecord, hafter, ImportGraph.afterCall, hcycle]
    exact ⟨hnone, fun a b => (hedges a b).trans ImportGraph.imports_withImport, trivial⟩

end Kestrel
