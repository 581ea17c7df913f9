import Kestrel.Module.Graph
import Mathlib.Data.List.Perm.Subperm
import Mathlib.Logic.Relation

/-!
# Chains of imports

The search among the importers of a module finds exactly those modules from which a chain of noted
imports leads to it. So an import is noted only if its target has no chain to the importer.
-/

namespace Kestrel

namespace ImportGraph

/-- One noted import. -/
def Imports (graph : ImportGraph) (importer target : String) : Prop :=
  (target, importer) ∈ graph.edges

variable {graph : ImportGraph} {candidate : String}

/-- The direct importers of a module are those with a noted import of it. -/
theorem mem_importers_iff {importer target : String} :
    importer ∈ graph.importers target ↔ graph.Imports importer target := by
  simp [importers, Imports]

/-- A list without its repetitions has none. -/
theorem nodup_eraseDups (modules : List String) : modules.eraseDups.Nodup := by
  induction hlength : modules.length using Nat.strongRecOn generalizing modules with
  | _ length ih =>
    cases modules with
    | nil => simp
    | cons first others =>
      rw [List.eraseDups_cons, List.nodup_cons]
      refine ⟨by simp, ih _ ?_ _ rfl⟩
      rw [← hlength, List.length_cons]
      exact Nat.lt_succ_of_le (List.length_filter_le _ others)

/-- What the search finds has a chain of imports to a module in the queue. -/
theorem transGen_of_search {rounds : Nat} {visited queue : List String}
    (hfound : graph.search candidate rounds visited queue = true) :
    ∃ module ∈ queue, Relation.TransGen graph.Imports candidate module := by
  induction rounds generalizing visited queue with
  | zero => simp [search] at hfound
  | succ rounds ih =>
    cases queue with
    | nil => simp [search] at hfound
    | cons module queue =>
      rw [search] at hfound
      split_ifs at hfound with hdirect
      · exact ⟨module, by simp, .single (mem_importers_iff.mp hdirect)⟩
      · obtain ⟨other, hother, hchain⟩ := ih hfound
        rcases List.mem_append.mp hother with hother | hother
        · exact ⟨other, by simp [hother], hchain⟩
        · rw [List.mem_eraseDups] at hother
          have himports := mem_importers_iff.mp (List.mem_filter.mp hother).1
          exact ⟨module, by simp, hchain.tail himports⟩

/-- If the search finds nothing, it went through all modules with a chain to where it started: a
list of modules that holds the importers of its own and of the start, and not the candidate. The
rounds suffice because each module enters the queue once, after the start. -/
theorem exists_closed_of_not_search {rounds : Nat} {visited queue : List String} {start : String}
    (hnodup : visited.Nodup) (hvisited : visited ⊆ graph.edges.map Prod.snd)
    (hrounds : graph.edges.length + queue.length ≤ rounds + visited.length)
    (hdone : ∀ module, module = start ∨ module ∈ visited →
      module ∈ queue ∨ ∀ importer ∈ graph.importers module,
        importer ≠ candidate ∧ importer ∈ visited)
    (hnone : graph.search candidate rounds visited queue = false) :
    ∃ closed : List String, ∀ module, module = start ∨ module ∈ closed →
      ∀ importer ∈ graph.importers module, importer ≠ candidate ∧ importer ∈ closed := by
  induction rounds generalizing visited queue with
  | zero =>
    have hbound : visited.length ≤ graph.edges.length := by
      simpa using (List.subperm_of_subset hnodup hvisited).length_le
    have hqueue : queue = [] := List.length_eq_zero_iff.mp (by omega)
    exact ⟨visited, fun module hmodule => (hdone module hmodule).resolve_left (by simp [hqueue])⟩
  | succ rounds ih =>
    cases queue with
    | nil => exact ⟨visited, fun module hmodule => (hdone module hmodule).resolve_left (by simp)⟩
    | cons first queue =>
      rw [search] at hnone
      split_ifs at hnone with hdirect
      let fresh := ((graph.importers first).filter fun importer => importer ∉ visited).eraseDups
      have hfresh {importer : String} :
          importer ∈ fresh ↔ importer ∈ graph.importers first ∧ importer ∉ visited := by
        simp [fresh]
      refine @ih (visited ++ fresh) (queue ++ fresh) ?_ ?_ ?_ ?_ hnone
      · refine List.nodup_append.mpr ⟨hnodup, nodup_eraseDups _, ?_⟩
        rintro a ha b hb rfl
        exact (hfresh.mp hb).2 ha
      · intro importer himporter
        rcases List.mem_append.mp himporter with himporter | himporter
        · exact hvisited himporter
        · have himports := mem_importers_iff.mp (hfresh.mp himporter).1
          exact List.mem_map.mpr ⟨_, himports, rfl⟩
      · simp only [List.length_append, List.length_cons] at hrounds ⊢
        omega
      · intro module hmodule
        -- A module was there before, and then it is done, waits or is the first one; or it is new.
        have hcases : (module = start ∨ module ∈ visited) ∨ module ∈ fresh := by
          rw [List.mem_append] at hmodule
          tauto
        rcases hcases with hknown | hnew
        · rcases hdone module hknown with hwaiting | hclosed
          · rcases List.mem_cons.mp hwaiting with rfl | hwaiting
            · right
              intro importer himporter
              refine ⟨fun heq => hdirect (heq ▸ himporter), List.mem_append.mpr ?_⟩
              by_cases hmem : importer ∈ visited
              · exact .inl hmem
              · exact .inr (hfresh.mpr ⟨himporter, hmem⟩)
            · exact .inl (List.mem_append_left _ hwaiting)
          · right
            intro importer himporter
            obtain ⟨hne, hmem⟩ := hclosed importer himporter
            exact ⟨hne, List.mem_append_left _ hmem⟩
        · exact .inl (List.mem_append_right _ hnew)

/-- A module counts as a transitive importer of another one exactly if a chain of noted imports
leads from it to the other one. -/
theorem isTransitiveImporter_iff {module : String} :
    graph.isTransitiveImporter candidate module = true ↔
      Relation.TransGen graph.Imports candidate module := by
  constructor
  · intro hfound
    obtain ⟨other, hother, hchain⟩ := transGen_of_search hfound
    rwa [List.mem_singleton.mp hother] at hchain
  · intro hchain
    by_contra hnone
    obtain ⟨closed, hclosed⟩ := @exists_closed_of_not_search graph candidate _ [] [module]
      module List.nodup_nil (List.nil_subset _) (by simp) (by simp) (Bool.eq_false_iff.mpr hnone)
    -- Walking the chain back from its end, every importer is in the list and none is the candidate.
    have hstart : ∀ importer, Relation.TransGen graph.Imports importer module →
        importer ≠ candidate ∧ importer ∈ closed := by
      intro importer hchain
      induction hchain using Relation.TransGen.head_induction_on with
      | single himports => exact hclosed module (.inl rfl) _ (mem_importers_iff.mpr himports)
      | head himports _ ih => exact hclosed _ (.inr ih.2) _ (mem_importers_iff.mpr himports)
    exact (hstart candidate hchain).1 rfl

/-- The graph with one more import. -/
def withImport (graph : ImportGraph) (target importer : String) : ImportGraph :=
  ⟨graph.edges ++ [(target, importer)]⟩

/-- One more import adds one edge. -/
theorem imports_withImport {target importer a b : String} :
    (graph.withImport target importer).Imports a b ↔
      graph.Imports a b ∨ (a = importer ∧ b = target) := by
  simp [withImport, Imports, and_comm]

/-- An import is refused exactly if a chain of imports leads from its target to its importer, and
else it is noted: it is an edge from then on, and all others are as before. -/
theorem record_eq (graph : ImportGraph) (target importer : String) :
    (Relation.ReflTransGen graph.Imports target importer ∧
      graph.record target importer = .error (.circularImport target importer)) ∨
    (¬ Relation.ReflTransGen graph.Imports target importer ∧
      ∃ after, graph.record target importer = .ok after ∧
        ∀ a b, after.Imports a b ↔ (graph.withImport target importer).Imports a b) := by
  have hrefused : (target = importer ∨ graph.isTransitiveImporter target importer = true) ↔
      Relation.ReflTransGen graph.Imports target importer := by
    rw [isTransitiveImporter_iff, Relation.reflTransGen_iff_eq_or_transGen, eq_comm]
  unfold record
  by_cases hcircular : target = importer ∨ graph.isTransitiveImporter target importer = true
  · exact .inl ⟨hrefused.mp hcircular, if_pos hcircular⟩
  · refine .inr ⟨mt hrefused.mpr hcircular, ?_⟩
    rw [if_neg hcircular]
    by_cases hknown : (target, importer) ∈ graph.edges
    · refine ⟨graph, if_pos hknown, fun a b => ?_⟩
      rw [imports_withImport]
      refine ⟨.inl, fun h => h.elim id ?_⟩
      rintro ⟨rfl, rfl⟩
      exact hknown
    · exact ⟨_, if_neg hknown, fun a b => Iff.rfl⟩

/-- An import that is noted is an edge from then on, no edge is lost, and before it no chain of
imports led from its target to the importer. -/
theorem record_eq_ok {target importer : String} {after : ImportGraph}
    (hrecord : graph.record target importer = .ok after) :
    ¬ Relation.ReflTransGen graph.Imports target importer ∧ after.Imports importer target ∧
      graph.edges ⊆ after.edges := by
  rcases graph.record_eq target importer with ⟨_, hrefused⟩ | ⟨hnone, after', hnoted, hedges⟩
  · rw [hrecord] at hrefused
    contradiction
  · obtain rfl : after = after' := Except.ok.inj (hrecord.symm.trans hnoted)
    refine ⟨hnone, (hedges _ _).mpr (imports_withImport.mpr (.inr ⟨rfl, rfl⟩)), ?_⟩
    exact fun (b, a) hedge => (hedges a b).mpr (imports_withImport.mpr (.inl hedge))

end ImportGraph

end Kestrel
