import Kestrel.Proofs.Discipline.Statement
import Kestrel.Proofs.Module.Graph

/-!
# The realm of a module

A module that is run begins with a scope of its own and is told nothing about the cells that are
there. So its program, and all that it calls and imports, goes on to nothing but cells that were
made since: these mention only each other, and all older cells stay as they are. The one exception
is the cell that notes imports, which all modules of a run share and which no program can read.
There, a chain of imports leads from the module to every module whose code its program can come to.
-/

namespace Kestrel

open Relation (ReflTransGen)

/-- Where a module begins: the numbers of cells that are older, the cell that notes imports and,
where chains of imports are followed, the key of the module. -/
structure Realm where
  floor : CellKind → Nat
  tracker : Ref .imports
  home? : Option String

namespace Realm

variable (R : Realm)

/-- The program of the module may come to the cells that were made since and to the modules that a
chain of imports leads to. -/
def Admits (store : Store) : Mention → Prop
  | @Mention.cell kind ref =>
    (kind = .imports → ref.index = R.tracker.index) ∧
      (kind ≠ .imports → R.floor kind ≤ ref.index ∧ ref.index < store.size kind)
  | .module key => ∀ home, R.home? = some home → ReflTransGen (store.get R.tracker).Imports home key

/-- The cells that were made since mention nothing else. -/
structure Closed (store : Store) : Prop where
  floor_le (kind : CellKind) : R.floor kind ≤ store.size kind
  admits {kind : CellKind} {ref : Ref kind} {mention : Mention} :
    R.floor kind ≤ ref.index → ref.index < store.size kind →
      mention ∈ kind.mentions (store.get ref) → R.Admits store mention
  tracked : R.home?.isSome → R.tracker.index < store.size .imports

/-- Older cells stay as they are, and no cell and no noted import is lost. -/
structure Keeps (before after : Store) : Prop where
  size_le (kind : CellKind) : before.size kind ≤ after.size kind
  get_eq {kind : CellKind} {ref : Ref kind} :
    ref.index < R.floor kind → (kind = .imports → ref.index ≠ R.tracker.index) →
      after.get ref = before.get ref
  edges : (before.get R.tracker).edges ⊆ (after.get R.tracker).edges

variable {R} {store before after : Store} {kind : CellKind}

/-- A reference that the program may come to, but for noted imports. -/
theorem admits_cell (hkind : kind ≠ .imports) {ref : Ref kind} :
    R.Admits store (.cell ref) ↔ R.floor kind ≤ ref.index ∧ ref.index < store.size kind := by
  simp [Admits, hkind]

/-- The cell that notes imports. -/
theorem admits_imports {ref : Ref .imports} : R.Admits store (.cell ref) ↔ ref = R.tracker := by
  simp only [Admits, ne_eq, not_true_eq_false, false_implies, and_true, true_implies]
  exact ⟨Ref.eq_of_index_eq, congrArg Ref.index⟩

namespace Keeps

/-- Everything can stay as it is. -/
theorem refl (store : Store) : R.Keeps store store :=
  ⟨fun _ => Nat.le_refl _, fun _ _ => rfl, List.Subset.refl _⟩

/-- What stays twice stays. -/
theorem trans {middle : Store} (hfirst : R.Keeps before middle) (hsecond : R.Keeps middle after) :
    R.Keeps before after where
  size_le kind := Nat.le_trans (hfirst.size_le kind) (hsecond.size_le kind)
  get_eq hlt htracker := (hsecond.get_eq hlt htracker).trans (hfirst.get_eq hlt htracker)
  edges := List.Subset.trans hfirst.edges hsecond.edges

/-- Chains of imports stay. -/
theorem chain (hkeeps : R.Keeps before after) {home key : String}
    (hchain : ReflTransGen (before.get R.tracker).Imports home key) :
    ReflTransGen (after.get R.tracker).Imports home key :=
  hchain.lift id fun _ _ himports => hkeeps.edges himports

/-- What the program may come to it may come to from then on. -/
theorem admits (hkeeps : R.Keeps before after) {mention : Mention}
    (hadmits : R.Admits before mention) : R.Admits after mention := by
  cases mention with
  | @cell kind ref =>
    refine ⟨hadmits.1, fun hkind => ?_⟩
    obtain ⟨hfloor, hlt⟩ := hadmits.2 hkind
    exact ⟨hfloor, Nat.lt_of_lt_of_le hlt (hkeeps.size_le kind)⟩
  | module key => exact fun home hhome => hkeeps.chain (hadmits home hhome)

end Keeps

/-- What the cells mention that the program may come to. -/
theorem Closed.admits_held (hclosed : R.Closed store) {ref : Ref kind} {mention : Mention}
    (href : R.Admits store (.cell ref)) (hmention : mention ∈ kind.mentions (store.get ref)) :
    R.Admits store mention := by
  by_cases hkind : kind = .imports
  · subst hkind
    cases hmention
  · obtain ⟨hfloor, hlt⟩ := (admits_cell hkind).mp href
    exact hclosed.admits hfloor hlt hmention

section Add

variable {content : kind.Content}

/-- A new cell leaves the others as they are. -/
theorem keeps_add (hclosed : R.Closed store) (hkind : kind ≠ .imports) :
    R.Keeps store (store.add kind content) where
  size_le other := store.size_le_size_add kind other content
  get_eq hlt _ := Store.get_add_of_lt (Nat.lt_of_lt_of_le hlt (hclosed.floor_le _)) content
  edges := by
    rw [Store.get_add_of_ne hkind.symm]
    exact List.Subset.refl _

/-- A new cell may mention what the program may come to. -/
theorem Closed.add (hclosed : R.Closed store) (hkind : kind ≠ .imports)
    (hcontent : ∀ mention ∈ kind.mentions content, R.Admits store mention) :
    R.Closed (store.add kind content) := by
  have hkeeps : R.Keeps store (store.add kind content) := keeps_add hclosed hkind
  refine ⟨fun other => Nat.le_trans (hclosed.floor_le other) (hkeeps.size_le other), ?_, ?_⟩
  · intro other ref mention hfloor hlt hmention
    refine Store.forall_get_add (motive := fun other ref held => R.floor other ≤ ref.index →
      ∀ mention ∈ other.mentions held, R.Admits (store.add kind content) mention) ?_ ?_ hlt hfloor
        mention hmention
    · exact fun ref hthere hfloor mention hmention =>
        hkeeps.admits (hclosed.admits hfloor hthere hmention)
    · exact fun _ mention hmention => hkeeps.admits (hcontent mention hmention)
  · intro hhome
    exact Nat.lt_of_lt_of_le (hclosed.tracked hhome) (hkeeps.size_le .imports)

end Add

section Modify

variable {ref : Ref kind} {f : kind.Content → kind.Content}

/-- A change of a cell that was made since leaves the older ones as they are. -/
theorem keeps_modify (hkind : kind ≠ .imports) (hfloor : R.floor kind ≤ ref.index) :
    R.Keeps store (store.modify ref f) where
  size_le other := Nat.le_of_eq (store.size_modify ref f other).symm
  get_eq {other left} hlt _ := by
    refine Store.get_modify_of_ne (fun heq => ?_) f
    subst heq
    omega
  edges := by
    rw [Store.get_modify_of_ne fun heq => absurd heq.symm hkind]
    exact List.Subset.refl _

/-- A changed cell may mention what the program may come to. -/
theorem Closed.modify (hclosed : R.Closed store) (hkind : kind ≠ .imports)
    (href : R.Admits store (.cell ref))
    (hcontent : ∀ mention ∈ kind.mentions (f (store.get ref)), R.Admits store mention) :
    R.Closed (store.modify ref f) := by
  obtain ⟨hrefFloor, -⟩ := (admits_cell hkind).mp href
  have hkeeps : R.Keeps store (store.modify ref f) := keeps_modify hkind hrefFloor
  refine ⟨fun other => ?_, ?_, ?_⟩
  · rw [store.size_modify]
    exact hclosed.floor_le other
  · intro other left mention hfloor hlt hmention
    refine Store.forall_get_modify (motive := fun other left held => R.floor other ≤ left.index →
      ∀ mention ∈ other.mentions held, R.Admits (store.modify ref f) mention) ?_ ?_ hlt hfloor
        mention hmention
    · exact fun left hthere hfloor mention hmention =>
        hkeeps.admits (hclosed.admits hfloor hthere hmention)
    · exact fun _ _ mention hmention => hkeeps.admits (hcontent mention hmention)
  · rw [store.size_modify]
    exact hclosed.tracked

end Modify

section Record

variable {target importer : String} {graph : ImportGraph}

/-- A noted import adds to what was noted, and leaves all else as it is. -/
theorem keeps_record (hrecord : (store.get R.tracker).record target importer = .ok graph) :
    R.Keeps store (store.modify R.tracker fun _ => graph) where
  size_le other := Nat.le_of_eq (store.size_modify R.tracker _ other).symm
  get_eq _ htracker := Store.get_modify_of_ne htracker _
  edges := by
    rcases Nat.lt_or_ge R.tracker.index (store.size .imports) with hlt | hge
    · rw [Store.get_modify_self hlt]
      exact (ImportGraph.record_eq_ok hrecord).2.2
    · rw [Store.get_modify_of_size_le hge]
      exact List.Subset.refl _

/-- After an import was noted, the cells that were made since mention nothing new. -/
theorem Closed.record (hclosed : R.Closed store)
    (hrecord : (store.get R.tracker).record target importer = .ok graph) :
    R.Closed (store.modify R.tracker fun _ => graph) := by
  refine ⟨fun other => ?_, ?_, ?_⟩
  · rw [store.size_modify]
    exact hclosed.floor_le other
  · intro other left mention hfloor hlt hmention
    rw [store.size_modify] at hlt
    by_cases hother : other = .imports
    · subst hother
      cases hmention
    · rw [Store.get_modify_of_ne fun heq => absurd heq hother] at hmention
      exact (keeps_record hrecord).admits (hclosed.admits hfloor hlt hmention)
  · rw [store.size_modify]
    exact hclosed.tracked

/-- A chain of imports to the importer leads on to the target of a noted import. -/
theorem admits_target (hclosed : R.Closed store) (himporter : R.Admits store (.module importer))
    (hrecord : (store.get R.tracker).record target importer = .ok graph) :
    R.Admits (store.modify R.tracker fun _ => graph) (.module target) := by
  intro home hhome
  have htracked := hclosed.tracked (by rw [hhome]; rfl)
  refine ((keeps_record hrecord).chain (himporter home hhome)).tail ?_
  rw [Store.get_modify_self htracked]
  exact (ImportGraph.record_eq_ok hrecord).2.1

end Record

/-- The discipline that the program of a module obeys. -/
def discipline (R : Realm) : Discipline where
  holds := R.Closed
  admits := R.Admits
  binds _ _ := True
  allows := R.Keeps
  allows_refl := .refl
  allows_trans := .trans
  admits_later hkeeps hadmits := hkeeps.admits hadmits
  admits_held hclosed href hmention := hclosed.admits_held href hmention
  add {store kind content} hclosed hkind hcontent _ := by
    have hkeeps : R.Keeps store (store.add kind content) := keeps_add hclosed hkind
    refine ⟨⟨hclosed.add hkind hcontent, hkeeps⟩, (admits_cell hkind).mpr ?_⟩
    rw [Store.size_add]
    exact ⟨hclosed.floor_le kind, Nat.lt_succ_self _⟩
  binds_next _ _ := trivial
  modify hclosed _ hkind href hcontent _ :=
    ⟨hclosed.modify hkind href hcontent, keeps_modify hkind ((admits_cell hkind).mp href).1⟩
  rebind {store ref name value} hclosed href _ hvalue := by
    have hkind : CellKind.scope ≠ .imports := by simp
    refine ⟨hclosed.modify hkind href fun mention hmention => ?_,
      keeps_modify hkind ((admits_cell hkind).mp href).1⟩
    rcases mem_mentions_insert hmention with hmention | hmention
    · exact hvalue mention hmention
    · exact hclosed.admits_held href hmention
  record hclosed himports himporter hrecord := by
    cases admits_imports.mp himports
    exact ⟨⟨hclosed.record hrecord, keeps_record hrecord⟩,
      admits_target hclosed himporter hrecord⟩

/-- The realm of what is made from now on. -/
def since (store : Store) (tracker : Ref .imports) (home? : Option String) : Realm :=
  ⟨store.size, tracker, home?⟩

/-- In the beginning, no cell was made since. -/
theorem closed_since {tracker : Ref .imports} {home? : Option String}
    (htracked : home?.isSome → tracker.index < store.size .imports) :
    (since store tracker home?).Closed store where
  floor_le _ := Nat.le_refl _
  admits hfloor hlt _ := absurd hlt (Nat.not_lt.mpr hfloor)
  tracked := htracked

end Realm

end Kestrel
