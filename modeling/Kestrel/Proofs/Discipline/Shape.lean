import Kestrel.Proofs.Discipline.Statement

/-!
# The shape of objects

A struct declares its properties once and for all, each once, and an object has a field for each of
them and no others. This is an invariant of the store, together with the fact that cells mention
only cells that are there. Programs keep to it: whatever a step adds or changes, the properties of
the structs that are there stay as they are, and so the fields of their objects stay complete.
-/

namespace Kestrel

namespace Store

/-- The store has the cell of a mention. -/
def Has (store : Store) : Mention → Prop
  | @Mention.cell kind ref => ref.index < store.size kind
  | .module _ => True

/-- Every cell mentions only cells that are there, and has the shape of its kind. -/
structure Sound (store : Store) : Prop where
  has {kind : CellKind} {ref : Ref kind} :
    ref.index < store.size kind → ∀ mention ∈ kind.mentions (store.get ref), store.Has mention
  shaped {kind : CellKind} {ref : Ref kind} :
    ref.index < store.size kind → kind.Shaped store (store.get ref)

/-- No cell is lost, and the properties of structs stay as they are. -/
structure KeepsProperties (before after : Store) : Prop where
  size_le (kind : CellKind) : before.size kind ≤ after.size kind
  properties_eq {ref : Ref .struct} :
    ref.index < before.size .struct → (after.get ref).properties = (before.get ref).properties

variable {store before after : Store} {kind : CellKind}

/-- A store without cells is sound. -/
theorem sound_empty : Store.empty.Sound where
  has {kind ref} hlt := by cases kind <;> cases hlt
  shaped {kind ref} hlt := by cases kind <;> cases hlt

namespace KeepsProperties

/-- Everything can stay as it is. -/
theorem refl (store : Store) : KeepsProperties store store := ⟨fun _ => Nat.le_refl _, fun _ => rfl⟩

/-- What stays twice stays. -/
theorem trans {middle : Store} (hfirst : KeepsProperties before middle)
    (hsecond : KeepsProperties middle after) : KeepsProperties before after where
  size_le kind := Nat.le_trans (hfirst.size_le kind) (hsecond.size_le kind)
  properties_eq hlt :=
    (hsecond.properties_eq (Nat.lt_of_lt_of_le hlt (hfirst.size_le .struct))).trans
      (hfirst.properties_eq hlt)

/-- A cell that is there stays there. -/
theorem has (hkeeps : KeepsProperties before after) {mention : Mention}
    (hhas : before.Has mention) : after.Has mention := by
  cases mention with
  | @cell kind ref => exact Nat.lt_of_lt_of_le hhas (hkeeps.size_le kind)
  | module key => trivial

/-- A cell that mentions only cells that are there keeps its shape. -/
theorem shaped (hkeeps : KeepsProperties before after) {content : kind.Content}
    (hmentions : ∀ mention ∈ kind.mentions content, before.Has mention)
    (hshaped : kind.Shaped before content) : kind.Shaped after content := by
  cases kind with
  | struct => exact hshaped
  | object =>
    have htemplate : content.template.index < before.size .struct :=
      hmentions (.cell content.template) (List.mem_append_left _ (List.mem_singleton_self _))
    exact Eq.trans hshaped (hkeeps.properties_eq htemplate).symm
  | _ => trivial

/-- A new cell leaves all others as they are. -/
theorem add (store : Store) (kind : CellKind) (content : kind.Content) :
    KeepsProperties store (store.add kind content) where
  size_le other := store.size_le_size_add kind other content
  properties_eq hlt := by rw [get_add_of_lt hlt]

/-- A changed cell has the properties that it had, if it is a struct. -/
theorem modify {ref : Ref kind} {f : kind.Content → kind.Content}
    (hstays : kind.Stays store (store.get ref) (f (store.get ref))) :
    KeepsProperties store (store.modify ref f) where
  size_le other := Nat.le_of_eq (store.size_modify ref f other).symm
  properties_eq {left} hlt := by
    by_cases hsame : ∃ heq : kind = .struct, heq ▸ ref = left
    · obtain ⟨rfl, rfl⟩ := hsame
      rw [get_modify_self hlt]
      exact hstays
    · have hne : CellKind.struct = kind → left.index ≠ ref.index := by
        rintro rfl hindex
        exact hsame ⟨rfl, Ref.eq_of_index_eq hindex.symm⟩
      rw [get_modify_of_ne hne]

end KeepsProperties

/-- What a program makes a new cell of has the shape of its kind. -/
theorem shaped_of_fits {content : kind.Content}
    (hfits : kind.Fits (fun ref template => ∃ earlier : Store,
      (earlier.Sound ∧ KeepsProperties earlier store) ∧ earlier.Has (.cell ref) ∧
        earlier.get ref = template) content) : kind.Shaped store content := by
  cases kind with
  | struct => exact hfits
  | object =>
    obtain ⟨template, ⟨earlier, ⟨hsound, hkeeps⟩, hhas, rfl⟩, hkeys⟩ := hfits
    -- The struct was sound when it was read, and has had the same properties since.
    have hnodup : (earlier.get content.template).properties.Nodup := hsound.shaped hhas
    exact hkeys.trans
      ((StructTemplate.keys_blankFields hnodup).trans (hkeeps.properties_eq hhas).symm)
  | _ => trivial

/-- What a program leaves of a cell has the shape of its kind. -/
theorem shaped_of_stays {old new : kind.Content} (hstays : kind.Stays store old new)
    (hold : kind.Shaped store old) : kind.Shaped store new := by
  cases kind with
  | struct =>
    have hproperties : new.properties = old.properties := hstays
    show new.properties.Nodup
    rw [hproperties]
    exact hold
  | object => exact hstays hold
  | _ => trivial

/-- A sound store stays sound when a cell is added that mentions only cells that are there. -/
theorem Sound.add (hsound : store.Sound) {content : kind.Content}
    (hcontent : ∀ mention ∈ kind.mentions content, store.Has mention)
    (hshaped : kind.Shaped store content) : (store.add kind content).Sound := by
  have hkeeps := KeepsProperties.add store kind content
  constructor
  · intro other ref hlt
    refine forall_get_add (motive := fun other _ held =>
      ∀ mention ∈ other.mentions held, (store.add kind content).Has mention) ?_ ?_ hlt
    · exact fun ref hthere mention hmention => hkeeps.has (hsound.has hthere mention hmention)
    · exact fun mention hmention => hkeeps.has (hcontent mention hmention)
  · intro other ref hlt
    refine forall_get_add (motive := fun other _ held =>
      other.Shaped (store.add kind content) held) ?_ ?_ hlt
    · exact fun ref hthere => hkeeps.shaped (hsound.has hthere) (hsound.shaped hthere)
    · exact hkeeps.shaped hcontent hshaped

/-- A sound store stays sound when a cell is changed that keeps the shape of its kind. -/
theorem Sound.modify (hsound : store.Sound) {ref : Ref kind} {f : kind.Content → kind.Content}
    (hcontent : ∀ mention ∈ kind.mentions (f (store.get ref)), store.Has mention)
    (hstays : kind.Stays store (store.get ref) (f (store.get ref))) :
    (store.modify ref f).Sound := by
  have hkeeps : KeepsProperties store (store.modify ref f) := .modify hstays
  constructor
  · intro other left hlt
    refine forall_get_modify (motive := fun other _ held =>
      ∀ mention ∈ other.mentions held, (store.modify ref f).Has mention) ?_ ?_ hlt
    · exact fun left hthere mention hmention => hkeeps.has (hsound.has hthere mention hmention)
    · exact fun _ mention hmention => hkeeps.has (hcontent mention hmention)
  · intro other left hlt
    refine forall_get_modify (motive := fun other _ held =>
      other.Shaped (store.modify ref f) held) ?_ ?_ hlt
    · exact fun left hthere => hkeeps.shaped (hsound.has hthere) (hsound.shaped hthere)
    · exact fun hthere => hkeeps.shaped hcontent (shaped_of_stays hstays (hsound.shaped hthere))

end Store

/-- The discipline of shapes: programs are given only cells that are there, and keep to the shapes
of cells. -/
def Discipline.shapes : Discipline where
  holds := Store.Sound
  admits := Store.Has
  binds _ _ := True
  allows := Store.KeepsProperties
  allows_refl := .refl
  allows_trans := .trans
  admits_later hkeeps hhas := hkeeps.has hhas
  admits_held hsound href hmention := hsound.has href _ hmention
  add {store kind content} hsound _ hcontent hfits := by
    exact ⟨⟨hsound.add hcontent (Store.shaped_of_fits hfits), .add store kind content⟩,
      store.next_lt_size_add kind content⟩
  binds_next _ _ := trivial
  modify hsound _ _ _ hcontent hstays := ⟨hsound.modify hcontent hstays, .modify hstays⟩
  rebind {store ref name value} hsound href _ hvalue := by
    have hstays : CellKind.Stays store .scope (store.get ref)
        (OrderedMap.insert (store.get ref) name value) := trivial
    refine ⟨hsound.modify (fun mention hmention => ?_) hstays, .modify hstays⟩
    rcases mem_mentions_insert hmention with hmention | hmention
    · exact hvalue mention hmention
    · exact hsound.has href mention hmention
  record {store imports target importer graph} hsound _ _ _ := by
    have hstays : CellKind.Stays store .imports (store.get imports) graph := trivial
    have hgraph : ∀ mention ∈ CellKind.mentions .imports graph, store.Has mention := by
      rintro mention ⟨⟩
    exact ⟨⟨hsound.modify hgraph hstays, .modify hstays⟩, trivial⟩

end Kestrel
