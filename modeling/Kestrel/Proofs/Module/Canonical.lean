import Kestrel.Proofs.Eval.Plain
import Kestrel.Proofs.Module.Acyclic
import Kestrel.Proofs.Module.Place

/-!
# Keys are canonical

A normal path is a stack of names, perhaps on top of one `..`, so making it normal again changes
nothing. Hence the key of a module is its own key, and a module that imports its own file by name
is given its own key.
-/

namespace Kestrel

/-- A text without detours: no piece between its slashes is `.`, no slash follows another one or
stands at the end, and a `..` follows no name. -/
structure CanonicalText (text : String) : Prop where
  no_current : "." ∉ splitAtSlashes [] text.toList
  no_repeated_slash : ¬ ['/', '/'] <:+: text.toList
  no_trailing_slash : ¬ ['/'] <:+ text.toList
  no_parent_after (piece : String) : [piece, ".."] <:+: splitAtSlashes [] text.toList → piece = ""

/-- A text has no detours if its pieces are names, perhaps after a `..`, and before them perhaps the
empty piece that a slash at the start leaves. -/
theorem canonicalText_of_pieces {text : String} {absolute up : Bool} {names : List String}
    (hpieces : splitAtSlashes [] text.toList =
      (if absolute then [""] else []) ++ ((if up then [".."] else []) ++ names))
    (hname : ∀ name ∈ names, name ≠ "" ∧ name ≠ "." ∧ name ≠ "..") : CanonicalText text := by
  have hempty : "" ∉ names := fun hmem => (hname _ hmem).1 rfl
  have hdot : "." ∉ names := fun hmem => (hname _ hmem).2.1 rfl
  have hdots : ".." ∉ names := fun hmem => (hname _ hmem).2.2 rfl
  have hslash (first rest : List Char) (hfirst : text.toList = first ++ '/' :: rest) :
      "" ∉ splitAtSlashes [] rest := by
    have hlater : "" ∉ (splitAtSlashes [] text.toList).tail := by
      rw [hpieces]
      cases absolute <;> cases up <;> simp [hempty]
      exact fun hmem => hempty (List.mem_of_mem_tail hmem)
    rw [hfirst, splitAtSlashes_append_slash,
      List.tail_append_of_ne_nil (splitAtSlashes_ne_nil first [])] at hlater
    exact fun hmem => hlater (List.mem_append_right _ hmem)
  constructor
  case no_current =>
    rw [hpieces]
    cases absolute <;> cases up <;> simp [hdot]
  case no_repeated_slash =>
    rintro ⟨first, rest, hrepeated⟩
    refine hslash first ('/' :: rest) (by simpa using hrepeated.symm) ?_
    simp [splitAtSlashes]
  case no_trailing_slash =>
    rintro ⟨first, htrailing⟩
    refine hslash first [] htrailing.symm ?_
    simp [splitAtSlashes]
  case no_parent_after =>
    rintro piece ⟨before, after, hrow⟩
    -- A `..` that is not the first piece stands right after the slash at the start.
    have hlast (first : List String) : ".." ∈ (first ++ [piece, ".."] ++ after).tail := by
      cases first <;> simp
    have hbefore := hlast before
    rw [hrow, hpieces] at hbefore
    cases absolute <;> cases up
    · exact absurd (List.mem_of_mem_tail hbefore) hdots
    · exact absurd hbefore hdots
    · exact absurd hbefore hdots
    · rw [hpieces] at hrow
      cases before with
      | nil => exact (List.cons.inj hrow).1
      | cons first others =>
        have hothers := hlast others
        have hrest : others ++ [piece, ".."] ++ after = ".." :: names := (List.cons.inj hrow).2
        rw [hrest] at hothers
        exact absurd hothers hdots

namespace Path

section Normal

/-- A step of normalising leads from a stack to a stack. -/
theorem exists_stackOf_step (names : List String) (up : Bool) (part : PathPart) :
    ∃ later stays, step (stackOf names up) part = stackOf later stays := by
  cases part with
  | current => exact ⟨names, up, rfl⟩
  | name text => exact ⟨text :: names, up, rfl⟩
  | parent =>
    cases names with
    | cons text others => exact ⟨others, up, rfl⟩
    | nil =>
      cases up with
      | false => exact ⟨[], true, rfl⟩
      | true => exact ⟨[], false, rfl⟩

/-- The components of a normal path are a stack, read from below. -/
theorem normal_parts (path : Path) :
    ∃ names up, path.normal.parts = (stackOf names up).reverse := by
  have hfold : ∃ names up, path.parts.foldl step [] = stackOf names up := by
    refine List.foldlRecOn path.parts step
      (motive := fun stack => ∃ names up, stack = stackOf names up) ⟨[], false, rfl⟩ ?_
    rintro _ ⟨names, up, rfl⟩ part -
    exact exists_stackOf_step names up part
  obtain ⟨names, up, hstack⟩ := hfold
  exact ⟨names, up, congrArg List.reverse hstack⟩

/-- A stack that is normalised from below is built up as it is. -/
theorem foldl_step_reverse_stackOf (names : List String) (up : Bool) :
    (stackOf names up).reverse.foldl step [] = stackOf names up := by
  induction names with
  | nil => cases up <;> rfl
  | cons text others ih =>
    change (PathPart.name text :: stackOf others up).reverse.foldl step [] = _
    rw [List.reverse_cons, List.foldl_append, ih]
    rfl

/-- A normal path stays as it is. -/
theorem normal_normal (path : Path) : path.normal.normal = path.normal := by
  obtain ⟨names, up, hparts⟩ := path.normal_parts
  have hsame : (path.normal.parts.foldl step []).reverse = path.normal.parts := by
    rw [hparts, foldl_step_reverse_stackOf]
  exact congrArg (Path.mk path.isAbsolute) hsame

/-- The text of a normal path with some component has no detours. -/
theorem canonicalText_normal {path : Path} (hreadable : path.normal.Readable)
    (hne : path.normal.parts ≠ []) : CanonicalText path.normal.text := by
  obtain ⟨names, up, hparts⟩ := path.normal_parts
  have htexts : path.normal.parts.map PathPart.text =
      (if up then [".."] else []) ++ names.reverse := by
    have hnames : names.reverse.map (PathPart.text ∘ PathPart.name) = names.reverse :=
      List.map_id _
    rw [hparts, stackOf, List.reverse_append, List.map_append, ← List.map_reverse, List.map_map,
      hnames]
    cases up <;> rfl
  refine canonicalText_of_pieces (htexts ▸ splitAtSlashes_text hreadable hne) fun name hname => ?_
  have hmem : PathPart.name name ∈ path.normal.parts := by
    rw [hparts]
    simpa [stackOf] using hname
  obtain ⟨hempty, -, hdot, hdots⟩ := hreadable _ hmem
  exact ⟨hempty, hdot, hdots⟩

end Normal

section Key

variable {path importer name : String}

/-- The source extension is not set on a path that has an extension. -/
theorem withSourceExtension_of_isSome {path : Path} (hextension : path.extension?.isSome) :
    path.withSourceExtension = path := by
  obtain ⟨extension, hextension⟩ := Option.isSome_iff_exists.mp hextension
  unfold withSourceExtension
  rw [hextension]
  cases path.fileName? <;> rfl

/-- What an import resolves to is normal. -/
theorem normal_resolve (path importer : String) :
    (resolve path importer).normal = resolve path importer := by
  rw [resolve_eq_normal, normal_normal]

/-- What an import resolves to is read back from its key. -/
theorem ofText_key (path importer : String) :
    ofText (resolve path importer).text = resolve path importer :=
  ofText_text (readable_resolve path importer)

/-- The key of what an import resolves to is its own key. -/
theorem moduleKey_key (path importer : String) :
    moduleKey (resolve path importer).text = (resolve path importer).text := by
  unfold moduleKey
  rw [ofText_key, normal_resolve]

/-- A module with an extension that is imported by its file name from its own directory is what was
resolved. -/
theorem resolve_fileName (hname : (resolve path importer).fileName? = some name)
    (hextension : (resolve path importer).extension?.isSome) :
    resolve name (resolve path importer).text = resolve path importer := by
  have hparts := parts_of_fileName? hname
  have hmem : PathPart.name name ∈ (resolve path importer).parts := by
    rw [hparts]
    simp
  have hread : ofText name = ⟨false, [.name name]⟩ := by
    have hreadable : (⟨false, [.name name]⟩ : Path).Readable := by
      intro part hpart
      rw [List.mem_singleton.mp hpart]
      exact readable_resolve path importer _ hmem
    have htext : (⟨false, [.name name]⟩ : Path).text = name := by simp [text, PathPart.text]
    rw [← ofText_text hreadable, htext]
  have hdirectory : (resolve path importer).directory =
      ⟨(resolve path importer).isAbsolute, (resolve path importer).parts.dropLast⟩ := by
    unfold directory parent?
    rw [if_neg (by simpa using List.ne_nil_of_mem hmem)]
    rfl
  have hjoin : (resolve path importer).directory.join (ofText name) = resolve path importer := by
    rw [hread, hdirectory]
    unfold join
    rw [if_neg (by simp)]
    split_ifs with hempty
    · obtain ⟨hrelative, hfirst⟩ : (resolve path importer).isAbsolute = false ∧
          (resolve path importer).parts.dropLast = [] := by simpa using hempty
      rw [hfirst, List.nil_append] at hparts
      rw [← hparts, ← hrelative]
    · exact congrArg (Path.mk (resolve path importer).isAbsolute) hparts.symm
  rw [resolve_eq_normal name, ofText_key, hjoin, withSourceExtension_of_isSome hextension,
    normal_resolve]

end Key

end Path

/-- A module that resolves an import to itself goes on with an error, as it was before the
import. -/
theorem executeImport_of_self {host : Host} {files : Files} {evaluator : Evaluator} {scope : Scope}
    {declaration : ImportDeclaration} {state : State} {source : String}
    (hloader : host.loader = .fromFiles files)
    (hlibrary : ∀ library ∈ host.libraries, library.name ≠ declaration.path)
    (hself : (Path.resolve declaration.path scope.module).text = scope.module)
    (hfile : readFile files scope.module = .content source) :
    executeImport host evaluator scope declaration state =
      .interrupted (.error (.ofCause (.circularImport scope.module scope.module))) state := by
  have hnone : (host.libraries.find? fun library => library.name = declaration.path) = none :=
    List.find?_eq_none.mpr fun library hmem => by simpa using hlibrary library hmem
  have hloaded : loadModule host.loader declaration.path scope.module state =
      .value ⟨scope.module, source⟩ state := by
    unfold loadModule
    rw [hloader]
    simp only [Loader.fromFiles, hself, hfile]
    rfl
  have hrefused : recordImport scope scope.module state =
      .interrupted (.error (.ofCause (.circularImport scope.module scope.module))) state :=
    recordImport_refused (if_pos (.inl rfl))
  unfold executeImport importModule
  rw [hnone]
  exact (Eval.bind_of_value hloaded _).trans (Eval.bind_of_interrupted hrefused _)

/-- A key with an extension that an import resolves to has no detours and is its own key, also when
it is run. A module with this key that imports its own file by name is given this key, and if the
file can be read, the import is refused as circular. -/
theorem resolved_key_canonical (path importer : String)
    (hextension : (Path.resolve path importer).extension?.isSome) :
    let key := (Path.resolve path importer).text
    CanonicalText key ∧
    Path.moduleKey key = key ∧
    (∀ files, (Loader.fromFiles files).entryKey key = key) ∧
    ∃ name, (Path.ofText key).fileName? = some name ∧
      (Path.resolve name key).text = key ∧
      ∀ (host : Host) (files : Files) (evaluator : Evaluator) (scope : Scope)
        (declaration : ImportDeclaration) (state : State) (source : String),
        host.loader = .fromFiles files →
        (∀ library ∈ host.libraries, library.name ≠ name) →
        scope.module = key → declaration.path = name → readFile files key = .content source →
        executeImport host evaluator scope declaration state =
          .interrupted (.error (.ofCause (.circularImport key key))) state := by
  intro key
  have hread : Path.ofText key = Path.resolve path importer := Path.ofText_key path importer
  have hown : Path.moduleKey key = key := Path.moduleKey_key path importer
  obtain ⟨name, hname, -⟩ := Option.bind_eq_some_iff.mp (Option.some_get hextension).symm
  have hself : (Path.resolve name key).text = key :=
    congrArg Path.text (Path.resolve_fileName hname hextension)
  refine ⟨?_, hown, fun files => ?_, name, hread ▸ hname, hself, ?_⟩
  · have hnormal := Path.normal_resolve path importer
    have hcanonical := @Path.canonicalText_normal (Path.resolve path importer)
    rw [hnormal] at hcanonical
    refine hcanonical (Path.readable_resolve path importer) ?_
    rw [Path.parts_of_fileName? hname]
    simp
  · obtain ⟨extension, hsome⟩ := Option.isSome_iff_exists.mp hextension
    change Path.moduleKey (withSourceExtension key) = key
    have hkept : withSourceExtension key = key := by
      unfold withSourceExtension
      rw [hread, hsome]
    rw [hkept, hown]
  · rintro host files evaluator scope declaration state source hloader hlibrary hscope rfl hfile
    rw [← hscope] at hself hfile ⊢
    exact executeImport_of_self hloader hlibrary hself hfile

/-- A module that was imported through detours has a canonical key, and its import of itself is
refused. -/
theorem import_through_detours_canonical :
    (Path.resolve "../../lib/./util.v2//" "app/src/main.kes").extension?.isSome ∧
      CanonicalText "lib/util.v2" ∧ Path.moduleKey "lib/util.v2" = "lib/util.v2" ∧
      (Path.resolve "util.v2" "lib/util.v2").text = "lib/util.v2" ∧
      let host : Host := ⟨true, .fromFiles fun _ => .text "", [.math]⟩
      executeImport host (.ofSteps host 1) ⟨⟨0⟩, [], "lib/util.v2", ⟨0⟩⟩ ⟨"util.v2", none, default⟩
          default =
        .interrupted (.error (.ofCause (.circularImport "lib/util.v2" "lib/util.v2"))) default := by
  have hextension :
      (Path.resolve "../../lib/./util.v2//" "app/src/main.kes").extension?.isSome := by decide
  have hkey : (Path.resolve "../../lib/./util.v2//" "app/src/main.kes").text = "lib/util.v2" := by
    decide
  obtain ⟨hcanonical, hown, -, name, hname, hself, hrefused⟩ :=
    resolved_key_canonical _ _ hextension
  rw [hkey] at hcanonical hown hname hself hrefused
  have hfile : (Path.ofText "lib/util.v2").fileName? = some "util.v2" := by decide
  cases hfile.symm.trans hname
  refine ⟨hextension, hcanonical, hown, hself, ?_⟩
  exact hrefused _ (fun _ => .text "") _ _ _ _ _ rfl (by decide) rfl rfl rfl

end Kestrel
