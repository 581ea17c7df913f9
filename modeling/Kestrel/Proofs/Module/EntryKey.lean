import Kestrel.Proofs.Module.Canonical
import Mathlib.Data.List.DropRight

/-!
# Keys of modules that are run

A module that is run gets the source extension at the end of its name as text, and an imported one
at the end of its file name. The two agree unless the name goes on after the file name with a slash,
or a slash and a dot: then the extension makes another component at the end.
-/

namespace Kestrel

namespace Path

/-- A name in a directory, as text. -/
def joinText (directory name : String) : String :=
  if name.toList.head? = some '/' ∨ directory = "" then name
  else if directory.toList.getLast? = some '/' then directory ++ name
  else directory ++ "/" ++ name

/-- The components of a path apart from `.`, which are those that count. -/
def solid (path : Path) : List PathPart := path.parts.filter (· != .current)

/-- The components of a text apart from `.`. -/
def solidOf (letters : List Char) : List PathPart :=
  (((splitAtSlashes [] letters).filter (· != "")).map PathPart.ofText).filter (· != .current)

section Solid

/-- A text is read as its components apart from `.`, perhaps after one `.`. -/
theorem parts_ofText (text : String) :
    (ofText text).parts = solidOf text.toList ∨
      (ofText text).parts = .current :: solidOf text.toList := by
  unfold ofText solidOf
  dsimp only
  split
  · next hothers hparts =>
    right
    rw [hparts]
    rfl
  · exact .inl rfl

/-- A text has the components that count in the path that it is read as. -/
theorem solid_ofText (text : String) : (ofText text).solid = solidOf text.toList := by
  have hself : (solidOf text.toList).filter (· != .current) = solidOf text.toList := by
    unfold solidOf
    rw [List.filter_filter]
    simp
  unfold solid
  rcases parts_ofText text with hparts | hparts
  · rw [hparts, hself]
  · rw [hparts]
    exact hself

/-- What stands before a slash and what stands after it have their own components. -/
theorem solidOf_append_slash (first rest : List Char) :
    solidOf (first ++ '/' :: rest) = solidOf first ++ solidOf rest := by
  unfold solidOf
  rw [splitAtSlashes_append_slash, List.filter_append, List.map_append, List.filter_append]

/-- A file name is the last one of the components that count. -/
theorem fileName?_ofText {text name : String} :
    (ofText text).fileName? = some name ↔ (solidOf text.toList).getLast? = some (.name name) := by
  have hlast : (ofText text).fileName? = some name ↔
      (ofText text).parts.getLast? = some (.name name) := by
    unfold fileName?
    split
    · next hlast => simp [hlast]
    · next hother =>
      refine iff_of_false (by simp) fun hname => hother name hname
  rw [hlast]
  rcases parts_ofText text with hparts | hparts
  · rw [hparts]
  · rw [hparts]
    cases solidOf text.toList with
    | nil => simp
    | cons part others => rw [List.getLast?_cons_cons]

/-- The normal form of a path depends on the components that count alone. -/
theorem normal_eq_of_solid {first second : Path} (habsolute : first.isAbsolute = second.isAbsolute)
    (hsolid : first.solid = second.solid) : first.normal = second.normal := by
  have hfold (parts stack : List PathPart) :
      (parts.filter (· != .current)).foldl step stack = parts.foldl step stack := by
    induction parts generalizing stack with
    | nil => rfl
    | cons part others ih => cases part <;> exact ih _
  unfold normal
  rw [habsolute, ← hfold first.parts, ← hfold second.parts]
  exact congrArg (fun parts => Path.mk _ (parts.foldl step []).reverse) hsolid

/-- A relative path in a directory has the components of both. -/
theorem solid_join {path : Path} (hrelative : path.isAbsolute = false) (directory : Path) :
    (directory.join path).isAbsolute = directory.isAbsolute ∧
      (directory.join path).solid = directory.solid ++ path.solid := by
  unfold join solid
  rw [if_neg (by simp [hrelative])]
  split_ifs with hempty
  · obtain ⟨hdirectory, hparts⟩ : directory.isAbsolute = false ∧ directory.parts = [] := by
      simpa using hempty
    rw [hparts, hrelative, hdirectory]
    exact ⟨rfl, rfl⟩
  · refine ⟨rfl, ?_⟩
    rw [List.filter_append, List.filter_filter]
    simp

/-- What stands in front of a text and ends with a slash has its own components. -/
theorem solidOf_append {before : List Char} (hbefore : before = [] ∨ ['/'] <:+ before)
    (rest : List Char) : solidOf (before ++ rest) = solidOf before ++ solidOf rest := by
  have hnone : solidOf [] = [] := rfl
  rcases hbefore with rfl | ⟨first, rfl⟩
  · rw [hnone, List.nil_append, List.nil_append]
  · rw [List.append_assoc, List.singleton_append, solidOf_append_slash, solidOf_append_slash, hnone,
      List.append_nil]

/-- A relative name in a directory is the name, and in front of it the components of the
directory. -/
theorem joinText_eq {name : String} (hrelative : (ofText name).isAbsolute = false)
    (directory : String) :
    ∃ before, (joinText directory name).toList = before ++ name.toList ∧
      (before = [] ∨ ['/'] <:+ before) ∧ solidOf before = solidOf directory.toList ∧
      (ofText (joinText directory name)).isAbsolute = (ofText directory).isAbsolute := by
  have hhead : ¬ name.toList.head? = some '/' := by simpa [ofText] using hrelative
  unfold joinText
  by_cases hempty : directory = ""
  · subst hempty
    rw [if_pos (.inr rfl), hrelative]
    exact ⟨[], rfl, .inl rfl, rfl, rfl⟩
  · obtain ⟨c, rest, hletters⟩ : ∃ c rest, directory.toList = c :: rest :=
      List.exists_cons_of_ne_nil (by simpa using hempty)
    rw [if_neg (not_or.mpr ⟨hhead, hempty⟩)]
    split_ifs with hslash
    · obtain ⟨first, hfirst⟩ := List.getLast?_eq_some_iff.mp hslash
      refine ⟨directory.toList, by simp, .inr ⟨first, hfirst.symm⟩, rfl, ?_⟩
      simp [ofText, hletters]
    · refine ⟨directory.toList ++ ['/'], by simp, .inr ⟨_, rfl⟩, ?_, ?_⟩
      · rw [solidOf_append_slash]
        exact List.append_nil _
      · simp [ofText, hletters]

end Solid

section Ending

/-- What follows the last slash of a text. -/
theorem exists_last_piece (letters : List Char) :
    ∃ before last, letters = before ++ last ∧ (before = [] ∨ ['/'] <:+ before) ∧ '/' ∉ last := by
  refine ⟨letters.rdropWhile (· != '/'), letters.rtakeWhile (· != '/'),
    (List.rdropWhile_append_rtakeWhile ..).symm, ?_, fun hslash => ?_⟩
  · by_cases hnone : letters.rdropWhile (· != '/') = []
    · exact .inl hnone
    · have hslash : (letters.rdropWhile (· != '/')).getLast hnone = '/' := by
        simpa using List.rdropWhile_last_not _ _ hnone
      exact .inr ⟨_, hslash ▸ List.dropLast_append_getLast hnone⟩
  · simpa using List.mem_rtakeWhile_imp hslash

/-- A single piece is one component, unless it is empty or `.`. -/
theorem solidOf_of_notMem {last : List Char} (hslash : '/' ∉ last) :
    solidOf last = if last = [] ∨ last = ['.'] then []
      else [PathPart.ofText (String.ofList last)] := by
  unfold solidOf
  rw [splitAtSlashes_of_notMem hslash, List.reverse_nil, List.nil_append]
  by_cases hempty : last = []
  · simp [hempty]
  · have hne : String.ofList last ≠ "" := by simpa using hempty
    by_cases hdot : last = ['.']
    · subst hdot
      decide
    · have hname : String.ofList last ≠ "." := by
        intro heq
        exact hdot (by simpa using congrArg String.toList heq)
      have hpart : PathPart.ofText (String.ofList last) ≠ .current := by
        unfold PathPart.ofText
        rw [if_neg hname]
        split <;> simp
      simp [hempty, hdot, hne, hpart]

/-- A text goes on after its last component that counts. -/
def GoesOn (letters : List Char) : Prop := ['/'] <:+ letters ∨ ['/', '.'] <:+ letters

/-- The source extension at the end of a text belongs to the file name, unless the text goes on
after the file name; then it makes another name. -/
theorem solidOf_append_extension {letters : List Char} {file : String}
    (hfile : (solidOf letters).getLast? = some (.name file)) :
    (¬ GoesOn letters ∧ ∃ front, solidOf letters = front ++ [.name file] ∧
      solidOf (letters ++ ".kes".toList) = front ++ [.name (file ++ ".kes")]) ∨
    (GoesOn letters ∧ ∃ added, solidOf (letters ++ ".kes".toList) =
      solidOf letters ++ [.name added] ∧ (added = ".kes" ∨ added = "..kes")) := by
  obtain ⟨before, last, rfl, hbefore, hslash⟩ := exists_last_piece letters
  have hlonger : '/' ∉ last ++ ".kes".toList := by simpa using hslash
  have hextended : solidOf (last ++ ".kes".toList) =
      [.name (String.ofList last ++ ".kes")] := by
    have hlength : 4 ≤ (last ++ ".kes".toList).length := by simp
    have hpart (text : String) (htext : text.toList = last ++ ".kes".toList) :
        PathPart.ofText text = .name text := by
      unfold PathPart.ofText
      rw [← htext] at hlength
      rw [if_neg, if_neg] <;> rintro rfl <;> simp at hlength
    have hkept : ¬ (last ++ ".kes".toList = [] ∨ last ++ ".kes".toList = ['.']) := by
      rintro (hempty | hdot)
      · rw [hempty] at hlength
        simp at hlength
      · rw [hdot] at hlength
        simp at hlength
    rw [solidOf_of_notMem hlonger, if_neg hkept, hpart _ String.toList_ofList, String.ofList_append]
    simp
  rw [List.append_assoc, solidOf_append hbefore, solidOf_append hbefore, hextended]
  rw [solidOf_append hbefore] at hfile
  have hlast := solidOf_of_notMem hslash
  by_cases hdropped : last = [] ∨ last = ['.']
  · right
    rw [if_pos hdropped] at hlast
    rw [hlast, List.append_nil] at hfile ⊢
    have hbefore : ['/'] <:+ before := by
      refine hbefore.resolve_left ?_
      rintro rfl
      cases hfile
    obtain ⟨first, rfl⟩ := hbefore
    rcases hdropped with rfl | rfl
    · exact ⟨.inl ⟨first, by simp⟩, ".kes", rfl, .inl rfl⟩
    · exact ⟨.inr ⟨first, by simp⟩, "..kes", rfl, .inr rfl⟩
  · left
    rw [if_neg hdropped] at hlast
    rw [hlast, List.getLast?_concat, Option.some.injEq] at hfile
    have hname : file = String.ofList last := by
      unfold PathPart.ofText at hfile
      split_ifs at hfile
      cases hfile
      rfl
    refine ⟨?_, solidOf before, by rw [hlast, hfile], by rw [hname]⟩
    -- A slash at the end, or one before a dot at the end, would be in the last piece.
    obtain ⟨hempty, hdot⟩ := not_or.mp hdropped
    have hlast : last <:+ before ++ last := ⟨before, rfl⟩
    have hpos := List.length_pos_of_ne_nil hempty
    rintro (hends | hends)
    · have hsuffix := List.suffix_of_suffix_length_le hends hlast hpos
      exact hslash (hsuffix.subset (by simp))
    · by_cases hone : last.length = 1
      · have hsuffix := List.suffix_of_suffix_length_le hlast hends (by simp [hone])
        obtain ⟨c, rfl⟩ := List.length_eq_one_iff.mp hone
        have hc := hsuffix.getLast (by simp)
        simp at hc
        exact hdot (by rw [hc])
      · have hsuffix := List.suffix_of_suffix_length_le hends hlast (by simp; omega)
        exact hslash (hsuffix.subset (by simp))

end Ending

/-- The last component stays last in the normal form if it is a name. -/
theorem fileName?_normal {path : Path} {front : List PathPart} {name : String}
    (hsolid : path.solid = front ++ [.name name]) : path.normal.fileName? = some name := by
  have hnormal : path.normal = (⟨path.isAbsolute, front ++ [.name name]⟩ : Path).normal := by
    refine normal_eq_of_solid rfl ?_
    have hself : path.solid.filter (· != .current) = path.solid := by
      unfold solid
      rw [List.filter_filter]
      simp
    rw [← hself, hsolid]
    rfl
  rw [hnormal]
  simp [normal, step, fileName?]

/-- The source extension that is set on a name without an extension changes its last component that
counts. -/
theorem solid_withSourceExtension {name file : String} (hfile : (ofText name).fileName? = some file)
    (hextension : (ofText name).extension? = none) :
    ∃ front, solidOf name.toList = front ++ [.name file] ∧
      (ofText name).withSourceExtension.solid = front ++ [.name (file ++ ".kes")] := by
  have hparts := parts_of_fileName? hfile
  have hfront (part : PathPart) (hpart : part ≠ .current) :
      ((ofText name).parts.dropLast ++ [part]).filter (· != .current) =
        (ofText name).parts.dropLast.filter (· != .current) ++ [part] := by
    rw [List.filter_append]
    simp [hpart]
  have hnone : (splitExtension file).2 = none := by
    simpa [extension?, hfile] using hextension
  have hextended : extended file = file ++ ".kes" := by
    unfold extended
    rw [hnone, String.append_assoc]
    rfl
  refine ⟨(ofText name).parts.dropLast.filter (· != .current), ?_, ?_⟩
  · rw [← hfront _ (by simp), ← hparts, ← solid_ofText]
    rfl
  · rw [withSourceExtension_eq hparts, hextended, ← hfront _ (by simp)]
    rfl

/-- A relative name with a file name gets the same key when it is run from a directory and when it
is imported from there, if it has an extension or does not go on after the file name, and only
then. -/
theorem entryKey_eq_resolve_iff {directory name importer : String} (files : Files)
    (hrelative : (ofText name).isAbsolute = false) (hname : (ofText name).fileName?.isSome)
    (hdirectory : (ofText importer).directory = ofText directory) :
    (Loader.fromFiles files).entryKey (joinText directory name) = (resolve name importer).text ↔
      (ofText name).extension?.isSome ∨ ¬ GoesOn name.toList := by
  obtain ⟨file, hfile⟩ := Option.isSome_iff_exists.mp hname
  obtain ⟨before, hjoined, hbefore, hsolid, habsolute⟩ := joinText_eq hrelative directory
  have hlast := fileName?_ofText.mp hfile
  -- Both keys are normal forms of a path that has the components of the directory first.
  have hentry (ending : List Char) : solidOf (before ++ (name.toList ++ ending)) =
      solidOf directory.toList ++ solidOf (name.toList ++ ending) := by
    rw [solidOf_append hbefore, hsolid]
  have hresolve : resolve name importer =
      ((ofText directory).join (ofText name).withSourceExtension).normal := by
    rw [resolve_eq hfile, hdirectory]
  obtain ⟨hroot, hwanted⟩ := @solid_join (ofText name).withSourceExtension
    (by rw [withSourceExtension_eq (parts_of_fileName? hfile), hrelative]) (ofText directory)
  rw [solid_ofText] at hwanted
  have hextension : (ofText (joinText directory name)).extension? = (ofText name).extension? := by
    have hwhole := hentry []
    rw [List.append_nil] at hwhole
    have hjoinedFile : (ofText (joinText directory name)).fileName? = some file := by
      rw [fileName?_ofText, hjoined, hwhole, List.getLast?_append, hlast]
      rfl
    unfold extension?
    rw [hjoinedFile, hfile]
  change moduleKey (Kestrel.withSourceExtension _) = _ ↔ _
  unfold moduleKey Kestrel.withSourceExtension
  rw [hextension, hresolve]
  cases hsome : (ofText name).extension? with
  | some extension =>
    refine iff_of_true (congrArg text (normal_eq_of_solid (habsolute.trans hroot.symm) ?_))
      (.inl rfl)
    have hwhole := hentry []
    rw [List.append_nil] at hwhole
    rw [hwanted, withSourceExtension_of_isSome (by rw [hsome]; rfl), solid_ofText, solid_ofText,
      hjoined, hwhole]
  | none =>
    dsimp only
    have hletters : (joinText directory name ++ "." ++ sourceExtension).toList =
        before ++ (name.toList ++ ".kes".toList) := by
      simp [hjoined, sourceExtension]
    have hstart : (ofText (joinText directory name ++ "." ++ sourceExtension)).isAbsolute =
        (ofText directory).isAbsolute := by
      have hne : (joinText directory name).toList ≠ [] := by
        rw [hjoined]
        intro hnil
        rw [(List.append_eq_nil_iff.mp hnil).2] at hlast
        cases hlast
      rw [← habsolute]
      simp [ofText, List.head?_append_of_ne_nil _ hne]
    obtain ⟨front, hown, hset⟩ := solid_withSourceExtension hfile hsome
    rcases solidOf_append_extension hlast with
      ⟨hends, first, hold, hnew⟩ | ⟨hends, added, hnew, hadded⟩
    · rw [hown] at hold
      refine iff_of_true (congrArg text (normal_eq_of_solid (hstart.trans hroot.symm) ?_))
        (.inr hends)
      rw [hwanted, hset, solid_ofText, hletters, hentry, hnew, List.append_cancel_right hold]
    · refine iff_of_false (fun hsame => ?_) (by simp [hends])
      have hread := congrArg ofText hsame
      rw [ofText_text (readable_normal fun part hpart => readable_of_mem_ofText hpart), ← hresolve,
        ofText_text (readable_resolve name importer), hresolve] at hread
      have hrun : (ofText (joinText directory name ++ "." ++ sourceExtension)).normal.fileName? =
          some added := by
        refine @fileName?_normal _ (solidOf directory.toList ++ solidOf name.toList) _ ?_
        rw [solid_ofText, hletters, hentry, hnew, List.append_assoc]
      have himported : ((ofText directory).join
          (ofText name).withSourceExtension).normal.fileName? = some (file ++ ".kes") := by
        refine @fileName?_normal _ (solidOf directory.toList ++ front) _ ?_
        rw [hwanted, hset, List.append_assoc]
      rw [hread, himported, Option.some.injEq] at hrun
      have hreadable : (PathPart.name file).Readable := by
        refine (@readable_of_mem_ofText name _ ?_).resolve_left (by simp)
        rw [parts_of_fileName? hfile]
        simp
      obtain ⟨hempty, -, hdot, -⟩ := hreadable
      rcases hadded with rfl | rfl
      · exact hempty (by simpa using congrArg String.toList hrun)
      · have hletters : file.toList ++ ".kes".toList = ".".toList ++ ".kes".toList := by
          simpa using congrArg String.toList hrun
        exact hdot (String.toList_inj.mp (List.append_cancel_right hletters))

/-- A module with an extension gets one key, however its name goes on. -/
theorem versioned_name_gets_one_key :
    (ofText "./lib//util.v2/.").isAbsolute = false ∧
      (ofText "./lib//util.v2/.").fileName?.isSome ∧
      (ofText "app/src/main.kes").directory = ofText "app/src" ∧
      (Loader.fromFiles fun _ => .unknown).entryKey "app/src/./lib//util.v2/." =
        (resolve "./lib//util.v2/." "app/src/main.kes").text := by
  have hrelative : (ofText "./lib//util.v2/.").isAbsolute = false := by decide
  have hname : (ofText "./lib//util.v2/.").fileName?.isSome := by decide
  have hdirectory : (ofText "app/src/main.kes").directory = ofText "app/src" := by decide
  have hsame := entryKey_eq_resolve_iff (fun _ => .unknown) hrelative hname hdirectory
  exact ⟨hrelative, hname, hdirectory, hsame.mpr (.inl (by decide))⟩

/-- With a slash after the file name, a module gets another key when it is run than when it is
imported. -/
theorem name_before_slash_gets_two_keys :
    ¬ ∀ (directory name importer : String) (files : Files), (ofText name).isAbsolute = false →
      (ofText name).fileName?.isSome → (ofText importer).directory = ofText directory →
      (Loader.fromFiles files).entryKey (joinText directory name) =
        (resolve name importer).text := by
  intro hsame
  have hkeys := hsame "" "a/" "main.kes" (fun _ => .unknown) (by decide) (by decide) (by decide)
  revert hkeys
  decide

end Path

end Kestrel
