import Kestrel.Proofs.Module.PathText
import Mathlib.Data.List.Basic

/-!
# Where paths lead

A path is read as directions from a directory. Its normal form should lead to the same place, and
it does for paths from the root and for those that never climb more than one level above their
start. The second of two `..` at the start of a normal path takes the first one away, so all other
paths lose two levels each time that this happens, and their normal forms lead elsewhere.
-/

namespace Kestrel

/-- Where a component leads from a directory, which is given by the names on the way to it, the last
one first. Above the root there is only the root. -/
def PathPart.lead (directory : List String) : PathPart → List String
  | current => directory
  | parent => directory.tail
  | name text => text :: directory

/-- Where components lead, one after the other. -/
def follow (parts : List PathPart) (directory : List String) : List String :=
  parts.foldl PathPart.lead directory

/-- Where a path leads from a starting directory. -/
def Path.lead (path : Path) (start : List String) : List String :=
  follow path.parts (if path.isAbsolute then [] else start)

/-- How many levels components climb above their start. A directory of at least so many names is
deep enough for all the `..` among them. -/
def climb : List PathPart → Nat
  | [] => 0
  | .current :: others => climb others
  | .parent :: others => climb others + 1
  | .name _ :: others => climb others - 1

section Follow

/-- Components in a row lead where the later ones lead from the place of the earlier ones. -/
theorem follow_append (first second : List PathPart) (directory : List String) :
    follow (first ++ second) directory = follow second (follow first directory) :=
  List.foldl_append

/-- Without the components that stay, components lead to the same place. -/
theorem follow_filter_current (parts : List PathPart) (directory : List String) :
    follow (parts.filter (· != .current)) directory = follow parts directory := by
  induction parts generalizing directory with
  | nil => rfl
  | cons part others ih =>
    cases part with
    | current => exact ih directory
    | parent => exact ih directory.tail
    | name text => exact ih (text :: directory)

/-- The components that stay do not climb. -/
theorem climb_append_filter_current (first second : List PathPart) :
    climb (first ++ second.filter (· != .current)) = climb (first ++ second) := by
  have hsecond : climb (second.filter (· != .current)) = climb second := by
    induction second with
    | nil => rfl
    | cons part others ih =>
      cases part with
      | current => exact ih
      | parent => exact congrArg (· + 1) ih
      | name text => exact congrArg (· - 1) ih
  induction first with
  | nil => exact hsecond
  | cons part others ih => cases part <;> simp only [List.cons_append, climb, ih]

end Follow

namespace Path

section Stack

/-- The normal components so far, the last one first: names, and below them perhaps one `..`. -/
def stackOf (names : List String) (up : Bool) : List PathPart :=
  names.map PathPart.name ++ if up then [.parent] else []

/-- A stack leads up one level if it has a `..`, and then down its names. -/
theorem follow_reverse_stackOf (names : List String) (up : Bool) (directory : List String) :
    follow (stackOf names up).reverse directory =
      names ++ if up then directory.tail else directory := by
  have hnames : ∀ base, follow (names.map PathPart.name).reverse base = names ++ base := by
    induction names with
    | nil => exact fun base => rfl
    | cons text others ih =>
      intro base
      rw [List.map_cons, List.reverse_cons, follow_append, ih]
      rfl
  unfold stackOf
  rw [List.reverse_append, follow_append, hnames]
  cases up <;> rfl

/-- Normal components lead where the components lead, if these start at the root or never climb
further than the names and one more level allow. -/
theorem follow_foldl_step {directory : List String} {parts : List PathPart} {names : List String}
    {up : Bool}
    (hclimb : directory = [] ∨ climb parts ≤ names.length + if up then 0 else 1) :
    follow (parts.foldl step (stackOf names up)).reverse directory =
      follow parts (names ++ if up then directory.tail else directory) := by
  induction parts generalizing names up with
  | nil => exact follow_reverse_stackOf names up directory
  | cons part others ih =>
    cases part with
    | current => exact ih hclimb
    | name text =>
      refine @ih (text :: names) up (hclimb.imp_right fun hle => ?_)
      simp only [climb, List.length_cons] at hle ⊢
      omega
    | parent =>
      cases names with
      | cons text names =>
        refine @ih names up (hclimb.imp_right fun hle => ?_)
        simp only [climb, List.length_cons] at hle ⊢
        omega
      | nil =>
        cases up with
        | false =>
          refine @ih [] true (hclimb.imp_right fun hle => ?_)
          simp only [climb, List.length_nil] at hle ⊢
          simpa using hle
        | true =>
          -- The `..` below the names is taken away, which only makes no difference at the root.
          have hroot : directory = [] := by
            rcases hclimb with hroot | hle
            · exact hroot
            · simp [climb] at hle
          subst hroot
          exact @ih [] false (.inl rfl)

/-- Normal components never lead less deep than the components themselves, and they lead deeper if
these climb further than the names and one more level allow. -/
theorem length_follow_foldl_step {directory : List String} (hdirectory : directory ≠ [])
    {parts : List PathPart} {names : List String} {up : Bool} {place : List String} {extra : Nat}
    (hdeep : climb parts ≤ place.length)
    (hplace : place.length + extra ≤
      names.length + (if up then directory.tail else directory).length) :
    (follow parts place).length + extra +
        (if (names.length + if up then 0 else 1) < climb parts then 2 else 0) ≤
      (follow (parts.foldl step (stackOf names up)).reverse directory).length := by
  have hpos := List.length_pos_of_ne_nil hdirectory
  induction parts generalizing names up place extra with
  | nil =>
    change place.length + extra + _ ≤ (follow (stackOf names up).reverse directory).length
    rw [follow_reverse_stackOf, List.length_append]
    simpa [climb] using hplace
  | cons part others ih =>
    cases part with
    | current => exact ih hdeep hplace
    | name text =>
      simp only [climb] at hdeep ⊢
      have hnext := @ih (text :: names) up (text :: place) extra
        (by simp only [List.length_cons]; omega) (by simp only [List.length_cons]; omega)
      simp only [List.length_cons] at hnext
      refine Nat.le_trans (Nat.add_le_add_left ?_ _) hnext
      split_ifs <;> omega
    | parent =>
      simp only [climb] at hdeep ⊢
      have htail : place.tail.length = place.length - 1 := List.length_tail
      cases names with
      | cons text names =>
        simp only [List.length_cons] at hplace ⊢
        have hnext := @ih names up place.tail extra (by omega) (by omega)
        refine Nat.le_trans (Nat.add_le_add_left ?_ _) hnext
        split_ifs <;> omega
      | nil =>
        cases up with
        | false =>
          have hshorter : directory.tail.length = directory.length - 1 := List.length_tail
          simp only [List.length_nil, Bool.false_eq_true, if_false] at hplace ⊢
          have hnext := @ih [] true place.tail extra (by omega)
            (by simp only [List.length_nil, if_true]; omega)
          refine Nat.le_trans (Nat.add_le_add_left ?_ _) hnext
          simp only [List.length_nil, if_true]
          split_ifs <;> omega
        | true =>
          -- Both levels are lost here, so the normal components lead two levels too deep.
          have hshorter : directory.tail.length = directory.length - 1 := List.length_tail
          simp only [List.length_nil, if_true] at hplace ⊢
          have hnext := @ih [] false place.tail (extra + 2) (by omega)
            (by simp only [List.length_nil, Bool.false_eq_true, if_false]; omega)
          have hlost : 0 + 0 < climb others + 1 := by omega
          rw [if_pos hlost]
          change (follow others place.tail).length + extra + 2 ≤
            (follow (others.foldl step (stackOf [] false)).reverse directory).length
          omega

end Stack

/-- A path that starts at the root or climbs at most one level leads where its normal form leads. -/
theorem normal_lead {path : Path} (hpath : path.isAbsolute ∨ climb path.parts ≤ 1)
    (start : List String) : path.normal.lead start = path.lead start := by
  refine @follow_foldl_step _ path.parts [] false ?_
  rcases hpath with habsolute | hclimb
  · exact .inl (if_pos habsolute)
  · exact .inr (by simpa using hclimb)

/-- A normal path leads where the path leads from every directory that is deep enough, if the path
starts at the root or climbs at most one level, and only then. -/
theorem normal_lead_iff (path : Path) :
    (path.isAbsolute ∨ climb path.parts ≤ 1) ↔
      ∀ start : List String, climb path.parts ≤ start.length →
        path.normal.lead start = path.lead start := by
  constructor
  · exact fun hpath start _ => normal_lead hpath start
  · intro hlead
    by_contra hpath
    obtain ⟨habsolute, hclimb⟩ := not_or.mp hpath
    -- From a directory that is just deep enough, the normal path ends in a longer list of names.
    have hstart : climb path.parts ≤ (List.replicate (climb path.parts) "").length := by simp
    have hne : List.replicate (climb path.parts) "" ≠ [] := by
      intro hnil
      rw [List.replicate_eq_nil_iff] at hnil
      omega
    have hlonger := @length_follow_foldl_step _ hne path.parts [] false
      (List.replicate (climb path.parts) "") 0 hstart (by simp)
    have hsame := congrArg List.length (hlead _ hstart)
    unfold lead at hsame
    rw [if_neg habsolute, if_neg (show ¬ path.normal.isAbsolute = true from habsolute)] at hsame
    have hlost : ([] : List String).length + (if false then 0 else 1) < climb path.parts := by
      simp
      omega
    rw [if_pos hlost] at hlonger
    change (follow (path.parts.foldl step (stackOf [] false)).reverse _).length = _ at hsame
    omega

/-- The directory that a path lies in. The root and the empty path have no component to lose, and
what is read from there is read from the start. -/
def directory (path : Path) : Path := path.parent?.getD ⟨false, []⟩

/-- A name with the source extension, unless it has an extension. -/
def extended (name : String) : String :=
  match (splitExtension name).2 with
  | none => name ++ "." ++ sourceExtension
  | some _ => name

section Resolve

variable {path : Path} {name : String}

/-- A path with a file name is what comes before the name, and the name. -/
theorem parts_of_fileName? (hname : path.fileName? = some name) :
    path.parts = path.parts.dropLast ++ [.name name] := by
  unfold fileName? at hname
  split at hname
  · next last hlast =>
    cases hname
    exact (List.dropLast_append_getLast? _ hlast).symm
  · cases hname

/-- Of a path with a file name, the source extension changes the name alone. -/
theorem withSourceExtension_eq {init : List PathPart} (hparts : path.parts = init ++ [.name name]) :
    path.withSourceExtension = { path with parts := init ++ [.name (extended name)] } := by
  have hname : path.fileName? = some name := by simp [fileName?, hparts]
  have hinit : path.parts.dropLast = init := by simp [hparts]
  unfold withSourceExtension extension? extended
  rw [hname, Option.bind_some]
  cases (splitExtension name).2 with
  | none => simp only [hinit]
  | some extension => simp only [← hparts]

/-- The source extension can be set before a path is read from a directory. -/
theorem withSourceExtension_join (directory : Path) (hname : path.fileName? = some name) :
    (directory.join path).withSourceExtension = directory.join path.withSourceExtension := by
  have hparts := parts_of_fileName? hname
  rw [withSourceExtension_eq hparts]
  unfold join
  by_cases habsolute : path.isAbsolute = true
  · rw [if_pos habsolute, if_pos habsolute, withSourceExtension_eq hparts]
  · rw [if_neg habsolute, if_neg habsolute]
    split_ifs with hempty
    · rw [withSourceExtension_eq hparts]
    · have hjoined : directory.parts ++ path.parts.filter (· != .current) =
          (directory.parts ++ path.parts.dropLast.filter (· != .current)) ++ [.name name] := by
        conv_lhs => rw [hparts]
        simp
      rw [withSourceExtension_eq hjoined]
      simp

/-- A path in a directory leads where it leads from the place of the directory. -/
theorem lead_join (directory path : Path) (start : List String) :
    (directory.join path).lead start = path.lead (directory.lead start) := by
  unfold join
  split_ifs with habsolute hempty
  · simp [lead, habsolute]
  · obtain ⟨hrelative, hparts⟩ : directory.isAbsolute = false ∧ directory.parts = [] := by
      simpa using hempty
    have hstays : directory.lead start = start := by simp [lead, hrelative, hparts, follow]
    rw [hstays]
  · unfold lead
    rw [follow_append, follow_filter_current, if_neg habsolute]

/-- A path in a directory starts at the root if one of them does. -/
theorem isAbsolute_join (directory path : Path) :
    (directory.join path).isAbsolute ↔ path.isAbsolute ∨ directory.isAbsolute := by
  unfold join
  split_ifs with habsolute hempty
  · simp [habsolute]
  · have hrelative : directory.isAbsolute = false := by
      simpa using (Bool.and_eq_true_iff.mp hempty).1
    simp [hrelative]
  · simp [habsolute]

/-- A relative path in a directory climbs as far as the two in a row. -/
theorem climb_join (directory : Path) (habsolute : ¬ path.isAbsolute) :
    climb (directory.join path).parts = climb (directory.parts ++ path.parts) := by
  unfold join
  rw [if_neg habsolute]
  split_ifs with hempty
  · have hparts : directory.parts = [] := by
      simpa using (Bool.and_eq_true_iff.mp hempty).2
    rw [hparts, List.nil_append]
  · exact climb_append_filter_current _ _

/-- What an import resolves to is the normal form of the path in the importer's directory, with the
source extension set last. -/
theorem resolve_eq_normal (path importer : String) :
    resolve path importer =
      ((ofText importer).directory.join (ofText path)).withSourceExtension.normal := by
  unfold resolve directory
  cases (ofText importer).parent? with
  | some directory => rfl
  | none =>
    have hstart : (⟨false, []⟩ : Path).join (ofText path) = ofText path := by simp [join]
    rw [Option.getD_none, hstart]

/-- For a path with a file name, the source extension can also be set first. -/
theorem resolve_eq {path importer name : String} (hname : (ofText path).fileName? = some name) :
    resolve path importer =
      ((ofText importer).directory.join (ofText path).withSourceExtension).normal := by
  rw [← withSourceExtension_join _ hname]
  exact resolve_eq_normal path importer

/-- The source extension keeps components as readable as they are. -/
theorem readable_of_mem_withSourceExtension
    (hpath : ∀ part ∈ path.parts, part = .current ∨ part.Readable) :
    ∀ part ∈ path.withSourceExtension.parts, part = .current ∨ part.Readable := by
  intro part hpart
  cases hname : path.fileName? with
  | none =>
    have hsame : path.withSourceExtension = path := by
      unfold withSourceExtension
      rw [hname]
    rw [hsame] at hpart
    exact hpath part hpart
  | some name =>
    have hparts := parts_of_fileName? hname
    rw [withSourceExtension_eq hparts] at hpart
    rcases List.mem_append.mp hpart with hpart | hpart
    · exact hpath part (List.dropLast_subset _ hpart)
    · rw [List.mem_singleton.mp hpart]
      have hlast : PathPart.name name ∈ path.parts := by
        rw [hparts]
        simp
      have hreadable := (hpath _ hlast).resolve_left (by simp)
      right
      unfold extended
      split
      · exact readable_name_withExtension hreadable
      · exact hreadable

/-- What an import resolves to is read back from its text. -/
theorem readable_resolve (path importer : String) : (resolve path importer).Readable := by
  have hdirectory : ∀ part ∈ (ofText importer).directory.parts,
      part = .current ∨ part.Readable := by
    intro part hpart
    unfold directory parent? at hpart
    split_ifs at hpart with hempty
    · cases hpart
    · exact readable_of_mem_ofText (List.dropLast_subset _ hpart)
  rw [resolve_eq_normal]
  refine readable_normal (readable_of_mem_withSourceExtension fun part hpart => ?_)
  unfold join at hpart
  split_ifs at hpart with habsolute hempty
  · exact readable_of_mem_ofText hpart
  · exact readable_of_mem_ofText hpart
  · rcases List.mem_append.mp hpart with hpart | hpart
    · exact hdirectory part hpart
    · exact readable_of_mem_ofText (List.mem_filter.mp hpart).1

end Resolve

/-- The key of a module leads where the module's path leads, from every directory that is deep
enough for the path, exactly if the path starts at the root or climbs at most one level. And what
the path of an import resolves to leads where this path, with the source extension, leads from the
directory of the importing module, exactly if one of the two starts at the root or they climb at
most one level together. -/
theorem key_keeps_place_iff (path importer : String) :
    (((ofText path).isAbsolute ∨ climb (ofText path).parts ≤ 1) ↔
      ∀ start : List String, climb (ofText path).parts ≤ start.length →
        (ofText (moduleKey path)).lead start = (ofText path).lead start) ∧
    ((ofText path).fileName?.isSome →
      let wanted := (ofText path).withSourceExtension
      let directory := (ofText importer).directory
      ((wanted.isAbsolute ∨ directory.isAbsolute) ∨ climb (directory.parts ++ wanted.parts) ≤ 1) ↔
        ∀ start : List String, climb (directory.parts ++ wanted.parts) ≤ start.length →
          (ofText (resolve path importer).text).lead start =
            wanted.lead (directory.lead start)) := by
  constructor
  · have hread : ofText (moduleKey path) = (ofText path).normal :=
      ofText_text (readable_normal fun part hpart => readable_of_mem_ofText hpart)
    rw [hread]
    exact normal_lead_iff (ofText path)
  · intro hsome wanted directory
    obtain ⟨name, hname⟩ := Option.isSome_iff_exists.mp hsome
    have hread : ofText (resolve path importer).text = (directory.join wanted).normal :=
      (ofText_text (readable_resolve path importer)).trans (resolve_eq hname)
    rw [hread]
    simp only [← lead_join]
    by_cases habsolute : wanted.isAbsolute = true
    · refine iff_of_true (.inl (.inl habsolute)) fun start _ => ?_
      exact normal_lead (.inl ((isAbsolute_join directory wanted).mpr (.inl habsolute))) start
    · rw [← climb_join directory habsolute, ← isAbsolute_join]
      exact normal_lead_iff (directory.join wanted)

/-- An import from above the importing module's directory keeps its place, through detours. -/
theorem resolve_keeps_place_above :
    (ofText "./lib/../../shared").fileName?.isSome ∧
      climb ((ofText "app/../src/main.kes").directory.parts ++
        (ofText "./lib/../../shared").withSourceExtension.parts) ≤ 1 ∧
      (ofText (resolve "./lib/../../shared" "app/../src/main.kes").text).lead ["home"] =
        (ofText "./lib/../../shared").withSourceExtension.lead
          ((ofText "app/../src/main.kes").directory.lead ["home"]) := by
  have hname : (ofText "./lib/../../shared").fileName?.isSome := by decide
  have hclimb : climb ((ofText "app/../src/main.kes").directory.parts ++
      (ofText "./lib/../../shared").withSourceExtension.parts) ≤ 1 := by decide
  have hkeeps := (key_keeps_place_iff "./lib/../../shared" "app/../src/main.kes").2 hname
  exact ⟨hname, hclimb, hkeeps.mp (.inr hclimb) ["home"] (by decide)⟩

/-- Of two `..` at the start of a path, neither is kept: the key leads to the starting directory. -/
theorem moduleKey_loses_two_levels :
    ¬ ∀ (path : String) (start : List String), climb (ofText path).parts ≤ start.length →
      (ofText (moduleKey path)).lead start = (ofText path).lead start := by
  intro hkeeps
  have hplace := hkeeps "../../x" ["inner", "outer"] (by decide)
  revert hplace
  decide

end Path

end Kestrel
