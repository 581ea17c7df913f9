import Kestrel.OrderedMap
import Mathlib.Data.List.Basic

/-!
# What ordered maps hold

The values of a map after a change to it, and the value that a key has.
-/

namespace Kestrel

namespace OrderedMap

variable {α : Type} {map : OrderedMap α} {key : String} {value : α}

/-- The value of a key is one of the values. -/
theorem mem_values_of_get? (hget : map.get? key = some value) : value ∈ map.values := by
  obtain ⟨entries, hnodup⟩ := map
  unfold get? at hget
  unfold values
  dsimp only at hget ⊢
  clear hnodup
  induction entries with
  | nil => cases hget
  | cons entry others ih =>
    obtain ⟨name, first⟩ := entry
    rw [lookupIn] at hget
    split_ifs at hget with hname
    · cases hget
      simp
    · exact List.mem_cons_of_mem _ (ih hget)

/-- After a key got a value, there are this value and some of those that were there before. -/
theorem mem_values_insert {other : α} (hother : other ∈ (map.insert key value).values) :
    other = value ∨ other ∈ map.values := by
  obtain ⟨entries, hnodup⟩ := map
  unfold insert values at hother
  unfold values
  dsimp only at hother ⊢
  clear hnodup
  induction entries with
  | nil => simpa [insertIn] using hother
  | cons entry others ih =>
    obtain ⟨name, first⟩ := entry
    rw [insertIn] at hother
    split_ifs at hother with hname
    · rcases List.mem_cons.mp hother with rfl | hother
      · exact .inl rfl
      · exact .inr (List.mem_cons_of_mem _ hother)
    · rcases List.mem_cons.mp hother with rfl | hother
      · exact .inr (by simp)
      · exact (ih hother).imp_right (List.mem_cons_of_mem _)

/-- Without a key, there are only values that were there before. -/
theorem mem_values_erase {other : α} (hother : other ∈ (map.erase key).values) :
    other ∈ map.values :=
  (List.filter_sublist.map Prod.snd).subset hother

/-- A map that was made from entries holds only values of these. -/
theorem mem_values_ofList {entries : List (String × α)} {other : α}
    (hother : other ∈ (ofList entries).values) : other ∈ entries.map Prod.snd := by
  have hfold : ∀ (entries : List (String × α)) (map : OrderedMap α),
      other ∈ (entries.foldl (fun map entry => map.insert entry.1 entry.2) map).values →
        other ∈ map.values ∨ other ∈ entries.map Prod.snd := by
    intro entries
    induction entries with
    | nil => exact fun map hmem => .inl hmem
    | cons entry others ih =>
      intro map hmem
      rcases ih _ hmem with hmem | hmem
      · rcases mem_values_insert hmem with rfl | hmem
        · exact .inr (by simp)
        · exact .inl hmem
      · exact .inr (List.mem_cons_of_mem _ hmem)
  exact (hfold entries empty hother).resolve_left (by simp [empty, values])

/-- A key that is written to keeps its place, or comes at the end. -/
theorem keys_insert (map : OrderedMap α) (key : String) (value : α) :
    (map.insert key value).keys = if key ∈ map.keys then map.keys else map.keys ++ [key] :=
  keys_insertIn key value map.entries

/-- A key that is there keeps its place when it is written to, and so do all others. -/
theorem keys_insert_of_mem (hkey : key ∈ map.keys) (value : α) :
    (map.insert key value).keys = map.keys := by
  rw [keys_insert, if_pos hkey]

/-- A map that was made from entries has their keys. -/
theorem mem_keys_ofList {entries : List (String × α)} :
    key ∈ (ofList entries).keys ↔ key ∈ entries.map Prod.fst := by
  have hfold : ∀ (entries : List (String × α)) (map : OrderedMap α),
      key ∈ (entries.foldl (fun map entry => map.insert entry.1 entry.2) map).keys ↔
        key ∈ map.keys ∨ key ∈ entries.map Prod.fst := by
    intro entries
    induction entries with
    | nil => simp
    | cons entry others ih =>
      intro map
      rw [List.foldl_cons, ih, keys_insert, List.map_cons, List.mem_cons, ← or_assoc]
      refine or_congr_left ?_
      split_ifs with hentry
      · exact (or_iff_left_of_imp fun hkey => hkey ▸ hentry).symm
      · rw [List.mem_append, List.mem_singleton]
  rw [ofList, hfold]
  simp [empty, keys]

/-- A map that was made from entries with different keys has the keys in their order. -/
theorem keys_ofList_of_nodup {entries : List (String × α)}
    (hnodup : (entries.map Prod.fst).Nodup) : (ofList entries).keys = entries.map Prod.fst := by
  have hfold : ∀ (entries : List (String × α)) (map : OrderedMap α),
      (map.keys ++ entries.map Prod.fst).Nodup →
        (entries.foldl (fun map entry => map.insert entry.1 entry.2) map).keys =
          map.keys ++ entries.map Prod.fst := by
    intro entries
    induction entries with
    | nil => simp
    | cons entry others ih =>
      intro map hnodup
      rw [List.map_cons, List.append_cons] at hnodup
      have hfirst := (List.nodup_append.mp hnodup).1
      have hnew : entry.1 ∉ map.keys := fun hmem =>
        (List.nodup_append.mp hfirst).2.2 _ hmem _ (List.mem_singleton_self _) rfl
      have hkeys : (map.insert entry.1 entry.2).keys = map.keys ++ [entry.1] := by
        rw [keys_insert, if_neg hnew]
      rw [List.foldl_cons, ih _ (by rwa [hkeys]), hkeys, List.map_cons, ← List.append_cons]
  exact hfold entries empty hnodup

/-- A map contains its keys. -/
theorem contains_iff : map.contains key ↔ key ∈ map.keys := by
  obtain ⟨entries, hnodup⟩ := map
  unfold contains get? keys
  dsimp only
  clear hnodup
  induction entries with
  | nil => simp [lookupIn]
  | cons entry others ih =>
    obtain ⟨name, first⟩ := entry
    rw [lookupIn]
    split_ifs with hname
    · simp [hname]
    · simpa [Ne.symm hname] using ih

/-- A key has the value that stands with it in the entries. -/
theorem get?_eq_some_iff : map.get? key = some value ↔ (key, value) ∈ map.entries := by
  obtain ⟨entries, hnodup⟩ := map
  unfold get?
  dsimp only
  induction entries with
  | nil => simp [lookupIn]
  | cons entry others ih =>
    obtain ⟨name, first⟩ := entry
    rw [List.map_cons, List.nodup_cons] at hnodup
    obtain ⟨hnew, hothers⟩ := hnodup
    rw [lookupIn]
    split_ifs with hname
    · subst hname
      have hfirst : (name, value) ∉ others := fun hmem =>
        hnew (List.mem_map.mpr ⟨(name, value), hmem, rfl⟩)
      simp [hfirst, eq_comm]
    · rw [ih hothers]
      simp [Ne.symm hname]

/-- A written key has the value that was written, and all others have what they had. -/
theorem get?_insert (map : OrderedMap α) (key : String) (value : α) (name : String) :
    (map.insert key value).get? name = if name = key then some value else map.get? name := by
  obtain ⟨entries, hnodup⟩ := map
  unfold get? insert
  dsimp only
  clear hnodup
  induction entries with
  | nil => simp [insertIn, lookupIn, eq_comm]
  | cons entry others ih =>
    obtain ⟨first, old⟩ := entry
    rw [insertIn]
    by_cases hfirst : first = key
    · rw [if_pos hfirst, lookupIn, lookupIn, hfirst]
      by_cases hname : name = key <;> simp [hname, Ne.symm]
    · rw [if_neg hfirst, lookupIn, lookupIn, ih]
      by_cases hname : first = name
      · simp [← hname, hfirst]
      · simp [hname]

/-- A written entry takes the place of the one with its key, or comes at the end. -/
theorem entries_insert (map : OrderedMap α) (key : String) (value : α) :
    (map.insert key value).entries =
      if key ∈ map.keys then
        map.entries.map fun entry => if entry.1 = key then (key, value) else entry
      else map.entries ++ [(key, value)] := by
  obtain ⟨entries, hnodup⟩ := map
  unfold insert keys
  dsimp only
  induction entries with
  | nil => rfl
  | cons entry others ih =>
    rw [List.map_cons, List.nodup_cons] at hnodup
    obtain ⟨hnew, hothers⟩ := hnodup
    obtain ⟨first, old⟩ := entry
    rw [insertIn]
    by_cases hfirst : first = key
    · subst hfirst
      have hsame : (others.map fun entry => if entry.1 = first then (first, value) else entry) =
          others := by
        conv_rhs => rw [← List.map_id others]
        apply List.map_congr_left
        intro entry hentry
        apply if_neg
        rintro rfl
        exact hnew (List.mem_map.mpr ⟨entry, hentry, rfl⟩)
      simp [hsame]
    · have hne : ¬ key = first := fun hkey => hfirst hkey.symm
      rw [if_neg hfirst, ih hothers]
      by_cases hkey : key ∈ others.map Prod.fst
      · simp [hkey, hfirst]
      · simp [hkey, hne]

/-- An erased key has no value, and all others have what they had. -/
theorem get?_erase (map : OrderedMap α) (key name : String) :
    (map.erase key).get? name = if name = key then none else map.get? name := by
  ext value
  rw [get?_eq_some_iff]
  change (name, value) ∈ map.entries.filter _ ↔ _
  rw [List.mem_filter, ← get?_eq_some_iff]
  by_cases hname : name = key <;> simp [hname]

end OrderedMap

end Kestrel
