/-!
# Maps in insertion order

A map from names to values that remembers in which order its names came. Writing to a name that is
present keeps the name's place; a name that was removed and comes back goes to the end.
-/

namespace Kestrel

/-- A finite map whose keys are listed in insertion order, each once. -/
structure OrderedMap (α : Type) where
  entries : List (String × α)
  nodup_keys : (entries.map Prod.fst).Nodup

namespace OrderedMap

variable {α : Type}

/-- The map without entries. -/
def empty : OrderedMap α := ⟨[], List.Pairwise.nil⟩

instance : Inhabited (OrderedMap α) := ⟨empty⟩

/-- The keys in order. -/
def keys (map : OrderedMap α) : List String := map.entries.map Prod.fst

/-- The values in the order of their keys. -/
def values (map : OrderedMap α) : List α := map.entries.map Prod.snd

/-- The number of entries. -/
def size (map : OrderedMap α) : Nat := map.entries.length

/-- The value of a key in a list of entries. -/
def lookupIn (key : String) : List (String × α) → Option α
  | [] => none
  | (name, value) :: others => if name = key then some value else lookupIn key others

/-- The value of a key, if it has one. -/
def get? (map : OrderedMap α) (key : String) : Option α := lookupIn key map.entries

/-- Whether a key has a value. -/
def contains (map : OrderedMap α) (key : String) : Bool := (map.get? key).isSome

/-- Writes to a list of entries: in place, or else at the end. -/
def insertIn (key : String) (value : α) : List (String × α) → List (String × α)
  | [] => [(key, value)]
  | (name, old) :: others =>
    if name = key then (key, value) :: others else (name, old) :: insertIn key value others

/-- A list of entries without those of a key. -/
def eraseIn (key : String) (entries : List (String × α)) : List (String × α) :=
  entries.filter fun entry => entry.1 ≠ key

/-- Inserting keeps the keys in their order, and puts a new key behind them. -/
theorem keys_insertIn (key : String) (value : α) (entries : List (String × α)) :
    (insertIn key value entries).map Prod.fst =
      if key ∈ entries.map Prod.fst then entries.map Prod.fst
      else entries.map Prod.fst ++ [key] := by
  induction entries with
  | nil => simp [insertIn]
  | cons entry others ih =>
    obtain ⟨name, old⟩ := entry
    by_cases h : name = key
    · simp [insertIn, h]
    · have h' : ¬ key = name := fun e => h e.symm
      simp only [insertIn, h, if_false, List.map_cons, ih, List.mem_cons, h', false_or]
      split <;> simp

/-- Inserting brings in no key a second time. -/
theorem nodup_insertIn {entries : List (String × α)} (key : String) (value : α)
    (h : (entries.map Prod.fst).Nodup) : ((insertIn key value entries).map Prod.fst).Nodup := by
  rw [keys_insertIn]
  split
  · exact h
  · next hkey =>
    refine List.nodup_append.2 ⟨h, by simp, ?_⟩
    intro a ha b hb
    rw [List.mem_singleton.1 hb]
    rintro rfl
    exact hkey ha

/-- Erasing leaves no key twice. -/
theorem nodup_eraseIn {entries : List (String × α)} (key : String)
    (h : (entries.map Prod.fst).Nodup) : ((eraseIn key entries).map Prod.fst).Nodup :=
  h.sublist (List.filter_sublist.map _)

/-- The map in which a key has a given value. -/
def insert (map : OrderedMap α) (key : String) (value : α) : OrderedMap α :=
  ⟨insertIn key value map.entries, nodup_insertIn key value map.nodup_keys⟩

/-- The map without a key. -/
def erase (map : OrderedMap α) (key : String) : OrderedMap α :=
  ⟨eraseIn key map.entries, nodup_eraseIn key map.nodup_keys⟩

/-- The map with these entries, of which a later one overwrites an earlier one of the same key. -/
def ofList (entries : List (String × α)) : OrderedMap α :=
  entries.foldl (fun map entry => map.insert entry.1 entry.2) empty

end OrderedMap

end Kestrel
