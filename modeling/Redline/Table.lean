namespace Redline

structure Table (κ ν : Type) where
  entries : List (κ × ν)
  deriving DecidableEq, Repr

namespace Table

variable {κ ν : Type} [DecidableEq κ]

def empty : Table κ ν := ⟨[]⟩

def get? (table : Table κ ν) (key : κ) : Option ν := table.entries.lookup key

def contains (table : Table κ ν) (key : κ) : Bool := (table.get? key).isSome

def setEntry (key : κ) (value : ν) : List (κ × ν) → List (κ × ν)
  | [] => [(key, value)]
  | entry :: rest =>
      if entry.1 = key then (key, value) :: rest else entry :: setEntry key value rest

def set (table : Table κ ν) (key : κ) (value : ν) : Table κ ν :=
  ⟨setEntry key value table.entries⟩

def erase (table : Table κ ν) (key : κ) : Table κ ν :=
  ⟨table.entries.filter (fun entry => entry.1 ≠ key)⟩

def keys (table : Table κ ν) : List κ := table.entries.map Prod.fst

def size (table : Table κ ν) : Nat := table.entries.length

def mapValues (update : ν → ν) (table : Table κ ν) : Table κ ν :=
  ⟨table.entries.map (fun entry => (entry.1, update entry.2))⟩

@[simp] theorem get?_empty (key : κ) : (empty : Table κ ν).get? key = none := rfl

theorem lookup_cons (entry : κ × ν) (rest : List (κ × ν)) (key : κ) :
    (entry :: rest).lookup key = if key = entry.1 then some entry.2 else rest.lookup key := by
  rcases entry with ⟨first, value⟩
  by_cases here : key = first
  · subst here
    simp
  · rw [List.lookup_cons, beq_eq_false_iff_ne.mpr here, if_neg here]

theorem get?_set (table : Table κ ν) (key other : κ) (value : ν) :
    (table.set key value).get? other = if other = key then some value else table.get? other := by
  show (setEntry key value table.entries).lookup other = _
  rw [get?]
  induction table.entries with
  | nil => rw [setEntry, lookup_cons]
  | cons entry rest ih =>
      rw [setEntry]
      by_cases found : entry.1 = key
      · rw [if_pos found, lookup_cons, lookup_cons, found]
        by_cases here : other = key
        · rw [if_pos here, if_pos here]
        · rw [if_neg here, if_neg here, if_neg here]
      · rw [if_neg found, lookup_cons, lookup_cons, ih]
        by_cases here : other = entry.1
        · rw [if_pos here, if_pos here, if_neg (here ▸ found)]
        · rw [if_neg here, if_neg here]

theorem setEntry_cons (key : κ) (value : ν) (entry : κ × ν) (rest : List (κ × ν)) :
    setEntry key value (entry :: rest) =
      if entry.1 = key then (key, value) :: rest else entry :: setEntry key value rest := rfl

theorem set_set (table : Table κ ν) (key : κ) (first second : ν) :
    (table.set key first).set key second = table.set key second := by
  have twice (entries : List (κ × ν)) :
      setEntry key second (setEntry key first entries) = setEntry key second entries := by
    induction entries with
    | nil => exact if_pos rfl
    | cons entry rest ih =>
        rw [setEntry_cons, setEntry_cons]
        by_cases found : entry.1 = key
        · rw [if_pos found, if_pos found, setEntry_cons, if_pos rfl]
        · rw [if_neg found, if_neg found, setEntry_cons, if_neg found, ih]
  exact congrArg Table.mk (twice table.entries)

theorem set_get? {table : Table κ ν} {key : κ} {value : ν} (found : table.get? key = some value) :
    table.set key value = table := by
  have same (entries : List (κ × ν)) (here : entries.lookup key = some value) :
      setEntry key value entries = entries := by
    induction entries with
    | nil => cases here
    | cons entry rest ih =>
        rw [lookup_cons] at here
        rw [setEntry_cons]
        by_cases first : entry.1 = key
        · rw [if_pos first.symm] at here
          rw [if_pos first, ← first, ← Option.some.inj here]
        · rw [if_neg (Ne.symm first)] at here
          rw [if_neg first, ih here]
  exact congrArg Table.mk (same table.entries found)

theorem keys_set (table : Table κ ν) (key : κ) (value : ν) :
    (table.set key value).keys =
      if key ∈ table.keys then table.keys else table.keys ++ [key] := by
  show (setEntry key value table.entries).map Prod.fst = _
  rw [keys]
  induction table.entries with
  | nil => rfl
  | cons entry rest ih =>
      rw [setEntry_cons]
      by_cases found : entry.1 = key
      · rw [if_pos found, if_pos (by simp [found]), List.map_cons, List.map_cons, found]
      · rw [if_neg found, List.map_cons, List.map_cons, ih]
        by_cases known : key ∈ rest.map Prod.fst
        · rw [if_pos known, if_pos (List.mem_cons_of_mem _ known)]
        · rw [if_neg known, if_neg (by simp [Ne.symm found, known]), List.cons_append]

theorem nodup_keys_set {table : Table κ ν} (distinct : table.keys.Nodup) (key : κ) (value : ν) :
    (table.set key value).keys.Nodup := by
  rw [keys_set]
  split
  · exact distinct
  · rename_i fresh
    rw [List.nodup_append]
    refine ⟨distinct, by simp, ?_⟩
    rintro other member _ (single : _ ∈ [key]) rfl
    exact fresh (List.mem_singleton.mp single ▸ member)

theorem mem_entries (table : Table κ ν) (distinct : table.keys.Nodup) {entry : κ × ν} :
    entry ∈ table.entries ↔ table.get? entry.1 = some entry.2 := by
  rw [keys] at distinct
  rw [get?]
  generalize table.entries = entries at distinct
  induction entries generalizing entry with
  | nil => simp
  | cons first rest ih =>
      rw [List.map_cons, List.nodup_cons] at distinct
      rw [List.mem_cons, lookup_cons, ih distinct.2]
      by_cases here : entry.1 = first.1
      · have absent : ¬rest.lookup first.1 = some entry.2 := by
          intro twice
          have other : (first.1, entry.2) ∈ rest := (ih distinct.2).mpr twice
          exact distinct.1 (List.mem_map.mpr ⟨_, other, rfl⟩)
        rw [here, if_pos rfl]
        simp [absent, Prod.ext_iff, here, eq_comm]
      · rw [if_neg here]
        simp [Prod.ext_iff, here]

theorem get?_mapValues (table : Table κ ν) (update : ν → ν) (key : κ) :
    (table.mapValues update).get? key = (table.get? key).map update := by
  show (table.entries.map fun entry => (entry.1, update entry.2)).lookup key = _
  rw [get?]
  induction table.entries with
  | nil => rfl
  | cons entry rest ih =>
      rw [List.map_cons, lookup_cons, lookup_cons, ih]
      split <;> rfl

theorem get?_erase (table : Table κ ν) (key other : κ) :
    (table.erase key).get? other = if other = key then none else table.get? other := by
  show (table.entries.filter fun entry => entry.1 ≠ key).lookup other = _
  rw [get?]
  induction table.entries with
  | nil => rw [List.filter_nil, List.lookup_nil, ite_self]
  | cons entry rest ih =>
      rw [List.filter_cons, lookup_cons]
      by_cases gone : entry.1 = key
      · rw [if_neg (by simp [gone]), ih, gone]
        by_cases here : other = key
        · rw [if_pos here, if_pos here]
        · rw [if_neg here, if_neg here, if_neg here]
      · rw [if_pos (by simp [gone]), lookup_cons, ih]
        by_cases here : other = entry.1
        · rw [if_pos here, if_neg (here ▸ gone), if_pos here]
        · rw [if_neg here, if_neg here]

end Table

end Redline
