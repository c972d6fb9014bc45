import ListingFilter.Text.Basic

namespace ListingFilter

structure Table (α : Type) where
  entries : List (Text × α)
  nodup_keys : (entries.map Prod.fst).Nodup

namespace Table

variable {α : Type}

/-- Entries with `value` under `name`, in the place of an entry that has this name. -/
def put (name : Text) (value : α) : List (Text × α) → List (Text × α)
  | [] => [(name, value)]
  | (other, old) :: rest =>
    if other = name then (name, value) :: rest else (other, old) :: put name value rest

def find? (name : Text) : List (Text × α) → Option α
  | [] => none
  | (other, value) :: rest => if other = name then some value else find? name rest

theorem map_fst_put (name : Text) (value : α) (entries : List (Text × α)) :
    (put name value entries).map Prod.fst =
      if name ∈ entries.map Prod.fst then entries.map Prod.fst
      else entries.map Prod.fst ++ [name] := by
  induction entries with
  | nil => simp [put]
  | cons entry rest ih =>
    obtain ⟨other, old⟩ := entry
    by_cases h : other = name
    · simp [put, h]
    · have h' : name ≠ other := Ne.symm h
      simp only [put, h, if_false, List.map_cons, ih, List.mem_cons, h', false_or]
      split <;> rfl

theorem nodup_map_fst_put {name : Text} {value : α} {entries : List (Text × α)}
    (h : (entries.map Prod.fst).Nodup) : ((put name value entries).map Prod.fst).Nodup := by
  rw [map_fst_put]
  split
  · exact h
  · next hn =>
    refine List.nodup_append.2 ⟨h, by simp, ?_⟩
    rintro a ha b hb rfl
    exact hn (List.mem_singleton.1 hb ▸ ha)

def empty : Table α := ⟨[], List.nodup_nil⟩

def insert (t : Table α) (name : Text) (value : α) : Table α :=
  ⟨put name value t.entries, nodup_map_fst_put t.nodup_keys⟩

def ofList (entries : List (Text × α)) : Table α :=
  entries.foldl (fun t (name, value) ↦ t.insert name value) empty

def get? (t : Table α) (name : Text) : Option α := find? name t.entries

def size (t : Table α) : Nat := t.entries.length

def isEmpty (t : Table α) : Bool := t.entries.isEmpty

theorem find?_put (name other : Text) (value : α) (entries : List (Text × α)) :
    find? other (put name value entries) =
      if name = other then some value else find? other entries := by
  induction entries with
  | nil => rfl
  | cons entry rest ih =>
    obtain ⟨key, old⟩ := entry
    by_cases hk : key = name
    · subst hk
      by_cases h : key = other <;> simp [put, find?, h]
    · by_cases h : key = other
      · subst h
        simp [put, find?, hk, Ne.symm hk]
      · simp [put, find?, hk, h, ih]

theorem get?_empty (name : Text) : (empty : Table α).get? name = none := rfl

theorem get?_insert (t : Table α) (name other : Text) (value : α) :
    (t.insert name value).get? other = if name = other then some value else t.get? other :=
  find?_put name other value t.entries

end Table

end ListingFilter
