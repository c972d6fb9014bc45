import ListingFilter.Table
import Mathlib.Data.List.Forall2

namespace ListingFilter.Table

def under {α : Type} (name : Text) (entries : List (Text × α)) : List α :=
  (entries.filter (·.1 = name)).map Prod.snd

variable {α β : Type} {name other : Text}

theorem under_cons_self (a : α) (entries : List (Text × α)) :
    under name ((name, a) :: entries) = a :: under name entries := by
  simp [under]

theorem under_cons_of_ne (h : other ≠ name) (a : α) (entries : List (Text × α)) :
    under name ((other, a) :: entries) = under name entries := by
  simp [under, h]

/-- Of several values under a name a table keeps the last. -/
theorem get?_foldl_insert (t : Table α) (entries : List (Text × α)) (name : Text) :
    (entries.foldl (fun t (name, value) ↦ t.insert name value) t).get? name =
      (under name entries).getLast?.or (t.get? name) := by
  induction entries generalizing t with
  | nil => rfl
  | cons entry entries ih =>
    obtain ⟨other, a⟩ := entry
    rw [List.foldl_cons, ih, get?_insert]
    by_cases h : other = name
    · subst h
      simp [under_cons_self, List.getLast?_cons]
    · simp [under_cons_of_ne h, h]

theorem get?_ofList (entries : List (Text × α)) (name : Text) :
    (ofList entries).get? name = (under name entries).getLast? := by
  rw [ofList, get?_foldl_insert, get?_empty, Option.or_none]

theorem under_map (f : α → β) (name : Text) (entries : List (Text × α)) :
    under name (entries.map fun e ↦ (e.1, f e.2)) = (under name entries).map f := by
  simp [under, List.filter_map, Function.comp_def]

theorem under_eq_toList_find? {entries : List (Text × α)} (h : (entries.map Prod.fst).Nodup)
    (name : Text) : under name entries = (find? name entries).toList := by
  induction entries with
  | nil => rfl
  | cons entry entries ih =>
    obtain ⟨other, a⟩ := entry
    obtain ⟨hn, hd⟩ := List.nodup_cons.1 h
    by_cases he : other = name
    · subst he
      have none_later : under other entries = [] := by
        simp only [under, List.map_eq_nil_iff, List.filter_eq_nil_iff, decide_eq_true_eq]
        intro e he hname
        exact hn (List.mem_map.2 ⟨e, he, hname⟩)
      rw [under_cons_self, none_later, find?, if_pos rfl]
      rfl
    · rw [under_cons_of_ne he, find?, if_neg he]
      exact ih hd

theorem under_entries (t : Table α) (name : Text) :
    under name t.entries = (t.get? name).toList :=
  under_eq_toList_find? t.nodup_keys name

end ListingFilter.Table
