import ListingFilter.Error
import Mathlib.Data.List.Forall2

namespace ListingFilter

section

variable {α β : Type} {x : Except FilterError α} {e : FilterError}

def error? : Except FilterError α → Option FilterError
  | .ok _ => none
  | .error e => some e

theorem error?_eq_some_iff : error? x = some e ↔ x = .error e := by
  cases x <;> simp [error?]

theorem error?_map (x : Except FilterError α) (f : α → β) : error? (x.map f) = error? x := by
  cases x <;> rfl

theorem error?_bind {f : α → Except FilterError β} {later? : Option FilterError}
    (h : ∀ a, x = .ok a → error? (f a) = later?) : error? (x >>= f) = (error? x).or later? := by
  cases x with
  | error e => rfl
  | ok a => exact h a rfl

theorem error?_mapM (f : α → Except FilterError β) (as : List α) :
    error? (as.mapM f) = as.findSome? fun a ↦ error? (f a) := by
  induction as with
  | nil => rfl
  | cons a as ih =>
    have later : ∀ b, f a = .ok b →
        error? (as.mapM f >>= fun bs ↦ pure (b :: bs)) = as.findSome? fun a ↦ error? (f a) := by
      intro b _
      have rest : error? (as.mapM f >>= fun bs ↦ pure (b :: bs)) = (error? (as.mapM f)).or none :=
        error?_bind fun _ _ ↦ rfl
      rw [rest, Option.or_none, ih]
    rw [List.mapM_cons, error?_bind later, List.findSome?_cons]
    cases error? (f a) <;> rfl

theorem eq_error_of_map_eq_error {f : α → β} (h : x.map f = .error e) : x = .error e := by
  rw [← error?_eq_some_iff, error?_map] at h
  exact error?_eq_some_iff.1 h

theorem eq_error_or_exists_of_bind_eq_error {f : α → Except FilterError β}
    (h : x >>= f = .error e) : x = .error e ∨ ∃ a, x = .ok a ∧ f a = .error e := by
  cases x with
  | error e' =>
    cases h
    exact .inl rfl
  | ok a => exact .inr ⟨a, rfl, h⟩

theorem exists_of_mapM_eq_error {f : α → Except FilterError β} {as : List α}
    (h : as.mapM f = .error e) : ∃ a ∈ as, f a = .error e := by
  rw [← error?_eq_some_iff, error?_mapM] at h
  obtain ⟨a, ha, he⟩ := List.exists_of_findSome?_eq_some h
  exact ⟨a, ha, error?_eq_some_iff.1 he⟩

theorem mapM_eq_ok_iff {ε : Type} {f : α → Except ε β} {as : List α} {bs : List β} :
    as.mapM f = .ok bs ↔ List.Forall₂ (fun a b ↦ f a = .ok b) as bs := by
  constructor
  · intro h
    induction as generalizing bs with
    | nil =>
      cases h
      exact .nil
    | cons a as ih =>
      rw [List.mapM_cons] at h
      obtain ⟨b, hb, h⟩ := exists_of_bind_eq_ok h
      obtain ⟨bs, hbs, h⟩ := exists_of_bind_eq_ok h
      cases h
      exact .cons hb (ih hbs)
  · intro h
    induction h with
    | nil => rfl
    | cons head _ ih =>
      rw [List.mapM_cons, head, ih]
      rfl

theorem forall_of_mapM_eq_ok {f : α → Except FilterError β} {P : β → Prop} {as : List α}
    {bs : List β} (h : as.mapM f = .ok bs) (hf : ∀ a ∈ as, ∀ b, f a = .ok b → P b) :
    ∀ b ∈ bs, P b := by
  rw [mapM_eq_ok_iff] at h
  induction h with
  | nil => exact List.forall_mem_nil P
  | cons head _ ih =>
    obtain ⟨first, others⟩ := List.forall_mem_cons.1 hf
    exact List.forall_mem_cons.2 ⟨first _ head, ih others⟩

theorem mapM_append_cons {f : α → Except FilterError β} {former others : List α} {bs ds : List β}
    (hf : former.mapM f = .ok bs) (ho : others.mapM f = .ok ds) (a : α) :
    (former ++ a :: others).mapM f = (f a).map fun b ↦ bs ++ b :: ds := by
  rw [List.mapM_append, List.mapM_cons, hf, ho]
  cases f a <;> rfl

theorem exists_of_mapM_append_cons {f : α → Except FilterError β} {former others : List α} {a : α}
    {parts : List β} (h : (former ++ a :: others).mapM f = .ok parts) :
    ∃ bs b ds, parts = bs ++ b :: ds ∧ former.mapM f = .ok bs ∧ f a = .ok b ∧
      others.mapM f = .ok ds := by
  rw [List.mapM_append] at h
  obtain ⟨bs, hbs, h⟩ := exists_of_bind_eq_ok h
  obtain ⟨more, hmore, h⟩ := exists_of_bind_eq_ok h
  cases h
  rw [List.mapM_cons] at hmore
  obtain ⟨b, hb, h⟩ := exists_of_bind_eq_ok hmore
  obtain ⟨ds, hds, h⟩ := exists_of_bind_eq_ok h
  cases h
  exact ⟨bs, b, ds, rfl, hbs, hb, hds⟩

end

end ListingFilter
