import ListingFilter.Text.Basic

namespace ListingFilter.Text

variable {c : Char} {mark t u w after : Text}

theorem splitOnce?_append (hw : c ∉ w) (mark t : Text) :
    splitOnce? (c :: mark) (w ++ t) =
      (splitOnce? (c :: mark) t).map fun (before, after) ↦ (w ++ before, after) := by
  induction w with
  | nil => simp
  | cons d w ih =>
    simp only [List.mem_cons, not_or] at hw
    rw [List.cons_append, splitOnce?, after?, if_neg hw.1, ih hw.2, Option.map_map]
    rfl

theorem splitOnce?_cons_of_after?_eq_some (h : after? mark t = some after) :
    splitOnce? (c :: mark) (c :: t) = some ([], after) := by
  simp [splitOnce?, after?, h]

theorem splitOnce?_cons_of_after?_eq_none (h : after? mark t = none) :
    splitOnce? (c :: mark) (c :: t) =
      (splitOnce? (c :: mark) t).map fun (before, after) ↦ (c :: before, after) := by
  simp [splitOnce?, after?, h]

theorem splitOnce?_singleton_append (hw : c ∉ w) (t : Text) :
    splitOnce? [c] (w ++ c :: t) = some (w, t) := by
  rw [splitOnce?_append hw, splitOnce?_cons_of_after?_eq_some rfl]
  simp

theorem splitOnce?_eq_none_of_not_mem (ht : c ∉ t) (mark : Text) :
    splitOnce? (c :: mark) t = none := by
  have h := splitOnce?_append ht mark []
  rw [List.append_nil] at h
  rw [h]
  rfl

theorem isSome_after? (mark t : Text) : (after? mark t).isSome = mark.isPrefixOf t := by
  induction mark generalizing t with
  | nil => simp [after?]
  | cons m mark ih =>
    cases t with
    | nil => rfl
    | cons c t =>
      by_cases hm : m = c
      · simp [after?, List.isPrefixOf, hm, ih]
      · simp [after?, List.isPrefixOf, hm]

theorem occurs_iff : occurs mark t = true ↔ mark <:+: t := by
  induction t with
  | nil => simp [occurs]
  | cons c t ih =>
    rw [occurs, Bool.or_eq_true, ih, List.isPrefixOf_iff_prefix, List.infix_cons_iff]

theorem isSome_splitOnce? (mark t : Text) : (splitOnce? mark t).isSome = occurs mark t := by
  induction t with
  | nil => cases mark <;> rfl
  | cons c t ih =>
    have hp := isSome_after? mark (c :: t)
    rw [occurs, splitOnce?]
    cases ha : after? mark (c :: t) with
    | some after =>
      rw [ha] at hp
      rw [← hp]
      rfl
    | none =>
      rw [ha] at hp
      rw [← hp, ← ih]
      simp

theorem splitOnce?_eq_none_iff : splitOnce? mark t = none ↔ ¬ mark <:+: t := by
  rw [← Option.not_isSome_iff_eq_none, isSome_splitOnce?, occurs_iff]

theorem infix_of_infix_append_cons (hm : c ∉ mark) (h : mark <:+: t ++ c :: u) :
    mark <:+: t ∨ mark <:+: u := by
  have start : ∀ v, c ∉ v → v <+: c :: u → v = [] := by
    intro v hv hp
    cases v with
    | nil => rfl
    | cons d v =>
      obtain rfl := (List.cons_prefix_cons.1 hp).1
      exact absurd List.mem_cons_self hv
  rcases List.infix_append_iff.1 h with h | h | ⟨v, w, rfl, hv, hw⟩
  · exact .inl h
  · rcases List.infix_cons_iff.1 h with h | h
    · rw [start mark hm h]
      exact .inl List.nil_infix
    · exact .inr h
  · rw [List.mem_append, not_or] at hm
    rw [start w hm.2 hw, List.append_nil]
    exact .inl hv.isInfix

end ListingFilter.Text
