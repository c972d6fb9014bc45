import ListingFilter.Json.Outline

namespace ListingFilter.Json

theorem forM_eq_ok {ε α : Type} {f : α → Except ε Unit} {as : List α}
    (h : ∀ a ∈ as, f a = .ok ()) : as.forM f = .ok () := by
  induction as with
  | nil => rfl
  | cons a as ih =>
    obtain ⟨head, tail⟩ := List.forall_mem_cons.1 h
    rw [List.forM, head]
    exact ih tail

/-- A number: a whole number and the digits behind its point, times a power of ten. -/
structure Figure where
  negative : Bool
  whole : Nat
  fraction : List (Fin 10)
  exponent? : Option Int

inductive Value
  | null
  | bool (value : Bool)
  | number (value : Figure)
  | string (value : Text)
  | list (items : List Value)
  | object (members : List (Text × Value))

theorem Value.induction {P : Value → Prop} (null : P null) (bool : ∀ value, P (bool value))
    (number : ∀ value, P (number value)) (string : ∀ value, P (string value))
    (list : ∀ items, (∀ item ∈ items, P item) → P (list items))
    (object : ∀ members, (∀ member ∈ members, P member.2) → P (object members)) (value : Value) :
    P value :=
  Value.rec (motive_1 := P) (motive_2 := fun items ↦ ∀ item ∈ items, P item)
    (motive_3 := fun members ↦ ∀ member ∈ members, P member.2) (motive_4 := fun member ↦ P member.2)
    null bool number string list object (List.forall_mem_nil _)
    (fun _ _ head tail ↦ List.forall_mem_cons.2 ⟨head, tail⟩) (List.forall_mem_nil _)
    (fun _ _ head tail ↦ List.forall_mem_cons.2 ⟨head, tail⟩) (fun _ _ h ↦ h) value

namespace Figure

def digits (n : Nat) : List Nat := (Text.ofNat n).map fun c ↦ c.toNat - '0'.toNat

def numeral (n : Figure) : Numeral where
  negative := n.negative
  whole := digits n.whole
  fraction := n.fraction.map Fin.val
  exponent? := n.exponent?.map fun e ↦ (decide (e < 0), digits e.natAbs)

def ofInt (n : Int) : Figure := ⟨decide (n < 0), n.natAbs, [], none⟩

end Figure

namespace Outline

def text (t : Text) : Outline := .leaf (.string ⟨.ok t, .ok ()⟩)

def enclosed (b : Bracket) (parts : List (List Outline)) : List Outline :=
  [.leaf .comma].intercalate parts ++ [.leaf (.closing b)]

def member (m : Text × Outline) : List Outline := [.text m.1, .leaf .colon, m.2]

def list (items : List Outline) : Outline := .group .square (enclosed .square (items.map ([·])))

def object (ms : List (Text × Outline)) : Outline := .group .curly (enclosed .curly (ms.map member))

theorem enclosed_singleton (b : Bracket) (part : List Outline) :
    enclosed b [part] = part ++ [.leaf (.closing b)] := by
  simp [enclosed]

theorem enclosed_cons_cons (b : Bracket) (part next : List Outline) (parts : List (List Outline)) :
    enclosed b (part :: next :: parts) = part ++ .leaf .comma :: enclosed b (next :: parts) := by
  simp [enclosed, List.intercalate_cons_cons]

theorem moreElements_enclosed (trailing : Fault) {items : List Outline}
    (h : ∀ o ∈ items, o ≠ .leaf (.closing .square)) (hne : items ≠ []) :
    moreElements trailing (.leaf .comma :: enclosed .square (items.map ([·]))) =
      ⟨items, .ok ()⟩ := by
  induction items with
  | nil => exact absurd rfl hne
  | cons o items ih =>
    have ho : o ≠ .leaf (.closing .square) := h o List.mem_cons_self
    cases items with
    | nil => simp [enclosed_singleton, moreElements, Contents.cons, Contents.stop]
    | cons next items =>
      have hnext := ih (fun o' ho' ↦ h o' (List.mem_cons_of_mem _ ho')) (List.cons_ne_nil _ _)
      simp only [List.map_cons] at hnext
      simp [enclosed_cons_cons, moreElements, hnext, Contents.cons]

theorem elements_enclosed (trailing : Fault) {items : List Outline}
    (h : ∀ o ∈ items, o ≠ .leaf (.closing .square)) :
    elements trailing (enclosed .square (items.map ([·]))) = ⟨items, .ok ()⟩ := by
  cases items with
  | nil => rfl
  | cons o items =>
    have ho : o ≠ .leaf (.closing .square) := h o List.mem_cons_self
    rw [← moreElements_enclosed trailing h (List.cons_ne_nil _ _)]
    cases items <;> simp [enclosed_singleton, enclosed_cons_cons, elements, moreElements]

theorem moreMembers_enclosed (trailing cut : Fault) {ms : List (Text × Outline)} (hne : ms ≠ []) :
    moreMembers trailing cut (.leaf .comma :: enclosed .curly (ms.map member)) =
      ⟨ms.map fun m ↦ ⟨⟨.ok m.1, .ok ()⟩, .ok m.2⟩, .ok ()⟩ := by
  induction ms with
  | nil => exact absurd rfl hne
  | cons m ms ih =>
    cases ms with
    | nil => simp [enclosed_singleton, moreMembers, member, text, Contents.cons, Contents.stop]
    | cons next ms =>
      have hnext := ih (List.cons_ne_nil _ _)
      simp only [List.map_cons, member, text] at hnext
      simp [enclosed_cons_cons, member, text, moreMembers, hnext, Contents.cons]

theorem members_enclosed (trailing cut : Fault) (ms : List (Text × Outline)) :
    members trailing cut (enclosed .curly (ms.map member)) =
      ⟨ms.map fun m ↦ ⟨⟨.ok m.1, .ok ()⟩, .ok m.2⟩, .ok ()⟩ := by
  cases ms with
  | nil => rfl
  | cons m ms =>
    rw [← moreMembers_enclosed trailing cut (List.cons_ne_nil _ _)]
    cases ms <;> simp [enclosed_singleton, enclosed_cons_cons, members, member, text]

theorem skip_list {items : List Outline} (h : ∀ o ∈ items, o ≠ .leaf (.closing .square))
    (each : ∀ o ∈ items, o.skip = .ok ()) : (list items).skip = .ok () := by
  have contents := elements_enclosed .expectedValue h
  rw [list, skip]
  refine (congrArg (· >>= _) (forM_eq_ok fun item _ ↦ ?_)).trans (by rw [contents]; rfl)
  obtain ⟨o, ho⟩ := item
  rw [contents] at ho
  exact each o ho

theorem skip_object {ms : List (Text × Outline)} (each : ∀ m ∈ ms, m.2.skip = .ok ()) :
    (object ms).skip = .ok () := by
  have contents := members_enclosed .keyNotString .endInObject ms
  rw [object, skip]
  refine (congrArg (· >>= _) (forM_eq_ok fun item _ ↦ ?_)).trans (by rw [contents]; rfl)
  obtain ⟨m, hm⟩ := item
  rw [contents] at hm
  obtain ⟨written, hw, rfl⟩ := List.mem_map.1 hm
  exact each written hw

end Outline

namespace Value

theorem sizeOf_lt_of_mem_members {members : List (Text × Value)} {m : Text × Value}
    (h : m ∈ members) : sizeOf m.2 < sizeOf (object members) := by
  have := List.sizeOf_lt_of_mem h
  obtain ⟨name, value⟩ := m
  simp only [Prod.mk.sizeOf_spec, object.sizeOf_spec] at *
  omega

def outline : Value → Outline
  | null => .leaf (.scalar ⟨.ok .null, .ok ()⟩)
  | bool value => .leaf (.scalar ⟨.ok (.bool value), .ok ()⟩)
  | number value => .leaf (.scalar ⟨value.numeral.value.map .number, .ok ()⟩)
  | string value => .text value
  | list items => .list (items.map fun v ↦ v.outline)
  | object members => .object (members.map fun m ↦ (m.1, m.2.outline))
termination_by v => sizeOf v
decreasing_by
  · have := List.sizeOf_lt_of_mem ‹_ ∈ items›
    simp only [list.sizeOf_spec]
    omega
  · exact sizeOf_lt_of_mem_members ‹_›

theorem outline_ne_closing (v : Value) (b : Bracket) : v.outline ≠ .leaf (.closing b) := by
  cases v <;> simp [outline, Outline.text, Outline.list, Outline.object]

theorem skip_outline (v : Value) : v.outline.skip = .ok () := by
  induction v using Value.induction with
  | null => simp [outline, Outline.skip, Outline.skipLeaf]
  | bool => simp [outline, Outline.skip, Outline.skipLeaf]
  | number => simp [outline, Outline.skip, Outline.skipLeaf]
  | string => simp [outline, Outline.text, Outline.skip, Outline.skipLeaf]
  | list items ih =>
    rw [outline]
    exact Outline.skip_list (by simp [outline_ne_closing]) (List.forall_mem_map.2 ih)
  | object members ih =>
    rw [outline]
    exact Outline.skip_object (List.forall_mem_map.2 ih)

end Value

end ListingFilter.Json
