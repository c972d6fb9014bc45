import ListingFilter.Predicate.Basic
import ListingFilter.Proofs.Predicate.Leaves

namespace ListingFilter

inductive Column.InScope : Option Text → Column → Prop
  | field (name : Text) : InScope none (.field name)
  | relatedName (relation : Text) : InScope (some relation) (.relatedName relation)
  | place {column : Column} (h : column ∈ placeColumns) : InScope (some locations) column
  | attributeValue : InScope (some attributeValues) attributeValueColumn

namespace Predicate

/-- The predicates on the listing itself, and on the rows of a relation. The id of an attribute is
tested beside its value alone. -/
inductive IsScoped : Option Text → Predicate → Prop
  | compare {scope? : Option Text} {column : Column} {op : Comparison} (hc : column.InScope scope?)
    (ho : op ≠ .oneOf) (value : Text) : IsScoped scope? (compare column op value)
  | isIn {scope? : Option Text} {column : Column} (hc : column.InScope scope?)
    (values : List Text) : IsScoped scope? (isIn column values)
  | remote : IsScoped none (flag .remote true)
  | group {scope? : Option Text} (op : Connective) {parts : List Predicate} (hne : parts ≠ [])
    (h : ∀ part ∈ parts, IsScoped scope? part) : IsScoped scope? (group op parts)
  | nowhere : IsScoped none (group .or [])
  | attributeValue {value : Predicate} (id : Int64) (h : IsScoped (some attributeValues) value) :
    IsScoped (some attributeValues) (group .and [idEquals attributeIdColumn id, value])
  | has (relation : Text) : IsScoped none (has relation)
  | hasWith {relation : Text} {filter : Predicate} (h : IsScoped (some relation) filter) :
    IsScoped none (hasWith relation filter)

mutual

def emptyGroups : Predicate → List Connective
  | group op parts => if parts.isEmpty then [op] else allEmptyGroups parts
  | hasWith _ filter => emptyGroups filter
  | _ => []

def allEmptyGroups : List Predicate → List Connective
  | [] => []
  | part :: parts => emptyGroups part ++ allEmptyGroups parts

end

theorem allEmptyGroups_eq_flatMap (parts : List Predicate) :
    allEmptyGroups parts = parts.flatMap emptyGroups := by
  induction parts with
  | nil => rfl
  | cons part parts ih => rw [allEmptyGroups, ih, List.flatMap_cons]

theorem emptyGroups_group (op : Connective) {parts : List Predicate} (h : parts ≠ []) :
    (group op parts).emptyGroups = parts.flatMap emptyGroups := by
  rw [emptyGroups, if_neg (by simpa using h), allEmptyGroups_eq_flatMap]

variable {unknown : List Text} {relation : Text} {column : Column} {scope? : Option Text}
  {p : Predicate}

theorem eq_of_recorder_has {filter? : Option Predicate}
    (h : (recorder unknown).has relation filter? = .ok p) :
    p = filter?.elim (has relation) (hasWith relation) := by
  simp only [recorder] at h
  split at h
  · cases h
  · cases filter? <;> cases h <;> rfl

/-- A predicate that stands where it may, and none of whose groups is empty. -/
structure IsFilled (scope? : Option Text) (p : Predicate) : Prop where
  isScoped : p.IsScoped scope?
  emptyGroups_eq : p.emptyGroups = []

theorem IsFilled.group {parts : List Predicate} (op : Connective) (hne : parts ≠ [])
    (h : ∀ part ∈ parts, part.IsFilled scope?) : (group op parts).IsFilled scope? where
  isScoped := .group op hne fun part hp ↦ (h part hp).isScoped
  emptyGroups_eq := by
    rw [emptyGroups_group op hne, List.flatMap_eq_nil_iff]
    exact fun part hp ↦ (h part hp).emptyGroups_eq

theorem IsFilled.has {filter? : Option Predicate}
    (hf : ∀ filter ∈ filter?, filter.IsFilled (some relation))
    (h : (recorder unknown).has relation filter? = .ok p) : p.IsFilled none := by
  rw [eq_of_recorder_has h]
  cases filter? with
  | none => exact ⟨.has relation, rfl⟩
  | some filter => exact ⟨.hasWith (hf filter rfl).isScoped, (hf filter rfl).emptyGroups_eq⟩

end Predicate

open Predicate

namespace Store

variable {unknown : List Text} {op : Comparison} {operand : Operand} {p : Predicate}
  {values : List Text}

theorem isFilled_comparison {scope? : Option Text} {column : Column} (hc : column.InScope scope?)
    (h : (recorder unknown).comparison column op operand = .ok p) : p.IsFilled scope? := by
  cases operand with
  | scalar value =>
    cases op with
    | oneOf => cases h
    | _ =>
      cases h
      exact ⟨.compare hc (by decide) _, rfl⟩
  | set values =>
    cases op with
    | oneOf =>
      cases h
      exact ⟨.isIn hc values, rfl⟩
    | _ => cases h

theorem isFilled_hasNameIn {relation : Text}
    (h : (recorder unknown).has relation
      (some ((recorder unknown).isIn (.relatedName relation) values)) = .ok p) :
    p.IsFilled none := by
  refine .has (fun filter hf ↦ ?_) h
  cases hf
  exact ⟨.isIn (.relatedName relation) values, rfl⟩

theorem isFilled_location {value : Text} (h : (recorder unknown).location value = .ok p) :
    p.IsFilled none := by
  unfold location at h
  split at h
  · cases h
    exact ⟨.remote, rfl⟩
  · refine .has (fun filter hf ↦ ?_) h
    cases hf
    refine .group .or (List.cons_ne_nil _ _) fun part hp ↦ ?_
    obtain ⟨column, hc, rfl⟩ := List.mem_map.1 hp
    exact ⟨.compare (.place hc) (by decide) value, rfl⟩

theorem isScoped_relation {name : Text} {test : RelationTest}
    (h : (recorder unknown).relation name test values = .ok p) :
    p.IsScoped none ∧ p.emptyGroups =
      if name = locations ∧ test = .isAny ∧ values = [] then [.or] else [] := by
  have filled (hp : p.IsFilled none) (hn : ¬ (name = locations ∧ test = .isAny ∧ values = [])) :
      p.IsScoped none ∧ p.emptyGroups =
        if name = locations ∧ test = .isAny ∧ values = [] then [.or] else [] :=
    ⟨hp.isScoped, by rw [if_neg hn, hp.emptyGroups_eq]⟩
  cases test with
  | present => exact filled (.has (by simp) h) (by simp)
  | hasAny => exact filled (isFilled_hasNameIn h) (by simp)
  | isAny =>
    simp only [relation] at h
    split at h
    · next hn =>
      obtain ⟨ps, hps, rfl⟩ := exists_of_map_eq_ok h
      cases values with
      | nil =>
        cases hps
        exact ⟨.nowhere, by simp [hn, recorder, emptyGroups]⟩
      | cons value values =>
        have hne : ps ≠ [] := by
          rintro rfl
          cases mapM_eq_ok_iff.1 hps
        refine filled (.group .or hne ?_) (by simp)
        exact forall_of_mapM_eq_ok hps fun _ _ _ hq ↦ isFilled_location hq
    · next hn => exact filled (isFilled_hasNameIn h) fun hl ↦ hn hl.1

theorem isFilled_attributeValue {a : Attribute}
    (h : (recorder unknown).attributeValue a op operand = .ok p) : p.IsFilled none := by
  obtain ⟨value, hv, h⟩ := exists_of_bind_eq_ok h
  have filled := isFilled_comparison .attributeValue hv
  refine .has (fun filter hf ↦ ?_) h
  cases hf
  refine ⟨.attributeValue a.id filled.isScoped, ?_⟩
  change (Predicate.group .and [.idEquals attributeIdColumn a.id, value]).emptyGroups = []
  rw [emptyGroups_group _ (List.cons_ne_nil _ _), List.flatMap_cons, List.flatMap_singleton,
    filled.emptyGroups_eq]
  rfl

end Store

def Condition.emptyGroups (c : Condition) : List Connective :=
  if c = .onRelation locations .isAny [] then [.or] else []

variable {unknown : List Text} {resolve : Resolver} {p : Predicate}

theorem Condition.isScoped_of_compile {c : Condition}
    (h : (c.compile resolve (recorder unknown)).result = .ok (some p)) :
    p.IsScoped none ∧ p.emptyGroups = c.emptyGroups := by
  cases c with
  | onField name op operand =>
    obtain ⟨q, hq, hp⟩ := exists_of_map_eq_ok h
    cases hp
    have filled := Store.isFilled_comparison (.field name) hq
    exact ⟨filled.isScoped, filled.emptyGroups_eq⟩
  | onRelation name test values =>
    obtain ⟨q, hq, hp⟩ := exists_of_map_eq_ok h
    cases hp
    simpa [emptyGroups] using Store.isScoped_relation hq
  | onAttribute name op operand =>
    simp only [compile, Traced.result_bind, Traced.lookUp] at h
    obtain ⟨a?, ha, h⟩ := exists_of_bind_eq_ok h
    cases a? with
    | none => cases h
    | some a =>
      obtain ⟨q, hq, hp⟩ := exists_of_map_eq_ok h
      cases hp
      have filled := Store.isFilled_attributeValue hq
      exact ⟨filled.isScoped, filled.emptyGroups_eq⟩

theorem Condition.emptyGroups_of_compile {c : Condition} {p? : Option Predicate}
    (h : (c.compile resolve (recorder unknown)).result = .ok p?) :
    p?.toList.flatMap Predicate.emptyGroups = c.emptyGroups := by
  cases p? with
  | some p =>
    rw [Option.toList_some, List.flatMap_singleton]
    exact (isScoped_of_compile h).2
  | none =>
    rw [emptyGroups, if_neg]
    · rfl
    · rintro rfl
      cases h

namespace Filter

variable {n : Filter}

theorem isScoped_of_compile (h : (n.compile resolve (recorder unknown)).result = .ok (some p)) :
    p.IsScoped none :=
  forall_of_compile (fun op _ _ hparts ↦ .group op (List.cons_ne_nil _ _) hparts)
    (fun _ _ hc ↦ (Condition.isScoped_of_compile hc).1) h

theorem emptyGroups_of_compile
    (h : (n.compile resolve (recorder unknown)).result = .ok (some p)) :
    p.emptyGroups = n.leaves.flatMap Condition.emptyGroups := by
  have tally : [p].flatMap Predicate.emptyGroups = n.leaves.flatMap Condition.emptyGroups :=
    flatMap_of_compile (fun op _ _ ↦ emptyGroups_group op (List.cons_ne_nil _ _))
      (fun _ _ hc ↦ Condition.emptyGroups_of_compile hc) h
  rwa [List.flatMap_singleton] at tally

end Filter

end ListingFilter
