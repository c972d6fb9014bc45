import ListingFilter.Predicate.Compilation
import Mathlib

namespace ListingFilter

open Char in
theorem toLower_eq_iff {letter : Char} (h : letter.isLower = true) (c : Char) :
    c.toLower = letter ↔ c = letter ∨ c = letter.toUpper := by
  have same : letter.toLower = letter := toLower_eq_of_not_isUpper (not_isUpper_of_isLower h)
  constructor
  · intro hc
    by_cases hu : c.isUpper
    · right
      rw [← hc, toUpper_toLower_eq_toUpper, toUpper_eq_of_not_isLower (not_isLower_of_isUpper hu)]
    · left
      rw [← hc, toLower_eq_of_not_isUpper hu]
  · intro hc
    rcases hc with rfl | rfl
    · exact same
    · rw [toLower_toUpper_eq_toLower, same]

theorem map_toLower_eq_iff {word : Text} (h : ∀ letter ∈ word, letter.isLower = true)
    (value : Text) : value.map Char.toLower = word ↔
      List.Forall₂ (fun c letter ↦ c = letter ∨ c = letter.toUpper) value word := by
  induction word generalizing value with
  | nil => simp
  | cons letter word ih =>
    obtain ⟨first, others⟩ := List.forall_mem_cons.1 h
    cases value with
    | nil => simp
    | cons c value => simp [toLower_eq_iff first, ih others]

/-- The word `remote`, any letter of which may be a capital. -/
def IsRemoteWord (value : Text) : Prop :=
  List.Forall₂ (fun c letter ↦ c = letter ∨ c = letter.toUpper) value (Text.ofString "remote")

instance (value : Text) : Decidable (IsRemoteWord value) :=
  inferInstanceAs (Decidable (List.Forall₂ ..))

theorem isRemote_iff (value : Text) : isRemote value = true ↔ IsRemoteWord value := by
  have small : ∀ letter ∈ Text.ofString "remote", letter.isLower = true :=
    List.all_eq_true.1 (by decide)
  rw [isRemote, decide_eq_true_eq]
  exact map_toLower_eq_iff small value

theorem Store.location_eq {π : Type} (store : Store π) (value : Text) :
    store.location value =
      if IsRemoteWord value then .ok (store.flag .remote true)
      else store.has locations
        (some (store.group .or (placeColumns.map fun c ↦ store.compare c .equal value))) := by
  simp only [location, isRemote_iff]

variable {ρ : Type}

/-- A listing as a filter sees it: its related rows, and which tests on a column pass, on the listing
itself or on one of its rows. -/
structure Listing (ρ : Type) where
  rows : Text → List ρ
  compare : Option ρ → Column → Comparison → Text → Prop
  isIn : Option ρ → Column → List Text → Prop
  flag : Option ρ → Column → Bool → Prop
  idEquals : Option ρ → Column → Int64 → Prop

namespace Listing

variable (l : Listing ρ)

/-- A comparison that pairs an operator with an operand of the other kind is never compiled. -/
def Compares (at? : Option ρ) (column : Column) : Comparison → Operand → Prop
  | .oneOf, .set values => l.isIn at? column values
  | .like, .scalar value => l.compare at? column .like (likePattern value)
  | .oneOf, .scalar _ | _, .set _ => False
  | op, .scalar value => l.compare at? column op value

def HasNameIn (relation : Text) (values : List Text) : Prop :=
  ∃ row ∈ l.rows relation, l.isIn (some row) (.relatedName relation) values

def IsLocated (value : Text) : Prop :=
  if IsRemoteWord value then l.flag none .remote true
  else ∃ row ∈ l.rows locations, ∃ column ∈ placeColumns, l.compare (some row) column .equal value

def Relates (relation : Text) (values : List Text) : RelationTest → Prop
  | .present => ∃ row, row ∈ l.rows relation
  | .hasAny => l.HasNameIn relation values
  | .isAny =>
    if relation = locations then ∃ value ∈ values, l.IsLocated value else l.HasNameIn relation values

def HasAttribute (a : Attribute) (op : Comparison) (operand : Operand) : Prop :=
  ∃ row ∈ l.rows attributeValues, l.idEquals (some row) attributeIdColumn a.id ∧
    l.Compares (some row) attributeValueColumn op operand

end Listing

def Connective.Combines {α : Type} (P : α → Prop) : Connective → List α → Prop
  | .and, members => ∀ a ∈ members, P a
  | .or, members => ∃ a ∈ members, P a

theorem Connective.combines_iff {α β : Type} {P : α → Prop} {Q : β → Prop} (op : Connective)
    {as : List α} {bs : List β} (h : List.Forall₂ (fun a b ↦ (P a ↔ Q b)) as bs) :
    op.Combines P as ↔ op.Combines Q bs := by
  cases op with
  | and =>
    induction h with
    | nil => simp [Combines]
    | cons head tail ih => simpa [Combines, head] using fun _ ↦ ih
  | or =>
    induction h with
    | nil => simp [Combines]
    | cons head tail ih => simpa [Combines, head] using or_congr_right ih

variable (known : Text → Option Attribute) (l : Listing ρ)

namespace Condition

def isAbsent : Condition → Bool
  | onAttribute name _ _ => (known name).isNone
  | onField .. | onRelation .. => false

def Holds : Condition → Prop
  | onField name op operand => l.Compares none (.field name) op operand
  | onAttribute name op operand => ∃ a ∈ known name, l.HasAttribute a op operand
  | onRelation name test values => l.Relates name values test

def relation? : Condition → Option Text
  | onField .. => none
  | onAttribute name _ _ => (known name).map fun _ ↦ attributeValues
  | onRelation name _ _ => some name

end Condition

namespace Filter

mutual

def isAbsent : Filter → Bool
  | leaf c => c.isAbsent known
  | join _ parts => allAbsent parts

def allAbsent : List Filter → Bool
  | [] => true
  | part :: parts => isAbsent part && allAbsent parts

end

/-- The truth of a filter. Parts that say nothing do not count. -/
def Holds : Filter → Prop
  | leaf c => c.Holds known l
  | join .and parts => ∀ part ∈ parts, part.isAbsent known = false → Holds part
  | join .or parts => ∃ part, ∃ _ : part ∈ parts, part.isAbsent known = false ∧ Holds part

inductive Asks : Filter → Text → Prop
  | leaf {c : Condition} {relation : Text} (h : c.relation? known = some relation) :
    Asks (leaf c) relation
  | join {op : Connective} {part : Filter} {parts : List Filter} {relation : Text}
    (hp : part ∈ parts) (h : Asks part relation) : Asks (join op parts) relation

variable {known}

theorem asks_leaf_iff {c : Condition} {relation : Text} :
    (leaf c).Asks known relation ↔ c.relation? known = some relation :=
  ⟨fun | .leaf h => h, .leaf⟩

theorem allAbsent_iff {parts : List Filter} :
    allAbsent known parts = true ↔ ∀ part ∈ parts, part.isAbsent known = true := by
  induction parts with
  | nil => simp [allAbsent]
  | cons part parts ih => simp [allAbsent, ih]

theorem isAbsent_join_iff {op : Connective} {parts : List Filter} :
    (join op parts).isAbsent known = true ↔ ∀ part ∈ parts, part.isAbsent known = true := by
  rw [isAbsent, allAbsent_iff]

variable (known)

def present (parts : List Filter) : List Filter := parts.filter fun part ↦ !part.isAbsent known

theorem present_eq_nil_iff {op : Connective} {parts : List Filter} :
    present known parts = [] ↔ (join op parts).isAbsent known = true := by
  simp [present, isAbsent_join_iff]

theorem holds_join_iff (op : Connective) (parts : List Filter) :
    (join op parts).Holds known l ↔ op.Combines (Holds known l) (present known parts) := by
  cases op with
  | and => simp [Holds, Connective.Combines, present]
  | or =>
    simp only [Holds, Connective.Combines, present, List.mem_filter, Bool.not_eq_true',
      exists_prop, and_assoc]

end Filter

end ListingFilter
