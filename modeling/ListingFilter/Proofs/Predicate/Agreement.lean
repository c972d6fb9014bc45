import ListingFilter.Proofs.Error
import ListingFilter.Proofs.Predicate.Meaning

namespace ListingFilter

def Column.relation? : Column → Option Text
  | field _ | remote => none
  | relatedName relation | related relation _ => some relation

variable {π ρ : Type}

/-- A relation between the predicates of a store and truths about a listing, or about the rows of
one of its relations, that the operations respect. Rows are asked for in the relations of `asked`
alone. -/
structure Store.Agreement (store : Store π) (l : Listing ρ) (asked : Text → Prop) where
  Agrees : Option Text → π → (Option ρ → Prop) → Prop
  onListing {p : π} {P : Option ρ → Prop} (h : Agrees none p P) : Agrees none p fun _ ↦ P none
  group {α : Type} {scope? : Option Text} {P : α → Option ρ → Prop} {predicates : List π}
    {members : List α} (op : Connective)
    (h : List.Forall₂ (fun p a ↦ Agrees scope? p (P a)) predicates members) :
    Agrees scope? (store.group op predicates) fun at? ↦ op.Combines (P · at?) members
  compare (column : Column) (op : Comparison) (value : Text) :
    Agrees column.relation? (store.compare column op value) (l.compare · column op value)
  isIn (column : Column) (values : List Text) :
    Agrees column.relation? (store.isIn column values) (l.isIn · column values)
  flag (column : Column) (value : Bool) :
    Agrees column.relation? (store.flag column value) (l.flag · column value)
  idEquals (column : Column) (id : Int64) :
    Agrees column.relation? (store.idEquals column id) (l.idEquals · column id)
  has {relation : Text} {filter? : Option π} {P? : Option (Option ρ → Prop)} {p : π}
    (asks : asked relation) (h : Option.Rel (Agrees (some relation)) filter? P?)
    (hp : store.has relation filter? = .ok p) :
    Agrees none p fun _ ↦ ∃ row ∈ l.rows relation, ∀ P ∈ P?, P (some row)

namespace Store.Agreement

variable {store : Store π} {l : Listing ρ} {asked : Text → Prop} (A : store.Agreement l asked)

theorem comparison {column : Column} {op : Comparison} {operand : Operand} {p : π}
    (h : store.comparison column op operand = .ok p) :
    A.Agrees column.relation? p (l.Compares · column op operand) := by
  cases operand with
  | set values =>
    cases op with
    | oneOf => cases h; exact A.isIn column values
    | _ => cases h
  | scalar value =>
    cases op with
    | oneOf => cases h
    | _ => cases h; exact A.compare column _ _

theorem hasNameIn {relation : Text} {values : List Text} {p : π} (asks : asked relation)
    (h : store.has relation (some (store.isIn (.relatedName relation) values)) = .ok p) :
    A.Agrees none p fun _ ↦ l.HasNameIn relation values := by
  have agrees := A.has asks (.some (A.isIn (.relatedName relation) values)) h
  simpa only [Listing.HasNameIn, Option.mem_some_iff, forall_eq'] using agrees

theorem place (value : Text) :
    A.Agrees (some locations)
      (store.group .or (placeColumns.map fun column ↦ store.compare column .equal value))
      fun at? ↦ ∃ column ∈ placeColumns, l.compare at? column .equal value := by
  refine A.group (P := fun column at? ↦ l.compare at? column .equal value) .or ?_
  refine List.forall₂_map_left_iff.2 (List.forall₂_same.2 fun column hc ↦ ?_)
  have scope : column.relation? = some locations := by
    simp only [placeColumns, List.mem_cons, List.not_mem_nil, or_false] at hc
    obtain rfl | rfl | rfl := hc <;> rfl
  exact scope ▸ A.compare column .equal value

theorem location {value : Text} {p : π} (asks : asked locations)
    (h : store.location value = .ok p) : A.Agrees none p fun _ ↦ l.IsLocated value := by
  rw [store.location_eq] at h
  split at h
  · next remote =>
    cases h
    simpa only [Listing.IsLocated, remote, if_true] using A.onListing (A.flag .remote true)
  · next notRemote =>
    have agrees := A.has asks (.some (A.place value)) h
    simpa only [Listing.IsLocated, notRemote, if_false, Option.mem_some_iff, forall_eq'] using agrees

theorem mapM_location {values : List Text} {predicates : List π} (asks : asked locations)
    (h : values.mapM store.location = .ok predicates) :
    List.Forall₂ (fun p value ↦ A.Agrees none p fun _ ↦ l.IsLocated value) predicates values := by
  have each : List.Forall₂ (fun p value ↦ store.location value = .ok p) predicates values :=
    (mapM_eq_ok_iff.1 h).flip
  exact each.imp fun p value hp ↦ A.location asks hp

theorem relation {name : Text} {test : RelationTest} {values : List Text} {p : π}
    (asks : asked name) (h : store.relation name test values = .ok p) :
    A.Agrees none p fun _ ↦ l.Relates name values test := by
  cases test with
  | present =>
    have agrees := A.has asks .none h
    simpa only [Listing.Relates, Option.not_mem_none, false_imp_iff, implies_true, and_true]
      using agrees
  | hasAny => exact A.hasNameIn asks h
  | isAny =>
    by_cases hn : name = locations
    · subst hn
      simp only [Store.relation, if_true] at h
      obtain ⟨ps, hps, rfl⟩ := exists_of_map_eq_ok h
      simpa only [Listing.Relates, Connective.Combines, if_true] using
        A.group .or (A.mapM_location asks hps)
    · simp only [Store.relation, hn, if_false] at h
      simpa only [Listing.Relates, hn, if_false] using A.hasNameIn asks h

theorem attributeValue {a : Attribute} {op : Comparison} {operand : Operand} {p : π}
    (asks : asked attributeValues) (h : store.attributeValue a op operand = .ok p) :
    A.Agrees none p fun _ ↦ l.HasAttribute a op operand := by
  obtain ⟨value, hv, h⟩ := exists_of_bind_eq_ok h
  have hv : A.Agrees (some attributeValues) value _ := A.comparison hv
  have hid : A.Agrees (some attributeValues) (store.idEquals attributeIdColumn a.id) _ :=
    A.idEquals attributeIdColumn a.id
  have both := A.group (P := fun (P : Option ρ → Prop) at? ↦ P at?) .and
    (.cons hid (.cons hv .nil))
  have agrees := A.has asks (.some both) h
  simpa only [Listing.HasAttribute, Option.mem_some_iff, forall_eq', Connective.Combines,
    List.forall_mem_cons, List.not_mem_nil, false_imp_iff, implies_true, and_true] using agrees

/-- What compiling gives for a condition or a filter: nothing where it is absent, else a predicate
that agrees with its truth. -/
def Outcome (absent : Bool) (P : Prop) (p? : Option π) : Prop :=
  p?.isNone = absent ∧ ∀ p ∈ p?, A.Agrees none p fun _ ↦ P

variable {A}

theorem outcome_some {P : Prop} {p : π} (h : A.Agrees none p fun _ ↦ P) :
    A.Outcome false P (some p) :=
  ⟨rfl, fun _ hq ↦ Option.mem_some_iff.1 hq ▸ h⟩

theorem outcome_map {P : Prop} {x : Except FilterError π} {p? : Option π}
    (hx : ∀ p, x = .ok p → A.Agrees none p fun _ ↦ P) (h : x.map some = .ok p?) :
    A.Outcome false P p? := by
  obtain ⟨p, hp, rfl⟩ := exists_of_map_eq_ok h
  exact outcome_some (hx p hp)

variable (A) {known : Text → Option Attribute}

theorem outcome_condition {c : Condition} {p? : Option π}
    (asks : ∀ relation, c.relation? known = some relation → asked relation)
    (h : (c.compile (fun name ↦ .ok (known name)) store).result = .ok p?) :
    A.Outcome (c.isAbsent known) (c.Holds known l) p? := by
  cases c with
  | onField name op operand =>
    refine outcome_map (fun p hp ↦ ?_) h
    have agrees : A.Agrees (Column.field name).relation? p _ := A.comparison hp
    exact A.onListing agrees
  | onRelation name test values =>
    exact outcome_map (fun p hp ↦ A.relation (asks name rfl) hp) h
  | onAttribute name op operand =>
    simp only [Condition.compile, Traced.result_bind, Traced.lookUp] at h
    obtain ⟨a?, ha, h⟩ := exists_of_bind_eq_ok h
    cases ha
    cases hk : known name with
    | none =>
      rw [hk] at h
      cases h
      simp [Outcome, Condition.isAbsent, hk]
    | some a =>
      rw [hk] at h
      have asks := asks attributeValues (by simp [Condition.relation?, hk])
      simpa [Condition.isAbsent, Condition.Holds, hk] using
        outcome_map (fun p hp ↦ A.attributeValue asks hp) h

theorem present_parts {parts : List Filter} {predicates : List π}
    (outcome : ∀ part ∈ parts, ∀ p?,
      (part.compile (fun name ↦ .ok (known name)) store).result = .ok p? →
      A.Outcome (part.isAbsent known) (part.Holds known l) p?)
    (h : (Filter.compileAll (fun name ↦ .ok (known name)) store parts).result = .ok predicates) :
    List.Forall₂ (fun p part ↦ A.Agrees none p fun _ ↦ part.Holds known l) predicates
      (Filter.present known parts) := by
  induction parts generalizing predicates with
  | nil => cases h; exact .nil
  | cons part parts ih =>
    simp only [Filter.compileAll, Traced.result_bind] at h
    obtain ⟨p?, hp, h⟩ := exists_of_bind_eq_ok h
    obtain ⟨ps, hps, h⟩ := exists_of_bind_eq_ok h
    cases h
    have rest := ih (fun other ho ↦ outcome other (.tail _ ho)) hps
    obtain ⟨absent, agrees⟩ := outcome part (.head _) p? hp
    cases p? with
    | none => simpa [Filter.present, ← absent] using rest
    | some p => simpa [Filter.present, ← absent] using ⟨agrees p rfl, rest⟩

theorem outcome_filter {n : Filter} {p? : Option π}
    (asks : ∀ relation, n.Asks known relation → asked relation)
    (h : (n.compile (fun name ↦ .ok (known name)) store).result = .ok p?) :
    A.Outcome (n.isAbsent known) (n.Holds known l) p? := by
  induction n generalizing p? with
  | leaf c =>
    simpa only [Filter.isAbsent, Filter.Holds] using
      A.outcome_condition (fun relation hc ↦ asks relation (.leaf hc)) h
  | join op parts ih =>
    -- the predicates that come out belong to the parts that are present, in their order
    simp only [Filter.compile, Traced.result_bind] at h
    obtain ⟨predicates, hps, h⟩ := exists_of_bind_eq_ok h
    have agree := A.present_parts
      (fun part hp _ ↦ ih part hp fun relation ha ↦ asks relation (.join hp ha)) hps
    have absent : (Filter.join op parts).isAbsent known = predicates.isEmpty := by
      rw [Bool.eq_iff_iff, ← Filter.present_eq_nil_iff, List.isEmpty_iff,
        ← List.length_eq_zero_iff, ← agree.length_eq, List.length_eq_zero_iff]
    rw [absent, Filter.holds_join_iff]
    cases predicates with
    | nil => cases h; simp [Outcome]
    | cons p ps => cases h; exact outcome_some (A.group op agree)

end Store.Agreement

end ListingFilter
