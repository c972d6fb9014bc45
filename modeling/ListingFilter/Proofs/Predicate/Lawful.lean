import ListingFilter.Proofs.Predicate.Agreement

namespace ListingFilter

variable {π ρ : Type}

/-- The laws of a store, for the truth `holds` of its predicates on a listing and on its rows.
Related rows are asked for from the listing alone. -/
structure Store.Lawful (store : Store π) (l : Listing ρ) (holds : π → Option ρ → Prop) : Prop where
  group (op : Connective) (predicates : List π) (at? : Option ρ) :
    holds (store.group op predicates) at? ↔ op.Combines (holds · at?) predicates
  compare (column : Column) (op : Comparison) (value : Text) (at? : Option ρ) :
    holds (store.compare column op value) at? ↔ l.compare at? column op value
  isIn (column : Column) (values : List Text) (at? : Option ρ) :
    holds (store.isIn column values) at? ↔ l.isIn at? column values
  flag (column : Column) (value : Bool) (at? : Option ρ) :
    holds (store.flag column value) at? ↔ l.flag at? column value
  idEquals (column : Column) (id : Int64) (at? : Option ρ) :
    holds (store.idEquals column id) at? ↔ l.idEquals at? column id
  has {relation : Text} {filter? : Option π} {p : π} (hp : store.has relation filter? = .ok p) :
    holds p none ↔ ∃ row ∈ l.rows relation, ∀ f ∈ filter?, holds f (some row)

namespace Store.Lawful

variable {store : Store π} {l : Listing ρ} {holds : π → Option ρ → Prop}

def agreement (lawful : store.Lawful l holds) : store.Agreement l fun _ ↦ True where
  Agrees scope? p P := ∀ at?, (scope?.isNone → at?.isNone) → (holds p at? ↔ P at?)
  onListing h at? ha := by
    obtain rfl : at? = none := by simpa using ha
    exact h none ha
  group op h at? ha := by
    rw [lawful.group]
    exact op.combines_iff (h.imp fun p a hpa ↦ hpa at? ha)
  compare column op value at? _ := lawful.compare column op value at?
  isIn column values at? _ := lawful.isIn column values at?
  flag column value at? _ := lawful.flag column value at?
  idEquals column id at? _ := lawful.idEquals column id at?
  has _ h hp at? ha := by
    obtain rfl : at? = none := by simpa using ha
    rw [lawful.has hp]
    cases h with
    | none => simp
    | some h => simp [h _ (by simp)]

end Store.Lawful

/-- A filter compiles to nothing exactly where it is absent, and else to a predicate with the truth
of the filter. -/
theorem Filter.holds_of_compile {store : Store π} {l : Listing ρ} {holds : π → Option ρ → Prop}
    (lawful : store.Lawful l holds) (known : Text → Option Attribute) (n : Filter) {p? : Option π}
    (h : (n.compile (fun name ↦ .ok (known name)) store).result = .ok p?) :
    (p? = none ↔ n.isAbsent known = true) ∧ ∀ p ∈ p?, (holds p none ↔ n.Holds known l) := by
  obtain ⟨absent, agrees⟩ := lawful.agreement.outcome_filter (fun _ _ ↦ trivial) h
  refine ⟨?_, fun p hp ↦ agrees p hp none id⟩
  rw [← absent, Option.isNone_iff_eq_none]

def Listing.store (l : Listing ρ) (relations : List Text) : Store (Option ρ → Prop) where
  group op predicates at? := op.Combines (· at?) predicates
  compare column op value at? := l.compare at? column op value
  isIn column values at? := l.isIn at? column values
  flag column value at? := l.flag at? column value
  idEquals column id at? := l.idEquals at? column id
  has relation filter? :=
    if relations.contains relation then .ok fun _ ↦ ∃ row ∈ l.rows relation, ∀ f ∈ filter?, f (some row)
    else .error (.unknownRelation relation)

theorem Listing.lawful_store (l : Listing ρ) (relations : List Text) :
    (l.store relations).Lawful l fun p at? ↦ p at? where
  group _ _ _ := Iff.rfl
  compare _ _ _ _ := Iff.rfl
  isIn _ _ _ := Iff.rfl
  flag _ _ _ := Iff.rfl
  idEquals _ _ _ := Iff.rfl
  has {relation filter? p} hp := by
    cases hr : relations.contains relation with
    | true =>
      simp only [Listing.store, hr, if_true] at hp
      cases hp
      exact Iff.rfl
    | false =>
      simp only [Listing.store, hr, Bool.false_eq_true, if_false] at hp
      cases hp

def Listing.inCity (city : Text) : Listing Text where
  rows relation := if relation = locations then [city] else []
  compare at? column op value :=
    column = .related locations (.ofString "city") ∧ op = .equal ∧ at? = some value
  isIn at? column values :=
    column = .relatedName locations ∧ ∃ value ∈ values, at? = some value
  flag _ _ value := value = false
  idEquals _ _ _ := False

theorem Listing.isLocated_inCity {city : Text} (h : ¬IsRemoteWord city) :
    (Listing.inCity city).IsLocated city := by
  simp only [IsLocated, h, if_false]
  refine ⟨city, by simp [inCity], .related locations (.ofString "city"), .head _, ?_⟩
  exact ⟨rfl, rfl, rfl⟩

theorem Filter.holds_of_compile_inCity :
    let n : Filter := .join .or [.leaf (.onAttribute ['a'] .equal (.scalar ['1'])),
      .leaf (.onRelation locations .isAny [.ofString "Remote", .ofString "Ulm"])]
    let l := Listing.inCity (.ofString "Ulm")
    ∃ p, (n.compile (fun _ ↦ .ok none) (l.store [locations])).result = .ok (some p) ∧ p none := by
  intro n l
  have holds : n.Holds (fun _ ↦ none) l := by
    refine (holds_join_iff ..).2 ⟨_, .head _, ?_⟩
    rw [Holds]
    exact ⟨_, .tail _ (.head _), Listing.isLocated_inCity (by decide)⟩
  exact ⟨_, rfl, ((Filter.holds_of_compile (l.lawful_store [locations]) (fun _ ↦ none) n rfl).2 _
    rfl).2 holds⟩

end ListingFilter
