import ListingFilter.Predicate.Basic
import ListingFilter.Predicate.Compilation

namespace ListingFilter

/-- The computation `y` gives what `replay` makes of the result of `x`. Where `x` fails, `y` fails as
well, perhaps earlier and with another error. -/
inductive Replays {α β : Type} (replay : α → Except FilterError β) :
    Except FilterError α → Except FilterError β → Prop
  | error (e e' : FilterError) : Replays replay (.error e) (.error e')
  | ok {a : α} {y : Except FilterError β} (h : y = replay a) : Replays replay (.ok a) y

namespace Replays

variable {α β γ δ : Type} {f : α → Except FilterError β} {g : γ → Except FilterError δ}
  {x : Except FilterError α} {y : Except FilterError β}

theorem eq_of_eq_ok {a : α} (h : Replays f x y) (hx : x = .ok a) : y = f a := by
  subst hx
  cases h with
  | ok h => exact h

theorem exists_eq_ok {b : β} (h : Replays f x y) (hy : y = .ok b) : ∃ a, x = .ok a := by
  cases h with
  | error e e' => cases hy
  | @ok a _ h => exact ⟨a, rfl⟩

theorem bind {k : α → Except FilterError γ} {k' : β → Except FilterError δ} (h : Replays f x y)
    (hk : ∀ a, Replays g (k a) (f a >>= k')) : Replays g (x >>= k) (y >>= k') := by
  cases h with
  | error e e' => exact .error e e'
  | @ok a _ h => exact h ▸ hk a

theorem map {k : α → γ} {k' : β → δ} (h : Replays f x y) (hk : ∀ a, (f a).map k' = g (k a)) :
    Replays g (x.map k) (y.map k') := by
  cases h with
  | error e e' => exact .error e e'
  | @ok a _ h => exact .ok (h ▸ hk a)

theorem both {α' β' : Type} {j : α' → Except FilterError β'} {u : Except FilterError γ}
    {v : Except FilterError δ} {k : α → γ → α'} {k' : β → δ → β'} (h : Replays f x y)
    (h' : Replays g u v) (hk : ∀ a c, j (k a c) = f a >>= fun b ↦ (g c).map (k' b)) :
    Replays j (x >>= fun a ↦ u.map (k a)) (y >>= fun b ↦ v.map (k' b)) := by
  refine h.bind fun a ↦ ?_
  cases h' with
  | ok h' => exact .ok (h' ▸ (hk a _).symm)
  | error e e' =>
    cases f a with
    | error e'' => exact .error e e''
    | ok b => exact .error e e'

end Replays

variable {π : Type} (store : Store π)

namespace Predicate

theorem replayAll_cons (part : Predicate) (parts : List Predicate) :
    replayAll store (part :: parts) =
      replay store part >>= fun p ↦ (replayAll store parts).map (p :: ·) := by
  rw [replayAll]
  cases replay store part with
  | error e => rfl
  | ok p => cases replayAll store parts <;> rfl

theorem replayAll_eq_mapM (parts : List Predicate) :
    replayAll store parts = parts.mapM (replay store) := by
  induction parts with
  | nil => rfl
  | cons part parts ih =>
    rw [replayAll_cons, ih, List.mapM_cons]
    rfl

theorem replay_group (op : Connective) (parts : List Predicate) :
    replay store (group op parts) = (replayAll store parts).map (store.group op) := by
  rw [replay]
  cases replayAll store parts <;> rfl

theorem replayAll_append (p? : Option Predicate) (parts : List Predicate) :
    replayAll store (p?.toList ++ parts) = p?.mapM (replay store) >>= fun q? ↦
      (replayAll store parts).map (q?.toList ++ ·) := by
  cases p? with
  | none =>
    change replayAll store parts = (replayAll store parts).map id
    cases replayAll store parts <;> rfl
  | some p =>
    change replayAll store (p :: parts) = (replay store p).map some >>= _
    rw [replayAll_cons]
    cases replay store p <;> rfl

theorem replayAll_ne_nil {p : Predicate} {parts : List Predicate} :
    replayAll store (p :: parts) ≠ .ok [] := by
  intro h
  rw [replayAll_cons] at h
  obtain ⟨q, -, h⟩ := exists_of_bind_eq_ok h
  obtain ⟨qs, -, h⟩ := exists_of_map_eq_ok h
  cases h

end Predicate

open Predicate

namespace Store

theorem replays_comparison (column : Column) (op : Comparison) (operand : Operand) :
    Replays (replay store) ((recorder []).comparison column op operand)
      (store.comparison column op operand) := by
  cases operand with
  | scalar value =>
    cases op with
    | oneOf => exact .error _ _
    | _ => exact .ok rfl
  | set values =>
    cases op with
    | oneOf => exact .ok rfl
    | _ => exact .error _ _

theorem replays_hasWith (relation : Text) (filter : Predicate) :
    Replays (replay store) ((recorder []).has relation (some filter))
      (replay store filter >>= fun p ↦ store.has relation (some p)) :=
  .ok rfl

theorem replays_location (value : Text) :
    Replays (replay store) ((recorder []).location value) (store.location value) := by
  unfold location
  split
  · exact .ok rfl
  · exact store.replays_hasWith locations _

theorem replays_mapM_location (values : List Text) :
    Replays (replayAll store) (values.mapM (recorder []).location)
      (values.mapM store.location) := by
  induction values with
  | nil => exact .ok rfl
  | cons value values ih =>
    rw [List.mapM_cons, List.mapM_cons]
    exact (store.replays_location value).both ih fun p parts ↦ replayAll_cons store p parts

theorem replays_relation (name : Text) (test : RelationTest) (values : List Text) :
    Replays (replay store) ((recorder []).relation name test values)
      (store.relation name test values) := by
  cases test with
  | present => exact .ok rfl
  | hasAny => exact store.replays_hasWith name _
  | isAny =>
    unfold relation
    dsimp only
    split
    · exact (store.replays_mapM_location values).map fun parts ↦ (replay_group store .or parts).symm
    · exact store.replays_hasWith name _

theorem replays_attributeValue (a : Attribute) (op : Comparison) (operand : Operand) :
    Replays (replay store) ((recorder []).attributeValue a op operand)
      (store.attributeValue a op operand) := by
  refine (store.replays_comparison attributeValueColumn op operand).bind fun p ↦ ?_
  -- the replay tests the id first, and that cannot fail
  have row : replay store (.group .and [.idEquals attributeIdColumn a.id, p]) =
      (replay store p).map fun v ↦ store.group .and [store.idEquals attributeIdColumn a.id, v] := by
    rw [replay_group, replayAll_cons, replayAll_cons]
    cases replay store p <;> rfl
  have has := store.replays_hasWith attributeValues (.group .and [.idEquals attributeIdColumn a.id, p])
  rw [row] at has
  cases h : replay store p with
  | error e => rw [h] at has; exact has
  | ok v => rw [h] at has; exact has

end Store

variable (resolve : Resolver)

theorem Condition.replays_compile (c : Condition) :
    Replays (Option.mapM (replay store)) (c.compile resolve (recorder [])).result
      (c.compile resolve store).result := by
  cases c with
  | onField name op operand =>
    exact (store.replays_comparison (.field name) op operand).map fun _ ↦ rfl
  | onRelation name test values =>
    exact (store.replays_relation name test values).map fun _ ↦ rfl
  | onAttribute name op operand =>
    simp only [compile, Traced.result_bind, Traced.lookUp]
    cases resolve name with
    | error e => exact .error e e
    | ok a? =>
      cases a? with
      | none => exact .ok rfl
      | some a => exact (store.replays_attributeValue a op operand).map fun _ ↦ rfl

namespace Filter

theorem replays_compileAll {parts : List Filter}
    (h : ∀ part ∈ parts, Replays (Option.mapM (replay store))
      (part.compile resolve (recorder [])).result (part.compile resolve store).result) :
    Replays (replayAll store) (compileAll resolve (recorder []) parts).result
      (compileAll resolve store parts).result := by
  induction parts with
  | nil => exact .ok rfl
  | cons part parts ih =>
    obtain ⟨first, others⟩ := List.forall_mem_cons.1 h
    simp only [compileAll, Traced.result_bind]
    exact first.both (ih others) fun p? ps ↦ replayAll_append store p? ps

/-- Compiling for a store is replaying on it what is recorded. -/
theorem replays_compile (n : Filter) :
    Replays (Option.mapM (replay store)) (n.compile resolve (recorder [])).result
      (n.compile resolve store).result := by
  induction n with
  | leaf c => exact c.replays_compile store resolve
  | join op parts ih =>
    simp only [compile, Traced.result_bind]
    refine (replays_compileAll store resolve ih).bind fun ps ↦ ?_
    cases ps with
    | nil => exact .ok rfl
    | cons p ps =>
      refine .ok ?_
      change _ = (replay store (group op (p :: ps))).map some
      rw [replay_group]
      cases hs : replayAll store (p :: ps) with
      | error e => rfl
      | ok qs =>
        cases qs with
        | nil => exact absurd hs (replayAll_ne_nil store)
        | cons q qs => rfl

end Filter

end ListingFilter
