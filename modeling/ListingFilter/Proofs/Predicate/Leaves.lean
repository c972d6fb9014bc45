import ListingFilter.Predicate.Compilation
import ListingFilter.Proofs.Error

namespace ListingFilter

variable {α β : Type}

def upTo (p : α → Bool) : List α → List α
  | [] => []
  | a :: as => if p a then [a] else a :: upTo p as

theorem upTo_append_of_any {p : α → Bool} {as : List α} (h : as.any p = true) (bs : List α) :
    upTo p (as ++ bs) = upTo p as := by
  induction as with
  | nil => cases h
  | cons a as ih =>
    rw [List.cons_append, upTo, upTo]
    split
    · rfl
    · next ha =>
      rw [List.any_cons, Bool.or_eq_true] at h
      rw [ih (h.resolve_left ha)]

theorem upTo_append_of_not_any {p : α → Bool} {as : List α} (h : as.any p = false) (bs : List α) :
    upTo p (as ++ bs) = as ++ upTo p bs := by
  induction as with
  | nil => rfl
  | cons a as ih =>
    rw [List.any_cons, Bool.or_eq_false_iff] at h
    rw [List.cons_append, upTo, h.1, ih h.2]
    rfl

theorem upTo_eq_self {p : α → Bool} {as : List α} (h : as.any p = false) : upTo p as = as := by
  have happ := upTo_append_of_not_any h []
  rwa [List.append_nil, upTo, List.append_nil] at happ

theorem upTo_map {p : β → Bool} (f : α → β) (as : List α) :
    upTo p (as.map f) = (upTo (fun a ↦ p (f a)) as).map f := by
  induction as with
  | nil => rfl
  | cons a as ih =>
    rw [List.map_cons, upTo, upTo, ih]
    split <;> rfl

namespace Filter

mutual

def leaves : Filter → List Condition
  | leaf c => [c]
  | join _ parts => allLeaves parts

def allLeaves : List Filter → List Condition
  | [] => []
  | part :: parts => leaves part ++ allLeaves parts

end

theorem mem_leaves_join_iff {op : Connective} {parts : List Filter} {c : Condition} :
    c ∈ (join op parts).leaves ↔ ∃ part ∈ parts, c ∈ part.leaves := by
  rw [leaves]
  induction parts with
  | nil => simp [allLeaves]
  | cons part parts ih => simp [allLeaves, ih]

end Filter

namespace Traced

/-- A computation that amounts to steps which are taken one behind the other up to the first that
fails. -/
structure Follows (x : Traced α) (steps : List (Traced β)) : Prop where
  error?_eq : error? x.result = steps.findSome? fun step ↦ error? step.result
  lookups_eq : x.lookups = (upTo (fun step ↦ (error? step.result).isSome) steps).flatMap lookups

namespace Follows

variable {γ : Type} {x : Traced α} {steps more : List (Traced γ)}

theorem of_pure (a : α) : (Pure.pure a : Traced α).Follows ([] : List (Traced γ)) := ⟨rfl, rfl⟩

theorem single (x : Traced α) : x.Follows [x] := by
  refine ⟨?_, ?_⟩
  · rw [List.findSome?_cons]
    cases error? x.result <;> rfl
  · rw [upTo]
    split <;> exact (List.append_nil _).symm

theorem bind {f : α → Traced β} (h : x.Follows steps)
    (hf : ∀ a, x.result = .ok a → (f a).Follows more) : (x >>= f).Follows (steps ++ more) := by
  cases hx : x.result with
  | error e =>
    have found : steps.findSome? (fun step ↦ error? step.result) = some e := by
      rw [← h.error?_eq, hx]
      rfl
    have any : steps.any (fun step ↦ (error? step.result).isSome) = true := by
      rw [List.any_eq_true, ← List.findSome?_isSome_iff, found]
      rfl
    refine ⟨?_, ?_⟩
    · rw [result_bind, hx, List.findSome?_append, found]
      rfl
    · rw [lookups_bind_of_eq_error hx, upTo_append_of_any any, h.lookups_eq]
  | ok a =>
    have unfound : steps.findSome? (fun step ↦ error? step.result) = none := by
      rw [← h.error?_eq, hx]
      rfl
    have any : steps.any (fun step ↦ (error? step.result).isSome) = false := by
      rw [List.any_eq_false]
      intro step hs
      rw [List.findSome?_eq_none_iff.1 unfound step hs]
      exact Bool.false_ne_true
    refine ⟨?_, ?_⟩
    · rw [result_bind, hx, List.findSome?_append, unfound]
      exact (hf a hx).error?_eq
    · rw [lookups_bind_of_eq_ok hx, upTo_append_of_not_any any, List.flatMap_append,
        (hf a hx).lookups_eq, h.lookups_eq, upTo_eq_self any]

theorem bind_nil {f : α → Traced β} (h : x.Follows steps)
    (hf : ∀ a, (f a).Follows ([] : List (Traced γ))) : (x >>= f).Follows steps := by
  have hb : (x >>= f).Follows (steps ++ []) := h.bind fun a _ ↦ hf a
  rwa [List.append_nil] at hb

theorem exists_mem_of_eq_error {e : FilterError} (h : x.Follows steps) (he : x.result = .error e) :
    ∃ step ∈ steps, step.result = .error e ∧ step.lookups ⊆ x.lookups := by
  have found : steps.findSome? (fun step ↦ error? step.result) = some e := by
    rw [← h.error?_eq, error?_eq_some_iff, he]
  obtain ⟨before, step, after, rfl, hs, hbefore⟩ := List.findSome?_eq_some_iff.1 found
  refine ⟨step, List.mem_append_right before List.mem_cons_self, error?_eq_some_iff.1 hs, ?_⟩
  have any : before.any (fun step ↦ (error? step.result).isSome) = false := by
    rw [List.any_eq_false]
    intro step hstep
    rw [hbefore step hstep]
    exact Bool.false_ne_true
  rw [h.lookups_eq, upTo_append_of_not_any any, List.flatMap_append, upTo, hs]
  simp

end Follows

end Traced

namespace Filter

variable {π : Type} (resolve : Resolver) (store : Store π)

theorem follows_parts {parts : List Filter}
    (h : ∀ part ∈ parts, (part.compile resolve store).Follows
      (part.leaves.map fun c ↦ c.compile resolve store)) :
    (compileAll resolve store parts).Follows
      ((allLeaves parts).map fun c ↦ c.compile resolve store) := by
  induction parts with
  | nil => exact .of_pure []
  | cons part parts ih =>
    obtain ⟨first, others⟩ := List.forall_mem_cons.1 h
    rw [allLeaves, List.map_append, compileAll]
    exact first.bind fun _ _ ↦ (ih others).bind_nil fun _ ↦ .of_pure _

theorem follows_leaves (n : Filter) :
    (n.compile resolve store).Follows (n.leaves.map fun c ↦ c.compile resolve store) := by
  induction n with
  | leaf c => exact .single _
  | join op parts ih =>
    rw [compile, leaves]
    refine (follows_parts resolve store ih).bind_nil fun predicates ↦ ?_
    cases predicates <;> exact .of_pure _

section

variable {resolve store} {tally : π → List α} {ofCondition : Condition → List α}

theorem exists_of_mem_compileAll {parts : List Filter} {predicates : List π}
    (h : (compileAll resolve store parts).result = .ok predicates) {p : π} (hp : p ∈ predicates) :
    ∃ part ∈ parts, (part.compile resolve store).result = .ok (some p) := by
  induction parts generalizing predicates with
  | nil =>
    cases h
    cases hp
  | cons part parts ih =>
    rw [compileAll, Traced.result_bind] at h
    obtain ⟨predicate?, head, h⟩ := exists_of_bind_eq_ok h
    rw [Traced.result_bind] at h
    obtain ⟨rest, tail, h⟩ := exists_of_bind_eq_ok h
    cases h
    obtain hp | hp := List.mem_append.1 hp
    · rw [Option.mem_toList] at hp
      exact ⟨part, List.mem_cons_self, hp ▸ head⟩
    · obtain ⟨other, ho, hother⟩ := ih tail hp
      exact ⟨other, List.mem_cons_of_mem part ho, hother⟩

/-- What every condition's predicate has and a group has from its parts, a filter's predicate has. -/
theorem forall_of_compile {P : π → Prop}
    (group : ∀ op first rest, (∀ p ∈ first :: rest, P p) → P (store.group op (first :: rest)))
    (condition : ∀ (c : Condition) p, (c.compile resolve store).result = .ok (some p) → P p)
    {n : Filter} {p : π} (h : (n.compile resolve store).result = .ok (some p)) : P p := by
  induction n generalizing p with
  | leaf c => exact condition c p h
  | join op parts ih =>
    rw [compile, Traced.result_bind] at h
    obtain ⟨predicates, hp, h⟩ := exists_of_bind_eq_ok h
    cases predicates with
    | nil => cases h
    | cons first rest =>
      cases h
      refine group op first rest fun p hm ↦ ?_
      obtain ⟨part, hpart, hcompile⟩ := exists_of_mem_compileAll hp hm
      exact ih part hpart hcompile

theorem flatMap_of_compileAll {parts : List Filter} {predicates : List π}
    (h : ∀ part ∈ parts, ∀ predicate?, (part.compile resolve store).result = .ok predicate? →
      predicate?.toList.flatMap tally = part.leaves.flatMap ofCondition)
    (hp : (compileAll resolve store parts).result = .ok predicates) :
    predicates.flatMap tally = (allLeaves parts).flatMap ofCondition := by
  induction parts generalizing predicates with
  | nil =>
    cases hp
    rfl
  | cons part parts ih =>
    obtain ⟨first, others⟩ := List.forall_mem_cons.1 h
    rw [compileAll, Traced.result_bind] at hp
    obtain ⟨predicate?, head, hp⟩ := exists_of_bind_eq_ok hp
    rw [Traced.result_bind] at hp
    obtain ⟨rest, tail, hp⟩ := exists_of_bind_eq_ok hp
    cases hp
    rw [allLeaves, List.flatMap_append, List.flatMap_append, first predicate? head, ih others tail]

theorem flatMap_of_compile
    (group : ∀ op first rest, tally (store.group op (first :: rest)) = (first :: rest).flatMap tally)
    (condition : ∀ c predicate?, (c.compile resolve store).result = .ok predicate? →
      predicate?.toList.flatMap tally = ofCondition c)
    {n : Filter} {predicate? : Option π} (h : (n.compile resolve store).result = .ok predicate?) :
    predicate?.toList.flatMap tally = n.leaves.flatMap ofCondition := by
  induction n generalizing predicate? with
  | leaf c =>
    rw [condition c predicate? h, leaves, List.flatMap_singleton]
  | join op parts ih =>
    rw [compile, Traced.result_bind] at h
    obtain ⟨predicates, hp, h⟩ := exists_of_bind_eq_ok h
    rw [leaves, ← flatMap_of_compileAll (fun part hm _ ↦ ih part hm) hp]
    cases predicates with
    | nil =>
      cases h
      rfl
    | cons first rest =>
      cases h
      rw [Option.toList_some, List.flatMap_singleton, group]

end

end Filter

end ListingFilter
