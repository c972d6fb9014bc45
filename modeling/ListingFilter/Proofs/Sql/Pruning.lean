import ListingFilter.Proofs.Sql.Unfiltered
import Mathlib.Logic.Relation

namespace ListingFilter

def Condition.isUnknown (resolve : Resolver) : Condition → Bool
  | onAttribute name _ _ =>
    match resolve name with
    | .ok none => true
    | _ => false
  | onField .. | onRelation .. => false

theorem Condition.isUnknown_iff {resolve : Resolver} {c : Condition} :
    c.isUnknown resolve = true ↔ c.IsUnknown resolve := by
  cases c with
  | onField name op operand => exact iff_of_false Bool.false_ne_true id
  | onRelation name test values => exact iff_of_false Bool.false_ne_true id
  | onAttribute name op operand =>
    rw [isUnknown, IsUnknown]
    obtain e | _ | a := resolve name <;> simp

namespace Filter

/-- One step of pruning, on filters that stand side by side. -/
inductive Prunes (resolve : Resolver) : List Filter → List Filter → Prop
  | unknown {c : Condition} (h : c.IsUnknown resolve) (rest : List Filter) :
    Prunes resolve (leaf c :: rest) rest
  | empty (op : Connective) (rest : List Filter) : Prunes resolve (join op [] :: rest) rest
  | only (op : Connective) (part : Filter) (rest : List Filter) :
    Prunes resolve (join op [part] :: rest) (part :: rest)
  | first (op : Connective) (inner parts rest : List Filter) :
    Prunes resolve (join op (join op inner :: parts) :: rest) (join op (inner ++ parts) :: rest)
  | within (op : Connective) {parts parts' : List Filter} (h : Prunes resolve parts parts')
    (rest : List Filter) : Prunes resolve (join op parts :: rest) (join op parts' :: rest)
  | later (part : Filter) {rest rest' : List Filter} (h : Prunes resolve rest rest') :
    Prunes resolve (part :: rest) (part :: rest')

abbrev PrunesMany (resolve : Resolver) : List Filter → List Filter → Prop :=
  Relation.ReflTransGen (Prunes resolve)

/-- The parts that a filter gives to a join that it comes first in. -/
def opened (op : Connective) : Filter → List Filter
  | join op' inner => if op' = op then inner else [join op' inner]
  | leaf c => [leaf c]

def rejoined (op : Connective) : List Filter → Option Filter
  | [] => none
  | [part] => some part
  | part :: parts => some (join op (part.opened op ++ parts))

mutual

def pruned (resolve : Resolver) : Filter → Option Filter
  | leaf c => if c.isUnknown resolve then none else some (leaf c)
  | join op parts => rejoined op (allPruned resolve parts)

def allPruned (resolve : Resolver) : List Filter → List Filter
  | [] => []
  | part :: parts => (pruned resolve part).toList ++ allPruned resolve parts

end

section

variable {π : Type} (resolve : Resolver) (store : Store π)

def joined? (op : Connective) : List π → Option π
  | [] => none
  | predicates => some (store.group op predicates)

theorem result_compile_join (op : Connective) (parts : List Filter) :
    ((join op parts).compile resolve store).result =
      (compileAll resolve store parts).result.map (joined? store op) := by
  rw [compile, Traced.result_bind]
  cases (compileAll resolve store parts).result with
  | error e => rfl
  | ok ps => cases ps <;> rfl

theorem result_compileAll_cons (n : Filter) (ns : List Filter) :
    (compileAll resolve store (n :: ns)).result = (n.compile resolve store).result >>= fun p? ↦
      (compileAll resolve store ns).result.map (p?.toList ++ ·) := by
  simp only [compileAll, Traced.result_bind]
  rfl

theorem result_compileAll_append (ns ms : List Filter) :
    (compileAll resolve store (ns ++ ms)).result =
      (compileAll resolve store ns).result >>= fun ps ↦
        (compileAll resolve store ms).result.map (ps ++ ·) := by
  induction ns with
  | nil =>
    change (compileAll resolve store ms).result = (compileAll resolve store ms).result.map id
    cases (compileAll resolve store ms).result <;> rfl
  | cons n ns ih =>
    rw [List.cons_append, result_compileAll_cons, result_compileAll_cons, ih]
    cases (n.compile resolve store).result with
    | error e => rfl
    | ok p? =>
      cases (compileAll resolve store ns).result with
      | error e => rfl
      | ok ps =>
        cases (compileAll resolve store ms).result with
        | error e => rfl
        | ok qs => exact congrArg Except.ok (List.append_assoc p?.toList ps qs).symm

end

end Filter

namespace Sql.Expr

theorem group_group_cons (op : Connective) {es : List Expr} (h : es ≠ []) (rest : List Expr) :
    group op (group op es :: rest) = group op (es ++ rest) := by
  obtain ⟨e, es, rfl⟩ := List.exists_cons_of_ne_nil h
  exact (List.foldl_append).symm

end Sql.Expr

namespace Schema

variable (s : Schema) {resolve : Resolver} {ns ns' : List Filter}

theorem joined?_toList (op : Connective) (e? : Option Sql.Expr) :
    Filter.joined? s.store op e?.toList = e? := by
  cases e? <;> rfl

theorem joined?_joined?_append (op : Connective) (es fs : List Sql.Expr) :
    Filter.joined? s.store op ((Filter.joined? s.store op es).toList ++ fs) =
      Filter.joined? s.store op (es ++ fs) := by
  cases es with
  | nil => rfl
  | cons e es => exact congrArg some (Sql.Expr.group_group_cons op (List.cons_ne_nil e es) fs)

theorem compile_join_singleton (op : Connective) (part : Filter) :
    ((Filter.join op [part]).compile resolve s.store).result =
      (part.compile resolve s.store).result := by
  rw [Filter.result_compile_join, Filter.result_compileAll_cons]
  cases (part.compile resolve s.store).result with
  | error e => rfl
  | ok e? =>
    change Except.ok (Filter.joined? s.store op (e?.toList ++ [])) = _
    rw [List.append_nil, joined?_toList]

theorem compile_join_join (op : Connective) (inner parts : List Filter) :
    ((Filter.join op (.join op inner :: parts)).compile resolve s.store).result =
      ((Filter.join op (inner ++ parts)).compile resolve s.store).result := by
  rw [Filter.result_compile_join, Filter.result_compile_join, Filter.result_compileAll_cons,
    Filter.result_compile_join, Filter.result_compileAll_append]
  cases (Filter.compileAll resolve s.store inner).result with
  | error e => rfl
  | ok es =>
    cases (Filter.compileAll resolve s.store parts).result with
    | error e => rfl
    | ok fs => exact congrArg Except.ok (s.joined?_joined?_append op es fs)

theorem compileAll_cons_of_vanishes {n : Filter}
    (h : (n.compile resolve s.store).result = .ok none) (rest : List Filter) :
    (Filter.compileAll resolve s.store (n :: rest)).result =
      (Filter.compileAll resolve s.store rest).result := by
  rw [Filter.result_compileAll_cons, h]
  change (Filter.compileAll resolve s.store rest).result.map id = _
  cases (Filter.compileAll resolve s.store rest).result <;> rfl

/-- A step of pruning changes nothing of what filters compile to. -/
theorem compileAll_of_prunes (h : Filter.Prunes resolve ns ns') :
    (Filter.compileAll resolve s.store ns).result =
      (Filter.compileAll resolve s.store ns').result := by
  have head {n n' : Filter} (rest : List Filter)
      (h : (n.compile resolve s.store).result = (n'.compile resolve s.store).result) :
      (Filter.compileAll resolve s.store (n :: rest)).result =
        (Filter.compileAll resolve s.store (n' :: rest)).result := by
    rw [Filter.result_compileAll_cons, Filter.result_compileAll_cons, h]
  induction h with
  | @unknown c h rest =>
    have vanishes : ((Filter.leaf c).compile resolve s.store).result = .ok none := by
      rw [Filter.compile, Condition.compile_eq_ok_none_iff]
      exact h
    exact s.compileAll_cons_of_vanishes vanishes rest
  | empty op rest => exact s.compileAll_cons_of_vanishes rfl rest
  | only op part rest => exact head rest (s.compile_join_singleton op part)
  | first op inner parts rest => exact head rest (s.compile_join_join op inner parts)
  | within op _ rest ih =>
    refine head rest ?_
    rw [Filter.result_compile_join, Filter.result_compile_join, ih]
  | later part _ ih => rw [Filter.result_compileAll_cons, Filter.result_compileAll_cons, ih]

theorem compileAll_of_prunesMany (h : Filter.PrunesMany resolve ns ns') :
    (Filter.compileAll resolve s.store ns).result =
      (Filter.compileAll resolve s.store ns').result := by
  induction h with
  | refl => rfl
  | tail _ step ih => exact ih.trans (s.compileAll_of_prunes step)

end Schema

namespace Filter

variable {resolve : Resolver} {n : Filter} {ns ns' ms : List Filter}

theorem Prunes.length_le (h : Prunes resolve ns ns') : ns'.length ≤ ns.length := by
  induction h with
  | later part _ ih => exact Nat.succ_le_succ ih
  | _ => simp

theorem Prunes.append (h : Prunes resolve ns ns') (rest : List Filter) :
    Prunes resolve (ns ++ rest) (ns' ++ rest) := by
  induction h with
  | unknown h _ => exact .unknown h _
  | empty op _ => exact .empty op _
  | only op part _ => exact .only op part _
  | first op inner parts _ => exact .first op inner parts _
  | within op h _ _ => exact .within op h _
  | later part _ ih => exact .later part ih

namespace PrunesMany

theorem append (h : PrunesMany resolve ns ns') (rest : List Filter) :
    PrunesMany resolve (ns ++ rest) (ns' ++ rest) :=
  Relation.ReflTransGen.lift (· ++ rest) (fun _ _ step ↦ Prunes.append step rest) _ _ h

theorem later (part : Filter) (h : PrunesMany resolve ns ns') :
    PrunesMany resolve (part :: ns) (part :: ns') :=
  Relation.ReflTransGen.lift (part :: ·) (fun _ _ step ↦ Prunes.later part step) _ _ h

theorem within (op : Connective) (h : PrunesMany resolve ns ns') :
    PrunesMany resolve [join op ns] [join op ns'] :=
  Relation.ReflTransGen.lift (fun ns ↦ [join op ns]) (fun _ _ step ↦ Prunes.within op step [])
    _ _ h

theorem length_le (h : PrunesMany resolve ns ns') : ns'.length ≤ ns.length := by
  induction h with
  | refl => exact le_rfl
  | tail _ step ih => exact step.length_le.trans ih

end PrunesMany

theorem prunesMany_rejoined (op : Connective) (parts : List Filter) :
    PrunesMany resolve [join op parts] (rejoined op parts).toList := by
  match parts with
  | [] => exact .single (.empty op [])
  | [part] => exact .single (.only op part [])
  | part :: next :: parts =>
    change PrunesMany resolve _ [join op (part.opened op ++ next :: parts)]
    cases part with
    | leaf c => exact .refl
    | join op' inner =>
      rw [opened]
      split
      · next hop => exact hop ▸ .single (.first op' inner (next :: parts) [])
      · exact .refl

theorem prunesMany_allPruned {parts : List Filter}
    (h : ∀ part ∈ parts, PrunesMany resolve [part] (part.pruned resolve).toList) :
    PrunesMany resolve parts (allPruned resolve parts) := by
  induction parts with
  | nil => exact .refl
  | cons part parts ih =>
    obtain ⟨first, others⟩ := List.forall_mem_cons.1 h
    exact ((ih others).later part).trans (first.append (allPruned resolve parts))

theorem prunesMany_pruned (resolve : Resolver) (n : Filter) :
    PrunesMany resolve [n] (n.pruned resolve).toList := by
  induction n with
  | leaf c =>
    rw [pruned]
    split
    · next h => exact .single (.unknown (Condition.isUnknown_iff.1 h) [])
    · exact .refl
  | join op parts ih =>
    rw [pruned]
    exact ((prunesMany_allPruned ih).within op).trans (prunesMany_rejoined op _)

def ArePruned (resolve : Resolver) (ns : List Filter) : Prop := ∀ ms, ¬ Prunes resolve ns ms

theorem arePruned_nil : ArePruned resolve [] := nofun

theorem arePruned_cons_iff :
    ArePruned resolve (n :: ns) ↔ ArePruned resolve [n] ∧ ArePruned resolve ns := by
  constructor
  · intro h
    exact ⟨fun ms step ↦ h _ (step.append ns), fun ms step ↦ h _ (.later n step)⟩
  · rintro ⟨head, tail⟩ ms step
    cases step with
    | unknown h _ => exact head _ (.unknown h [])
    | empty op _ => exact head _ (.empty op [])
    | only op part _ => exact head _ (.only op part [])
    | first op inner parts _ => exact head _ (.first op inner parts [])
    | within op h _ => exact head _ (.within op h [])
    | later _ h => exact tail _ h

theorem arePruned_append_iff :
    ArePruned resolve (ns ++ ms) ↔ ArePruned resolve ns ∧ ArePruned resolve ms := by
  induction ns with
  | nil => simp [arePruned_nil]
  | cons n ns ih =>
    rw [List.cons_append, arePruned_cons_iff, ih, ← and_assoc, ← arePruned_cons_iff]

theorem arePruned_join {op : Connective} (h : ArePruned resolve ns) (hl : 2 ≤ ns.length)
    (hf : ∀ inner, ns.head? ≠ some (join op inner)) : ArePruned resolve [join op ns] := by
  intro ms step
  cases step with
  | empty => simp at hl
  | only => simp at hl
  | first op inner parts _ => exact hf inner rfl
  | within op step _ => exact h _ step
  | later _ step => exact arePruned_nil _ step

theorem arePruned_opened (op : Connective) (h : ArePruned resolve [n]) :
    ArePruned resolve (n.opened op) ∧ n.opened op ≠ [] ∧
      ∀ inner, (n.opened op).head? ≠ some (join op inner) := by
  cases n with
  | leaf c => exact ⟨h, List.cons_ne_nil _ _, nofun⟩
  | join op' inner =>
    rw [opened]
    split
    · next hop =>
      subst hop
      refine ⟨fun ms step ↦ h _ (.within op' step []), ?_, fun inner' hi ↦ ?_⟩
      · rintro rfl
        exact h _ (.empty op' [])
      · obtain ⟨parts, rfl⟩ := List.head?_eq_some_iff.1 hi
        exact h _ (.first op' inner' parts [])
    · next hop =>
      refine ⟨h, List.cons_ne_nil _ _, fun inner' hi ↦ hop ?_⟩
      cases hi
      rfl

theorem arePruned_rejoined (op : Connective) (h : ArePruned resolve ns) :
    ArePruned resolve (rejoined op ns).toList := by
  match ns with
  | [] => exact arePruned_nil
  | [part] => exact h
  | part :: next :: parts =>
    obtain ⟨head, tail⟩ := arePruned_cons_iff.1 h
    obtain ⟨inner, hne, hf⟩ := arePruned_opened op head
    refine arePruned_join (arePruned_append_iff.2 ⟨inner, tail⟩) ?_ fun inner' ↦ ?_
    · have hpos := List.length_pos_iff.2 hne
      rw [List.length_append, List.length_cons]
      omega
    · rw [List.head?_append_of_ne_nil _ hne]
      exact hf inner'

theorem arePruned_allPruned {parts : List Filter}
    (h : ∀ part ∈ parts, ArePruned resolve (part.pruned resolve).toList) :
    ArePruned resolve (allPruned resolve parts) := by
  induction parts with
  | nil => exact arePruned_nil
  | cons part parts ih =>
    obtain ⟨first, others⟩ := List.forall_mem_cons.1 h
    exact arePruned_append_iff.2 ⟨first, ih others⟩

theorem arePruned_pruned (resolve : Resolver) (n : Filter) :
    ArePruned resolve (n.pruned resolve).toList := by
  induction n with
  | leaf c =>
    rw [pruned]
    split
    · exact arePruned_nil
    · next h =>
      intro ms step
      cases step with
      | unknown hc _ => exact h (Condition.isUnknown_iff.2 hc)
      | later _ step => exact arePruned_nil _ step
  | join op parts ih =>
    rw [pruned]
    exact arePruned_rejoined op (arePruned_allPruned ih)

end Filter

namespace Target

theorem compile_eq_compileAll (t : Target) (resolve : Resolver) (filter? : Option Filter) :
    t.compile resolve filter? =
      (Filter.compileAll resolve t.schema.store filter?.toList).result.map fun es ↦
        t.query es.head? := by
  cases filter? with
  | none => rfl
  | some n =>
    rw [compile_some, Option.toList_some, Filter.result_compileAll_cons]
    cases (n.compile resolve t.schema.store).result with
    | error e => rfl
    | ok e? => cases e? <;> rfl

/-- However a filter is pruned, its query stays the same: the one without any filter where nothing
is left, else the one of what is left. The pruned filter is a result of that kind, and there is
nothing more to prune from it. -/
theorem compile_of_prunesMany (t : Target) (resolve : Resolver) (n : Filter) {q : Query}
    (h : t.compile resolve (some n) = .ok q) :
    (∀ rest, Filter.PrunesMany resolve [n] rest →
      (rest = [] ∧ t.compile resolve none = .ok q) ∨
        ∃ m q', rest = [m] ∧ t.compile resolve (some m) = .ok q' ∧
          q'.inlineText = q.inlineText ∧ q'.boundText = q.boundText ∧
          q'.parameters = q.parameters) ∧
    Filter.PrunesMany resolve [n] (n.pruned resolve).toList ∧
    Filter.ArePruned resolve (n.pruned resolve).toList := by
  refine ⟨fun rest hr ↦ ?_, n.prunesMany_pruned resolve, n.arePruned_pruned resolve⟩
  have same (left? : Option Filter) (hl : Filter.PrunesMany resolve [n] left?.toList) :
      t.compile resolve left? = .ok q := by
    rw [← h, compile_eq_compileAll, compile_eq_compileAll, Option.toList_some,
      t.schema.compileAll_of_prunesMany hl]
  have hlength := hr.length_le
  match rest with
  | [] => exact .inl ⟨rfl, same none hr⟩
  | [m] => exact .inr ⟨m, q, rfl, same (some m) hr, rfl, rfl, rfl⟩
  | m :: m' :: rest =>
    simp only [List.length_cons, List.length_nil] at hlength
    omega

theorem compile_of_prunesMany_nested :
    let resolve : Resolver := fun _ ↦ .ok none
    let unknown : Filter := .leaf (.onAttribute ['a'] .oneOf (.scalar ['1']))
    let nowhere : Filter := .leaf (.onRelation locations .isAny [])
    let field (name : Text) : Filter := .leaf (.onField name .equal (.scalar name))
    let n : Filter := .join .and [.join .or [unknown, .join .and []],
      .join .or [.join .and [field ['x'], .join .or [nowhere]]], .join .and [field ['y'], field ['z']]]
    let m : Filter := .join .and [field ['x'], nowhere, .join .and [field ['y'], field ['z']]]
    ∃ q q', default.compile resolve (some n) = .ok q ∧ n.pruned resolve = some m ∧
      default.compile resolve (some m) = .ok q' ∧ q'.inlineText = q.inlineText ∧
      q'.boundText = q.boundText ∧ q'.parameters = q.parameters := by
  intro resolve unknown nowhere field n m
  have hm : n.pruned resolve = some m := rfl
  obtain ⟨all, pruned, -⟩ := compile_of_prunesMany default resolve n rfl
  rw [hm] at pruned
  obtain ⟨hnil, -⟩ | ⟨m', q', hm', same⟩ := all _ pruned
  · cases hnil
  · cases hm'
    exact ⟨_, q', rfl, hm, same⟩

end Target

end ListingFilter
