import ListingFilter.Proofs.Sql.Evaluation
import ListingFilter.Proofs.Sql.Pruning

namespace ListingFilter

namespace Connective

variable {α : Type} {P : α → Prop} {as bs cs : List α}

theorem combines_singleton_iff (op : Connective) (a : α) : op.Combines P [a] ↔ P a := by
  cases op <;> simp [Combines]

theorem combines_append_congr (op : Connective) {as' bs' : List α}
    (ha : op.Combines P as ↔ op.Combines P as') (hb : op.Combines P bs ↔ op.Combines P bs') :
    op.Combines P (as ++ bs) ↔ op.Combines P (as' ++ bs') := by
  cases op with
  | and =>
    simp only [Combines, List.forall_mem_append] at ha hb ⊢
    rw [ha, hb]
  | or =>
    simp only [Combines, List.mem_append, or_and_right, exists_or] at ha hb ⊢
    rw [ha, hb]

theorem combines_perm (op : Connective) (h : as.Perm bs) : op.Combines P as ↔ op.Combines P bs := by
  cases op <;> simp only [Combines, h.mem_iff]

end Connective

def Store.Groups {π κ : Type} (store : Store π) (holds : π → κ → Prop) : Prop :=
  ∀ op predicates record, holds (store.group op predicates) record ↔
    op.Combines (holds · record) predicates

theorem Schema.groups_store {δ : Type} (s : Schema) :
    s.store.Groups fun e (record : Sql.Database δ × Sql.Scope δ) ↦
      e.holds record.1 record.2 = true :=
  fun op es record ↦ Sql.Expr.holds_group_iff op es record.2

namespace Filter

inductive IsUniform (op : Connective) : Filter → Prop
  | leaf (c : Condition) : IsUniform op (leaf c)
  | join {parts : List Filter} (h : ∀ part ∈ parts, IsUniform op part) :
    IsUniform op (join op parts)

variable {π κ : Type} {resolve : Resolver} {store : Store π} {holds : π → κ → Prop}
  {op : Connective} {n m : Filter} {parts : List Filter}

theorem exists_compile_eq_ok_iff :
    (∃ p?, (n.compile resolve store).result = .ok p?) ↔
      ∀ c ∈ n.leaves, error? (c.compile resolve store).result = none := by
  have failure : error? (n.compile resolve store).result =
      n.leaves.findSome? fun c ↦ error? (c.compile resolve store).result := by
    rw [(n.follows_leaves resolve store).error?_eq, List.findSome?_map]
    rfl
  rw [← List.findSome?_eq_none_iff, ← failure]
  cases (n.compile resolve store).result <;> simp [error?]

theorem exists_compile_eq_ok_of_perm (h : n.leaves.Perm m.leaves) :
    (∃ p?, (n.compile resolve store).result = .ok p?) ↔
      ∃ p?, (m.compile resolve store).result = .ok p? := by
  simp only [exists_compile_eq_ok_iff, h.mem_iff]

def leafPredicates (resolve : Resolver) (store : Store π) (leaves : List Condition) : List π :=
  leaves.filterMap fun c ↦ (c.compile resolve store).result.toOption.join

theorem leafPredicates_singleton {c : Condition} {p? : Option π}
    (h : (c.compile resolve store).result = .ok p?) :
    leafPredicates resolve store [c] = p?.toList := by
  rw [leafPredicates, List.filterMap_cons, h]
  cases p? <;> rfl

theorem leafPredicates_append (cs ds : List Condition) :
    leafPredicates resolve store (cs ++ ds) =
      leafPredicates resolve store cs ++ leafPredicates resolve store ds :=
  List.filterMap_append

theorem combines_joined?_iff (groups : store.Groups holds) (op : Connective) (ps : List π)
    (record : κ) :
    op.Combines (holds · record) (joined? store op ps).toList ↔ op.Combines (holds · record) ps := by
  cases ps with
  | nil => exact Iff.rfl
  | cons p ps =>
    refine (op.combines_singleton_iff _).trans ?_
    exact groups op (p :: ps) record

theorem combines_compileAll_iff {ps : List π} {record : κ}
    (h : ∀ part ∈ parts, ∀ p?, (part.compile resolve store).result = .ok p? →
      (op.Combines (holds · record) p?.toList ↔
        op.Combines (holds · record) (leafPredicates resolve store part.leaves)))
    (hp : (compileAll resolve store parts).result = .ok ps) :
    op.Combines (holds · record) ps ↔
      op.Combines (holds · record) (leafPredicates resolve store (allLeaves parts)) := by
  induction parts generalizing ps with
  | nil =>
    cases hp
    exact Iff.rfl
  | cons part parts ih =>
    obtain ⟨first, others⟩ := List.forall_mem_cons.1 h
    rw [result_compileAll_cons] at hp
    obtain ⟨p?, head, hp⟩ := exists_of_bind_eq_ok hp
    obtain ⟨rest, tail, rfl⟩ := exists_of_map_eq_ok hp
    rw [allLeaves, leafPredicates_append]
    exact op.combines_append_congr (first p? head) (ih others tail)

/-- The predicate of a uniform filter combines those of its conditions, wherever they stand. -/
theorem IsUniform.combines_iff (groups : store.Groups holds) (hn : n.IsUniform op) {p? : Option π}
    (h : (n.compile resolve store).result = .ok p?) (record : κ) :
    op.Combines (holds · record) p?.toList ↔
      op.Combines (holds · record) (leafPredicates resolve store n.leaves) := by
  induction n generalizing p? with
  | leaf c =>
    rw [leaves, leafPredicates_singleton h]
  | join op' parts ih =>
    cases hn with
    | join hparts =>
      rw [result_compile_join] at h
      obtain ⟨ps, hps, rfl⟩ := exists_of_map_eq_ok h
      rw [combines_joined?_iff groups, leaves]
      exact combines_compileAll_iff (fun part hp _ hq ↦ ih part hp (hparts part hp) hq) hps

theorem combines_of_perm (groups : store.Groups holds) (hn : n.IsUniform op) (hm : m.IsUniform op)
    (h : n.leaves.Perm m.leaves) {p? q? : Option π}
    (hp : (n.compile resolve store).result = .ok p?) (hq : (m.compile resolve store).result = .ok q?)
    (record : κ) :
    op.Combines (holds · record) p?.toList ↔ op.Combines (holds · record) q?.toList := by
  rw [hn.combines_iff groups hp, hm.combines_iff groups hq]
  exact op.combines_perm (h.filterMap _)

theorem compile_eq_ok_none_of_perm (h : n.leaves.Perm m.leaves) :
    (n.compile resolve store).result = .ok none ↔ (m.compile resolve store).result = .ok none := by
  simp only [compile_eq_ok_none_iff, h.mem_iff]

theorem holds_iff_of_perm (groups : store.Groups holds) (hn : n.IsUniform op) (hm : m.IsUniform op)
    (h : n.leaves.Perm m.leaves) {p? q? : Option π}
    (hp : (n.compile resolve store).result = .ok p?)
    (hq : (m.compile resolve store).result = .ok q?) :
    Option.Rel (fun p q ↦ ∀ record, holds p record ↔ holds q record) p? q? := by
  have vanish : (n.compile resolve store).result = .ok none ↔
      (m.compile resolve store).result = .ok none := compile_eq_ok_none_of_perm h
  rw [hp, hq, Except.ok.injEq, Except.ok.injEq] at vanish
  cases p? with
  | none =>
    rw [vanish.1 rfl]
    exact .none
  | some p =>
    cases q? with
    | none => cases vanish.2 rfl
    | some q =>
      refine .some fun record ↦ ?_
      have combines := combines_of_perm groups hn hm h hp hq record
      rwa [Option.toList_some, Option.toList_some, op.combines_singleton_iff,
        op.combines_singleton_iff] at combines

end Filter

namespace Target

variable {t : Target} {resolve : Resolver} {n : Filter}

theorem exists_compile_eq_ok_iff :
    (∃ q, t.compile resolve (some n) = .ok q) ↔
      ∃ e?, (n.compile resolve t.schema.store).result = .ok e? := by
  rw [compile_some]
  constructor
  · intro h
    obtain ⟨q, hq⟩ := h
    obtain ⟨e?, he, -⟩ := exists_of_map_eq_ok hq
    exact ⟨e?, he⟩
  · intro h
    obtain ⟨e?, he⟩ := h
    exact ⟨t.query e?, by rw [he]; rfl⟩

/-- Filters under one connective and with the same conditions, in any order and grouping, compile
together or not at all. Both vanish or neither does, and their predicates are true of the same
records, so that their queries select the same rows. Joins may have any number of parts. -/
theorem accepts_eq_of_perm (op : Connective) {n m : Filter} (hn : n.IsUniform op)
    (hm : m.IsUniform op) (h : n.leaves.Perm m.leaves) (resolve : Resolver) :
    (∀ {π κ : Type} (store : Store π) (holds : π → κ → Prop), store.Groups holds →
      ((∃ p?, (n.compile resolve store).result = .ok p?) ↔
        ∃ q?, (m.compile resolve store).result = .ok q?) ∧
      ∀ p? q?, (n.compile resolve store).result = .ok p? →
        (m.compile resolve store).result = .ok q? →
        Option.Rel (fun p q ↦ ∀ record, holds p record ↔ holds q record) p? q?) ∧
    ∀ t : Target,
      ((∃ q, t.compile resolve (some n) = .ok q) ↔ ∃ q, t.compile resolve (some m) = .ok q) ∧
      ∀ q q', t.compile resolve (some n) = .ok q → t.compile resolve (some m) = .ok q' →
        q.isFiltered = q'.isFiltered ∧
        ∀ {δ : Type} (db : Sql.Database δ) (row : Sql.Row δ),
          q.select.accepts db row = q'.select.accepts db row := by
  refine ⟨fun store holds groups ↦ ⟨Filter.exists_compile_eq_ok_of_perm h, fun p? q? hp hq ↦
    Filter.holds_iff_of_perm groups hn hm h hp hq⟩, fun t ↦ ⟨?_, fun q q' hq hq' ↦ ?_⟩⟩
  · rw [exists_compile_eq_ok_iff, exists_compile_eq_ok_iff]
    exact Filter.exists_compile_eq_ok_of_perm h
  · rw [compile_some] at hq hq'
    obtain ⟨e?, he, rfl⟩ := exists_of_map_eq_ok hq
    obtain ⟨e'?, he', rfl⟩ := exists_of_map_eq_ok hq'
    have agree {δ : Type} := Filter.holds_iff_of_perm (t.schema.groups_store (δ := δ)) hn hm h he he'
    constructor
    · cases agree (δ := Unit) <;> rfl
    · intro δ db row
      cases agree (δ := δ) with
      | none => rfl
      | some same => exact Bool.eq_iff_iff.2 (same (db, [(t.schema.primaryTable, row)]))

theorem accepts_eq_of_perm_regrouped :
    let leaf (name : Text) : Filter := .leaf (.onField name .equal (.scalar name))
    let unknown : Filter := .leaf (.onAttribute ['u'] .oneOf (.scalar ['1']))
    let n : Filter := .join .or [leaf ['a'], unknown, leaf ['b']]
    let m : Filter := .join .or [leaf ['b'], .join .or [.join .or [unknown], leaf ['a']]]
    n.IsUniform .or ∧ m.IsUniform .or ∧ n.leaves.Perm m.leaves ∧
      ∃ q q', default.compile (fun _ ↦ .ok none) (some n) = .ok q ∧
        default.compile (fun _ ↦ .ok none) (some m) = .ok q' ∧ q.inlineText ≠ q'.inlineText ∧
        ∀ {δ : Type} (db : Sql.Database δ) (row : Sql.Row δ),
          q.select.accepts db row = q'.select.accepts db row := by
  intro leaf unknown n m
  have hn : n.IsUniform .or := by
    refine .join (List.forall_mem_cons.2 ⟨.leaf _, List.forall_mem_cons.2 ⟨.leaf _, ?_⟩⟩)
    exact List.forall_mem_singleton.2 (.leaf _)
  have hm : m.IsUniform .or := by
    refine .join (List.forall_mem_cons.2 ⟨.leaf _, List.forall_mem_singleton.2 (.join ?_)⟩)
    refine List.forall_mem_cons.2 ⟨.join (List.forall_mem_singleton.2 (.leaf _)), ?_⟩
    exact List.forall_mem_singleton.2 (.leaf _)
  have h : n.leaves.Perm m.leaves := by decide
  obtain ⟨-, queries⟩ := accepts_eq_of_perm .or hn hm h fun _ ↦ .ok none
  obtain ⟨-, same⟩ := queries default
  exact ⟨hn, hm, h, _, _, rfl, rfl, by decide, (same _ _ rfl rfl).2⟩

end Target

end ListingFilter
