import ListingFilter.Proofs.Filter.SingleReading
import ListingFilter.Proofs.Predicate.Leaves
import ListingFilter.Proofs.Sql.Piece
import ListingFilter.Query

namespace ListingFilter

open Token

variable {π : Type} {resolve : Resolver} {store : Store π}

def Condition.IsUnknown (resolve : Resolver) : Condition → Prop
  | onAttribute name _ _ => resolve name = .ok none
  | onField .. | onRelation .. => False

theorem map_some_ne_ok_none (x : Except FilterError π) : x.map some ≠ .ok none := by
  intro h
  obtain ⟨p, -, hp⟩ := exists_of_map_eq_ok h
  cases hp

theorem Condition.compile_eq_ok_none_iff {c : Condition} :
    (c.compile resolve store).result = .ok none ↔ c.IsUnknown resolve := by
  cases c with
  | onField name op operand => exact iff_of_false (map_some_ne_ok_none _) id
  | onRelation name test values => exact iff_of_false (map_some_ne_ok_none _) id
  | onAttribute name op operand =>
    rw [compile, Traced.result_bind, Traced.lookUp, IsUnknown]
    obtain e | _ | a := resolve name
    · exact iff_of_false (fun h ↦ by cases h) fun h ↦ by cases h
    · exact iff_of_true rfl rfl
    · exact iff_of_false (map_some_ne_ok_none _) fun h ↦ by cases h

namespace Filter

theorem compileAll_eq_ok_nil_iff {parts : List Filter} :
    (compileAll resolve store parts).result = .ok [] ↔
      ∀ part ∈ parts, (part.compile resolve store).result = .ok none := by
  induction parts with
  | nil => exact iff_of_true rfl (List.forall_mem_nil _)
  | cons part parts ih =>
    rw [List.forall_mem_cons, ← ih]
    simp only [compileAll, Traced.result_bind]
    constructor
    · intro h
      obtain ⟨p?, hp, h⟩ := exists_of_bind_eq_ok h
      obtain ⟨ps, hps, h⟩ := exists_of_bind_eq_ok h
      obtain ⟨hp?, rfl⟩ := List.append_eq_nil_iff.1 (Except.ok.inj h)
      exact ⟨Option.toList_eq_nil_iff.1 hp? ▸ hp, hps⟩
    · rintro ⟨hp, hps⟩
      rw [hp, hps]
      rfl

theorem compile_join_eq_ok_none_iff {op : Connective} {parts : List Filter} :
    ((join op parts).compile resolve store).result = .ok none ↔
      (compileAll resolve store parts).result = .ok [] := by
  rw [compile, Traced.result_bind]
  constructor
  · intro h
    obtain ⟨ps, hps, h⟩ := exists_of_bind_eq_ok h
    cases ps with
    | nil => exact hps
    | cons p ps => cases h
  · intro h
    rw [h]
    rfl

/-- A filter vanishes where all its conditions do, through any joins and also without conditions. -/
theorem compile_eq_ok_none_iff {n : Filter} :
    (n.compile resolve store).result = .ok none ↔ ∀ c ∈ n.leaves, c.IsUnknown resolve := by
  induction n with
  | leaf c => rw [compile, Condition.compile_eq_ok_none_iff, leaves, List.forall_mem_singleton]
  | join op parts ih =>
    simp only [compile_join_eq_ok_none_iff, compileAll_eq_ok_nil_iff, mem_leaves_join_iff]
    constructor
    · rintro h c ⟨part, hp, hc⟩
      exact (ih part hp).1 (h part hp) c hc
    · intro h part hp
      exact (ih part hp).2 fun c hc ↦ h c ⟨part, hp, hc⟩

theorem ofLayer_eq_ok_none_iff {range : List Token → Except FilterError Filter} {l : Layer} :
    ofLayer range l = .ok none ↔ l.ranges = [] := by
  obtain ⟨op?, ranges⟩ := l
  cases ranges with
  | nil => cases op? <;> exact iff_of_true rfl rfl
  | cons first ranges =>
    refine iff_of_false (fun h ↦ ?_) (List.cons_ne_nil _ _)
    cases op? with
    | none => exact map_some_ne_ok_none _ h
    | some op =>
      obtain ⟨parts, -, hp⟩ := exists_of_map_eq_ok h
      cases hp

theorem bind_ofLayer_eq_ok_none_iff {range : List Token → Except FilterError Filter}
    {ts : List Token} : (layer ts >>= ofLayer range) = .ok none ↔ ts = [] := by
  constructor
  · intro h
    obtain ⟨l, hl, h⟩ := exists_of_bind_eq_ok h
    exact eq_nil_of_ranges_eq_nil hl (ofLayer_eq_ok_none_iff.1 h)
  · rintro rfl
    rfl

theorem read?_eq_ok_none_iff {t : Text} :
    read? t = .ok none ↔
      (Token.read t).map kind = [] ∨ (Token.read t).map kind = [.opening, .closing] := by
  rw [read?_eq_ofTokens?, ofTokens?, bind_ofLayer_eq_ok_none_iff, List.map_eq_nil_iff]
  cases he : enclosed? (Token.read t) with
  | none =>
    refine ⟨.inl, fun h ↦ h.resolve_right fun hk ↦ ?_⟩
    obtain ⟨first, rest, ht, hf, hk⟩ := List.map_eq_cons_iff.1 hk
    obtain ⟨close, rest, rfl, hc, hr⟩ := List.map_eq_cons_iff.1 hk
    obtain rfl := List.map_eq_nil_iff.1 hr
    have hs : enclosed? (Token.read t) = some [] :=
      enclosed?_eq_some_iff.2 ⟨first, close, ht, hf, hc, rfl⟩
    rw [he] at hs
    cases hs
  | some inside =>
    obtain ⟨first, close, ht, hf, hc, -⟩ := enclosed?_eq_some_iff.1 he
    rw [ht, Option.getD_some]
    constructor
    · rintro rfl
      exact .inr (by simp [hf, hc])
    · intro h
      cases inside with
      | nil => rfl
      | cons token inside => simp at h

end Filter

namespace Target

variable {t : Target} {q : Query}

def query (t : Target) (condition? : Option Sql.Expr) : Query :=
  ⟨⟨t.schema.primaryTable, condition?⟩, t.dialect⟩

theorem compile_some (t : Target) (resolve : Resolver) (n : Filter) :
    t.compile resolve (some n) = (n.compile resolve t.schema.store).result.map t.query := by
  change ((n.compile resolve t.schema.store).result >>= _) = _
  cases (n.compile resolve t.schema.store).result <;> rfl

theorem apply_some (t : Target) (resolve : Resolver) (text : Text) :
    t.apply resolve (some text) = Filter.read? text >>= t.compile resolve := rfl

theorem exists_query_of_compile {filter? : Option Filter}
    (h : t.compile resolve filter? = .ok q) : ∃ condition?, q = t.query condition? := by
  cases filter? with
  | none => exact ⟨none, (Except.ok.inj h).symm⟩
  | some n =>
    rw [compile_some] at h
    obtain ⟨condition?, -, hq⟩ := exists_of_map_eq_ok h
    exact ⟨condition?, hq.symm⟩

theorem compile_unfiltered_iff {n : Filter} :
    (∃ q, t.compile resolve (some n) = .ok q ∧ q.isFiltered = false) ↔
      ∀ c ∈ n.leaves, c.IsUnknown resolve := by
  rw [← Filter.compile_eq_ok_none_iff, compile_some]
  constructor
  · rintro ⟨q, hq, hf⟩
    obtain ⟨condition?, hc, rfl⟩ := exists_of_map_eq_ok hq
    cases condition? with
    | none => exact hc
    | some e => cases hf
  · intro h
    exact ⟨t.query none, by rw [h]; rfl, rfl⟩

theorem apply_unfiltered_iff {text : Text} :
    (∃ q, t.apply resolve (some text) = .ok q ∧ q.isFiltered = false) ↔
      Filter.read? text = .ok none ∨
        ∃ n, Filter.read? text = .ok (some n) ∧ ∀ c ∈ n.leaves, c.IsUnknown resolve := by
  rw [apply_some]
  constructor
  · rintro ⟨q, hq, hf⟩
    obtain ⟨filter?, hr, hq⟩ := exists_of_bind_eq_ok hq
    cases filter? with
    | none => exact .inl hr
    | some n => exact .inr ⟨n, hr, compile_unfiltered_iff.1 ⟨q, hq, hf⟩⟩
  · rintro (hr | ⟨n, hr, hn⟩)
    · rw [hr]
      exact ⟨t.query none, rfl, rfl⟩
    · rw [hr]
      exact compile_unfiltered_iff.2 hn

/-- The text of a filter selects every listing exactly where it has no tokens, or two parentheses
alone, or conditions on unknown attributes alone. The statement is then the one without any filter,
and a statement that leaves listings out goes on from that one with a condition. So it is for
filters that no text was read as. -/
theorem unfiltered (t : Target) (resolve : Resolver) :
    (∀ text, (∃ q, t.apply resolve (some text) = .ok q ∧ q.isFiltered = false) ↔
      (Token.read text).map kind = [] ∨ (Token.read text).map kind = [.opening, .closing] ∨
        ∃ n, Filter.read? text = .ok (some n) ∧ ∀ c ∈ n.leaves, c.IsUnknown resolve) ∧
    (∃ every, t.apply resolve none = .ok every ∧
      every.inlineText = t.dialect.everyRow t.schema.primaryTable ∧
      every.boundText = t.dialect.everyRow t.schema.primaryTable ∧ every.parameters = [] ∧
      ∀ text q, t.apply resolve (some text) = .ok q →
        (q.isFiltered = false → q.inlineText = every.inlineText ∧ q.boundText = every.boundText ∧
          q.parameters = []) ∧
        (q.isFiltered = true → ∃ e : Sql.Expr,
          q.inlineText = every.inlineText ++ .ofString " WHERE " ++ t.dialect.inlineText e.pieces ∧
          q.boundText = every.boundText ++ .ofString " WHERE " ++
            t.dialect.boundText 0 e.pieces)) ∧
    ∀ n, (∃ q, t.compile resolve (some n) = .ok q ∧ q.isFiltered = false) ↔
      (∃ q, t.compile resolve (some n) = .ok q) ∧ ∀ c ∈ n.leaves, c.IsUnknown resolve := by
  refine ⟨fun text ↦ ?_, ⟨t.query none, rfl, ?_, ?_, rfl, fun text q hq ↦ ?_⟩, fun n ↦ ?_⟩
  · rw [apply_unfiltered_iff, Filter.read?_eq_ok_none_iff, or_assoc]
  · exact t.dialect.inlineText_everyRow _
  · exact t.dialect.boundText_everyRow _
  · rw [apply_some] at hq
    obtain ⟨filter?, -, hq⟩ := exists_of_bind_eq_ok hq
    obtain ⟨condition?, rfl⟩ := exists_query_of_compile hq
    cases condition? with
    | none => exact ⟨fun _ ↦ ⟨rfl, rfl, rfl⟩, nofun⟩
    | some e =>
      refine ⟨nofun, fun _ ↦ ⟨e, ?_, ?_⟩⟩
      · exact t.dialect.inlineText_select _ e
      · exact t.dialect.boundText_select _ e
  · constructor
    · rintro ⟨q, hq, hf⟩
      exact ⟨⟨q, hq⟩, compile_unfiltered_iff.1 ⟨q, hq, hf⟩⟩
    · rintro ⟨-, hn⟩
      exact compile_unfiltered_iff.2 hn

theorem unfiltered_unknown :
    let resolve : Resolver := fun _ ↦ .ok none
    let text : Text := .ofString "(attribute:a = 1) AND attribute:b = (x, y)"
    ∃ q, default.apply resolve (some text) = .ok q ∧ q.isFiltered = false ∧
      q.inlineText = default.dialect.everyRow default.schema.primaryTable ∧ q.parameters = [] := by
  intro resolve text
  let n : Filter := .join .and [.leaf (.onAttribute ['a'] .equal (.scalar ['1'])),
    .leaf (.onAttribute ['b'] .oneOf (.set [['x'], ['y']]))]
  have hr : Filter.read? (.ofString "(attribute:a = 1) AND attribute:b = (x, y)") =
      .ok (some n) := by with_unfolding_all rfl
  have unknown : ∀ c ∈ n.leaves, c.IsUnknown resolve := by
    intro c hc
    obtain rfl | rfl : c = .onAttribute ['a'] .equal (.scalar ['1']) ∨
        c = .onAttribute ['b'] .oneOf (.set [['x'], ['y']]) := by
      simpa [n, Filter.leaves, Filter.allLeaves] using hc
    · rfl
    · rfl
  obtain ⟨exactly, ⟨every, -, hevery, -, -, same⟩, -⟩ := unfiltered default resolve
  obtain ⟨q, hq, hf⟩ := (exactly text).2 (.inr (.inr ⟨n, hr, unknown⟩))
  obtain ⟨hinline, -, hp⟩ := (same text q hq).1 hf
  exact ⟨q, hq, hf, hinline.trans hevery, hp⟩

end Target

end ListingFilter
