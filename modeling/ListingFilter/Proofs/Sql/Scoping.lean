import ListingFilter.Proofs.Predicate.Scoping
import ListingFilter.Proofs.Sql.Grouping
import ListingFilter.Proofs.Sql.Unfiltered

namespace ListingFilter

namespace Sql

def Source.tables (s : Source) : List Text := s.name :: (s.join?.map Join.table).toList

namespace Expr

def columnsIn (around : List Source) : Expr → List (List Source × ColumnRef)
  | truth _ => []
  | compare column _ _ | member column _ => [(around, column)]
  | same left right => [(around, left), (around, right)]
  | rowExists source condition =>
    (source.join?.elim [] fun j ↦ [(source :: around, j.left), (source :: around, j.right)]) ++
      condition.columnsIn (source :: around)
  | binary _ left right => left.columnsIn around ++ right.columnsIn around

theorem mem_columnsIn_foldl_iff {around : List Source} {op : Connective} {first : Expr}
    {rest : List Expr} {site : List Source × ColumnRef} :
    site ∈ (rest.foldl (.binary op) first).columnsIn around ↔
      ∃ e ∈ first :: rest, site ∈ e.columnsIn around := by
  induction rest generalizing first with
  | nil => simp
  | cons second rest ih => simp [ih, columnsIn, or_assoc]

theorem mem_columnsIn_group_iff {around : List Source} {op : Connective} {es : List Expr}
    {site : List Source × ColumnRef} :
    site ∈ (group op es).columnsIn around ↔ ∃ e ∈ es, site ∈ e.columnsIn around := by
  cases es with
  | nil => simp [group, columnsIn]
  | cons first rest => exact mem_columnsIn_foldl_iff

end Expr

end Sql

open Sql

def Mapping.tieColumns (relation : Text) (m : Mapping) : List ColumnRef :=
  match m.pivot? with
  | none => [⟨relation, m.foreignKey⟩]
  | some p => [⟨p.table, m.foreignKey⟩, ⟨p.table, p.relatedKey⟩, ⟨relation, m.key⟩]

theorem Mapping.table_mem_tables {relation : Text} {m : Mapping} {column : ColumnRef}
    (h : column ∈ m.tieColumns relation) : column.table ∈ (m.source relation).tables := by
  rw [tieColumns] at h
  split at h
  · rw [List.mem_singleton.1 h]
    exact List.mem_cons_self
  · next p hp =>
    have tables : (m.source relation).tables = [relation, p.table] := by
      simp [Source.tables, source, hp]
    rw [tables]
    simp only [List.mem_cons, List.not_mem_nil, or_false] at h
    obtain rfl | rfl | rfl := h <;> simp

theorem Mapping.mem_tieColumns_of_join? {relation : Text} {m : Mapping} {j : Join}
    (h : (m.source relation).join? = some j) :
    j.left ∈ m.tieColumns relation ∧ j.right ∈ m.tieColumns relation := by
  obtain ⟨p, hp, rfl⟩ := Option.map_eq_some_iff.1 h
  simp [tieColumns, hp]

namespace Schema

variable (s : Schema)

/-- The columns that a condition can have, outside of sub-selects and in one on the rows of a
relation. The display name of the rows is the one that their mapping gives. -/
inductive HasColumn : List Source → ColumnRef → Prop
  | listing (name : Text) : HasColumn [] ⟨s.primaryTable, name⟩
  | owner {relation : Text} {m : Mapping} (hm : s.relation? relation = some m) :
    HasColumn [m.source relation] s.owner
  | tie {relation : Text} {m : Mapping} {column : ColumnRef} (hm : s.relation? relation = some m)
    (hc : column ∈ m.tieColumns relation) : HasColumn [m.source relation] column
  | name {relation : Text} {m : Mapping} (hm : s.relation? relation = some m) :
    HasColumn [m.source relation] ⟨relation, m.nameColumn⟩
  | row {relation name : Text} {m : Mapping} (hm : s.relation? relation = some m)
    (hc : .related relation name ∈ attributeIdColumn :: attributeValueColumn :: placeColumns) :
    HasColumn [m.source relation] ⟨relation, name⟩

/-- The sub-selects around a test on the listing, and around one on the rows of a relation. -/
inductive Surrounds : Option Text → List Source → Prop
  | listing : Surrounds none []
  | row {relation : Text} {m : Mapping} (hm : s.relation? relation = some m) :
    Surrounds (some relation) [m.source relation]

variable {s} {relation : Text} {m : Mapping} {around : List Source} {e : Expr}

theorem HasColumn.table {column : ColumnRef} (h : s.HasColumn around column) :
    column.table = s.primaryTable ∨ ∃ source ∈ around.head?, column.table ∈ source.tables := by
  cases h with
  | listing name => exact .inl rfl
  | owner hm => exact .inl rfl
  | name hm => exact .inr ⟨_, rfl, List.mem_cons_self⟩
  | row hm hc => exact .inr ⟨_, rfl, List.mem_cons_self⟩
  | tie hm hc => exact .inr ⟨_, rfl, Mapping.table_mem_tables hc⟩

theorem hasColumn_column {column : Column} {scope? : Option Text} (hc : column.InScope scope?)
    (ha : s.Surrounds scope? around) : s.HasColumn around (s.column column) := by
  cases hc with
  | field name =>
    cases ha
    exact .listing name
  | relatedName relation =>
    cases ha with
    | row hm =>
      rw [column, nameColumn, hm]
      exact .name hm
  | @place column hc =>
    cases ha with
    | row hm =>
      obtain ⟨name, rfl⟩ : ∃ name, column = .related locations name := by
        simp only [placeColumns, List.mem_cons, List.not_mem_nil, or_false] at hc
        obtain rfl | rfl | rfl := hc <;> exact ⟨_, rfl⟩
      exact .row hm (List.mem_cons_of_mem _ (List.mem_cons_of_mem _ hc))
  | attributeValue =>
    cases ha with
    | row hm => exact .row hm (by simp [attributeValueColumn])

theorem hasColumn_link (hm : s.relation? relation = some m) :
    ∀ site ∈ (s.link relation m).columnsIn [m.source relation], s.HasColumn site.1 site.2 := by
  have tie {column : ColumnRef} (hc : column ∈ m.tieColumns relation) :
      ∀ site ∈ (Expr.same column s.owner).columnsIn [m.source relation],
        s.HasColumn site.1 site.2 :=
    List.forall_mem_cons.2 ⟨.tie hm hc, List.forall_mem_singleton.2 (.owner hm)⟩
  rw [link]
  cases hp : m.pivot? with
  | none => exact tie (by simp [Mapping.tieColumns, hp])
  | some p => exact tie (by simp [Mapping.tieColumns, hp])

theorem hasColumn_rowExists {filter? : Option Expr} (hm : s.relation? relation = some m)
    (hf : ∀ f ∈ filter?, ∀ site ∈ f.columnsIn [m.source relation], s.HasColumn site.1 site.2) :
    ∀ site ∈ (Expr.rowExists (m.source relation)
      (.group .and (s.link relation m :: filter?.toList))).columnsIn [],
        s.HasColumn site.1 site.2 := by
  intro site hs
  rw [Expr.columnsIn, List.mem_append, Expr.mem_columnsIn_group_iff] at hs
  obtain hs | ⟨e, he, hs⟩ := hs
  · cases hj : (m.source relation).join? with
    | none =>
      rw [hj] at hs
      cases hs
    | some j =>
      rw [hj] at hs
      obtain ⟨hl, hr⟩ := Mapping.mem_tieColumns_of_join? hj
      obtain rfl | hs := List.mem_cons.1 hs
      · exact .tie hm hl
      · rw [List.mem_singleton.1 hs]
        exact .tie hm hr
  · obtain rfl | he := List.mem_cons.1 he
    · exact hasColumn_link hm site hs
    · exact hf e (Option.mem_toList.1 he) site hs

theorem hasColumn_compare {column : Column} {scope? : Option Text} (hc : column.InScope scope?)
    (ha : s.Surrounds scope? around) (op : Comparison) (value : Text) :
    ∀ site ∈ (s.compare column op value).columnsIn around, s.HasColumn site.1 site.2 := by
  have columns : (s.compare column op value).columnsIn around = [(around, s.column column)] := by
    cases op <;> rfl
  rw [columns]
  exact List.forall_mem_singleton.2 (hasColumn_column hc ha)

theorem hasColumn_of_replay_group {op : Connective} {parts : List Predicate}
    (h : (Predicate.group op parts).replay s.store = .ok e)
    (hparts : ∀ part ∈ parts, ∀ f, part.replay s.store = .ok f →
      ∀ site ∈ f.columnsIn around, s.HasColumn site.1 site.2) :
    ∀ site ∈ e.columnsIn around, s.HasColumn site.1 site.2 := by
  obtain ⟨es, hes, h⟩ := exists_of_bind_eq_ok h
  cases h
  rw [Predicate.replayAll_eq_mapM] at hes
  intro site hs
  obtain ⟨f, hf, hs⟩ := Expr.mem_columnsIn_group_iff.1 hs
  exact forall_of_mapM_eq_ok hes hparts f hf site hs

theorem hasColumn_of_replay {p : Predicate} {scope? : Option Text} (hp : p.IsScoped scope?)
    (ha : s.Surrounds scope? around) (h : p.replay s.store = .ok e) :
    ∀ site ∈ e.columnsIn around, s.HasColumn site.1 site.2 := by
  induction hp generalizing around e with
  | compare hc ho value =>
    cases h
    exact hasColumn_compare hc ha _ value
  | isIn hc values =>
    cases h
    exact List.forall_mem_singleton.2 (hasColumn_column hc ha)
  | remote =>
    cases h
    cases ha
    exact List.forall_mem_singleton.2 (.listing s.remoteColumn)
  | group op hne _ ih => exact hasColumn_of_replay_group h fun part hp f hf ↦ ih part hp ha hf
  | nowhere =>
    cases h
    exact List.forall_mem_nil _
  | attributeValue id _ ih =>
    refine hasColumn_of_replay_group h
      (List.forall_mem_cons.2 ⟨?_, List.forall_mem_singleton.2 fun f hf ↦ ih ha hf⟩)
    intro f hf
    cases hf
    cases ha with
    | row hm => exact List.forall_mem_singleton.2 (.row hm List.mem_cons_self)
  | has relation =>
    cases ha
    obtain ⟨m, hm, rfl⟩ := exists_of_has_eq_ok h
    exact hasColumn_rowExists hm (by simp)
  | hasWith _ ih =>
    cases ha
    obtain ⟨f, hf, h⟩ := exists_of_bind_eq_ok h
    obtain ⟨m, hm, rfl⟩ := exists_of_has_eq_ok h
    refine hasColumn_rowExists hm fun f' hf' ↦ ?_
    cases hf'
    exact ih (.row hm) hf

end Schema

/-- In the predicate of a filter every operation stands where it may, and the empty groups are the
ORs of no places. So in the statement every column is one of the primary table, or one of the rows or
of the pivot of the sub-select right around it, and no display name is that of a relation that the
schema does not have. -/
theorem Filter.hasColumn_of_compile (n : Filter) (resolve : Resolver) :
    (∀ unknown p, (n.compile resolve (Predicate.recorder unknown)).result = .ok (some p) →
      p.IsScoped none ∧ p.emptyGroups = n.leaves.flatMap Condition.emptyGroups) ∧
    ∀ (t : Target) q e, t.compile resolve (some n) = .ok q → q.select.condition? = some e →
      ∀ around column, (around, column) ∈ e.columnsIn [] →
        t.schema.HasColumn around column ∧ (column.table = t.schema.primaryTable ∨
          ∃ source ∈ around.head?, column.table ∈ source.tables) := by
  refine ⟨fun unknown p hp ↦ ⟨isScoped_of_compile hp, emptyGroups_of_compile hp⟩, ?_⟩
  intro t q e hq he around column hs
  rw [t.compile_some] at hq
  obtain ⟨e?, hc, rfl⟩ := exists_of_map_eq_ok hq
  cases he
  -- the statement is the replay of what is recorded
  have replays := n.replays_compile t.schema.store resolve
  obtain ⟨p?, hp⟩ := replays.exists_eq_ok hc
  rw [replays.eq_of_eq_ok hp] at hc
  cases p? with
  | none => cases hc
  | some p =>
    obtain ⟨e', he', h⟩ := exists_of_bind_eq_ok hc
    cases h
    have hcolumn := Schema.hasColumn_of_replay (isScoped_of_compile hp) .listing he' _ hs
    exact ⟨hcolumn, hcolumn.table⟩

theorem Filter.hasColumn_of_compile_nested :
    let languages : Text := .ofString "languages"
    let n : Filter := .join .or [.leaf (.onRelation locations .isAny []),
      .join .and [.leaf (.onRelation languages .hasAny [.ofString "Go"]),
        .leaf (.onField ['x'] .equal (.scalar ['y']))]]
    let source : Source := ⟨languages, languages, some ⟨.ofString "job_language",
      ⟨.ofString "job_language", .ofString "language_id"⟩, ⟨languages, .ofString "id"⟩⟩⟩
    ∃ p q e, (n.compile (fun _ ↦ .ok none) (Predicate.recorder [])).result = .ok (some p) ∧
      p.IsScoped none ∧ p.emptyGroups = [.or] ∧
      Target.default.compile (fun _ ↦ .ok none) (some n) = .ok q ∧ q.select.condition? = some e ∧
      ([source], ⟨languages, .ofString "name"⟩) ∈ e.columnsIn [] ∧
      Schema.default.HasColumn [source] ⟨languages, .ofString "name"⟩ := by
  intro languages n source
  obtain ⟨recorded, stated⟩ := n.hasColumn_of_compile fun _ ↦ .ok none
  obtain ⟨stands, empty⟩ := recorded [] _ rfl
  have h := stated .default _ _ rfl rfl [source] ⟨languages, .ofString "name"⟩ (by decide)
  exact ⟨_, _, _, rfl, stands, empty, rfl, rfl, by decide, h.1⟩

end ListingFilter
