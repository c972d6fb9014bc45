import ListingFilter.Proofs.Predicate.Leaves
import ListingFilter.Proofs.Predicate.Meaning
import ListingFilter.Query

namespace ListingFilter

namespace Sql

/-- What a statement says besides its words and marks. -/
inductive Content
  | name (text : Text)
  | value (v : Value)
  deriving DecidableEq, Repr

def Content.value? : Content → Option Value
  | name _ => none
  | value v => some v

def Piece.content? : Piece → Option Content
  | symbol _ | gap => none
  | name text => some (.name text)
  | value v => some (.value v)

def contents (pieces : List Piece) : List Content := pieces.filterMap Piece.content?

def ColumnRef.contents (c : ColumnRef) : List Content := [.name c.table, .name c.column]

def Join.contents (j : Join) : List Content :=
  .name j.table :: (j.left.contents ++ j.right.contents)

def Source.contents (s : Source) : List Content :=
  .name s.table :: .name s.name :: s.join?.elim [] Join.contents

theorem contents_append (a b : List Piece) : contents (a ++ b) = contents a ++ contents b :=
  List.filterMap_append

theorem contents_enclosed (pieces : List Piece) :
    contents (Piece.enclosed pieces) = contents pieces := by
  change contents (pieces ++ [.symbol .closing]) = _
  rw [contents_append]
  exact List.append_nil _

theorem contents_spaced (a : List Piece) (s : Symbol) (b : List Piece) :
    contents (a ++ Piece.spaced s ++ b) = contents a ++ contents b := by
  rw [contents_append, contents_append]
  exact congrArg (· ++ _) (List.append_nil _)

theorem contents_valueList (vs : List Value) : contents (valueList vs) = vs.map .value := by
  induction vs using valueList.induct with
  | case1 => rfl
  | case2 v => rfl
  | case3 v vs hne ih =>
    obtain ⟨w, vs, rfl⟩ := List.exists_cons_of_ne_nil hne
    exact congrArg (Content.value v :: ·) ih

theorem contents_source (source : Source) : contents source.pieces = source.contents := by
  obtain ⟨table, name, join?⟩ := source
  cases join? <;> rfl

namespace Expr

def contents (e : Expr) : List Content := Sql.contents e.pieces

theorem contents_member_cons (column : ColumnRef) (v : Value) (vs : List Value) :
    (member column (v :: vs)).contents = column.contents ++ (v :: vs).map .value := by
  rw [contents, pieces, contents_spaced, contents_enclosed, contents_valueList]
  · rfl
  · simp

theorem contents_rowExists (source : Source) (condition : Expr) :
    (rowExists source condition).contents = source.contents ++ condition.contents := by
  change Sql.contents (Piece.enclosed _) = _
  rw [contents_enclosed, contents_spaced, contents_spaced, contents_source]
  rfl

theorem contents_binary (op : Connective) (left right : Expr) :
    (binary op left right).contents = left.contents ++ right.contents := by
  have side (inParens : Bool) (e : Expr) :
      Sql.contents (if inParens then Piece.enclosed e.pieces else e.pieces) = e.contents := by
    cases inParens with
    | true => exact contents_enclosed e.pieces
    | false => rfl
  rw [contents, pieces, contents_spaced, side, side]

theorem contents_group (op : Connective) (es : List Expr) :
    (group op es).contents = es.flatMap contents := by
  have rest (es : List Expr) (e : Expr) : (es.foldl (binary op) e).contents =
      e.contents ++ es.flatMap contents := by
    induction es generalizing e with
    | nil => exact (List.append_nil _).symm
    | cons second es ih =>
      rw [List.foldl_cons, ih, contents_binary, List.append_assoc, List.flatMap_cons]
  cases es with
  | nil => rfl
  | cons e es => exact rest es e

end Expr

def Select.contents (s : Select) : List Content := Sql.contents s.pieces

theorem Select.contents_mk (table : Text) (condition? : Option Expr) :
    Select.contents ⟨table, condition?⟩ =
      [.name table, .name table] ++ condition?.toList.flatMap Expr.contents := by
  cases condition? with
  | none => rfl
  | some e =>
    rw [contents, pieces, contents_spaced, Option.toList_some, List.flatMap_singleton]
    rfl

end Sql

open Sql (Content)

/-- A list of values in a column. Without values there is no column either: two different numbers
stand in its place. -/
def Sql.ColumnRef.listContents (c : Sql.ColumnRef) : List Text → List Content
  | [] => [.value (.number 1), .value (.number 2)]
  | values => c.contents ++ values.map fun value ↦ .value (.text value)

def Operand.contents (c : Sql.ColumnRef) (op : Comparison) : Operand → List Content
  | scalar value =>
    c.contents ++ [.value (.text (if op = .like then likePattern value else value))]
  | set values => c.listContents values

def Mapping.contents (m : Mapping) (relation : Text) (owner : Sql.ColumnRef) : List Content :=
  (m.source relation).contents ++
    .name (m.pivot?.elim relation Pivot.table) :: .name m.foreignKey :: owner.contents

namespace Schema

variable (s : Schema)

def rowContents (relation : Text) : List Content :=
  (s.relation? relation).elim [] fun m ↦ m.contents relation s.owner

def locationContents (value : Text) : List Content :=
  if IsRemoteWord value then (s.column .remote).contents ++ [.value (.bool true)]
  else s.rowContents locations ++
    placeColumns.flatMap fun c ↦ (s.column c).contents ++ [.value (.text value)]

def relationContents (name : Text) (values : List Text) : RelationTest → List Content
  | .present => s.rowContents name
  | .hasAny => s.rowContents name ++ (s.column (.relatedName name)).listContents values
  | .isAny =>
    if name = locations then values.flatMap s.locationContents
    else s.rowContents name ++ (s.column (.relatedName name)).listContents values

end Schema

def Condition.contents (resolve : Resolver) (s : Schema) : Condition → List Content
  | onField name op operand => operand.contents (s.column (.field name)) op
  | onRelation name test values => s.relationContents name values test
  | onAttribute name op operand =>
    match resolve name with
    | .ok (some a) =>
      s.rowContents attributeValues ++
        ((s.column attributeIdColumn).contents ++ [.value (.id a.id)]) ++
          operand.contents (s.column attributeValueColumn) op
    | _ => []

def Filter.contents (resolve : Resolver) (s : Schema) (n : Filter) : List Content :=
  n.leaves.flatMap (Condition.contents resolve s)

namespace Schema

variable {s : Schema} {operand : Operand} {e : Sql.Expr} {es : List Sql.Expr}

theorem contents_compare (s : Schema) (column : Column) (op : Comparison) (value : Text) :
    (s.store.compare column op value).contents =
      (s.column column).contents ++ [.value (.text value)] := by
  cases op with
  | oneOf => exact Sql.Expr.contents_member_cons _ _ _
  | _ => rfl

theorem contents_isIn (s : Schema) (column : Column) (values : List Text) :
    (s.store.isIn column values).contents = (s.column column).listContents values := by
  cases values with
  | nil => rfl
  | cons value values =>
    change (Sql.Expr.member _ (.text value :: values.map .text)).contents = _
    rw [Sql.Expr.contents_member_cons, ← List.map_cons, List.map_map]
    rfl

theorem contents_group (s : Schema) (op : Connective) (es : List Sql.Expr) :
    (s.store.group op es).contents = es.flatMap Sql.Expr.contents :=
  Sql.Expr.contents_group op es

theorem contents_has {relation : Text} {filter? : Option Sql.Expr}
    (h : s.store.has relation filter? = .ok e) :
    e.contents = s.rowContents relation ++ filter?.toList.flatMap Sql.Expr.contents := by
  obtain ⟨m, hm, rfl⟩ := exists_of_has_eq_ok h
  have link : (s.link relation m).contents =
      .name (m.pivot?.elim relation Pivot.table) :: .name m.foreignKey :: s.owner.contents := by
    unfold Schema.link
    cases m.pivot? <;> rfl
  rw [Sql.Expr.contents_rowExists, Sql.Expr.contents_group, List.flatMap_cons, link, rowContents,
    hm, ← List.append_assoc]
  rfl

theorem contents_comparison {column : Column} {op : Comparison}
    (h : s.store.comparison column op operand = .ok e) :
    e.contents = operand.contents (s.column column) op := by
  cases operand with
  | scalar value =>
    cases op with
    | oneOf => cases h
    | _ =>
      cases h
      exact s.contents_compare column _ _
  | set values =>
    cases op with
    | oneOf =>
      cases h
      exact s.contents_isIn column values
    | _ => cases h

theorem contents_location {value : Text} (h : s.store.location value = .ok e) :
    e.contents = s.locationContents value := by
  rw [Store.location_eq] at h
  unfold locationContents
  split at h
  · next remote =>
    rw [if_pos remote]
    cases h
    rfl
  · next notRemote =>
    rw [if_neg notRemote, contents_has h, Option.toList_some, List.flatMap_singleton,
      contents_group, List.flatMap_map]
    simp only [contents_compare]

theorem contents_mapM_location {values : List Text} (h : values.mapM s.store.location = .ok es) :
    es.flatMap Sql.Expr.contents = values.flatMap s.locationContents := by
  have each := mapM_eq_ok_iff.1 h
  clear h
  induction each with
  | nil => rfl
  | cons head _ ih => rw [List.flatMap_cons, List.flatMap_cons, contents_location head, ih]

theorem contents_relation {name : Text} {test : RelationTest} {values : List Text}
    (h : s.store.relation name test values = .ok e) :
    e.contents = s.relationContents name values test := by
  have named {e : Sql.Expr}
      (h : s.store.has name (some (s.store.isIn (.relatedName name) values)) = .ok e) :
      e.contents = s.rowContents name ++ (s.column (.relatedName name)).listContents values := by
    rw [contents_has h, Option.toList_some, List.flatMap_singleton, contents_isIn]
  cases test with
  | present => exact (contents_has h).trans (List.append_nil _)
  | hasAny => exact named h
  | isAny =>
    simp only [Store.relation] at h
    simp only [relationContents]
    split at h
    · next hn =>
      obtain ⟨es, hes, rfl⟩ := exists_of_map_eq_ok h
      rw [if_pos hn, contents_group, contents_mapM_location hes]
    · next hn => rw [if_neg hn, named h]

theorem contents_attributeValue {a : Attribute} {op : Comparison}
    (h : s.store.attributeValue a op operand = .ok e) :
    e.contents = s.rowContents attributeValues ++
      ((s.column attributeIdColumn).contents ++ [.value (.id a.id)]) ++
        operand.contents (s.column attributeValueColumn) op := by
  obtain ⟨value, hv, h⟩ := exists_of_bind_eq_ok h
  rw [contents_has h, Option.toList_some, List.flatMap_singleton, contents_group,
    List.flatMap_cons, List.flatMap_singleton, contents_comparison hv, List.append_assoc]
  rfl

variable {resolve : Resolver}

theorem contents_condition {c : Condition} {e? : Option Sql.Expr}
    (h : (c.compile resolve s.store).result = .ok e?) :
    e?.toList.flatMap Sql.Expr.contents = c.contents resolve s := by
  cases c with
  | onField name op operand =>
    obtain ⟨e, he, rfl⟩ := exists_of_map_eq_ok h
    rw [Option.toList_some, List.flatMap_singleton, contents_comparison he]
    rfl
  | onRelation name test values =>
    obtain ⟨e, he, rfl⟩ := exists_of_map_eq_ok h
    rw [Option.toList_some, List.flatMap_singleton, contents_relation he]
    rfl
  | onAttribute name op operand =>
    simp only [Condition.compile, Traced.result_bind, Traced.lookUp] at h
    obtain ⟨a?, ha, h⟩ := exists_of_bind_eq_ok h
    rw [Condition.contents, ha]
    cases a? with
    | none =>
      cases h
      rfl
    | some a =>
      obtain ⟨e, he, rfl⟩ := exists_of_map_eq_ok h
      rw [Option.toList_some, List.flatMap_singleton, contents_attributeValue he]

theorem contents_filter {n : Filter} {e? : Option Sql.Expr}
    (h : (n.compile resolve s.store).result = .ok e?) :
    e?.toList.flatMap Sql.Expr.contents = n.contents resolve s :=
  Filter.flatMap_of_compile (fun op _ _ ↦ s.contents_group op _) (fun _ _ ↦ contents_condition) h

end Schema

def Target.contents (t : Target) (resolve : Resolver) (filter? : Option Filter) : List Content :=
  .name t.schema.primaryTable :: .name t.schema.primaryTable ::
    filter?.toList.flatMap (Filter.contents resolve t.schema)

theorem Target.contents_of_compile {t : Target} {resolve : Resolver} {filter? : Option Filter}
    {q : Query} (h : t.compile resolve filter? = .ok q) :
    q.select.contents = t.contents resolve filter? := by
  cases filter? with
  | none =>
    cases h
    rfl
  | some n =>
    obtain ⟨condition?, hc, h⟩ := exists_of_bind_eq_ok h
    cases h
    rw [Sql.Select.contents_mk, Schema.contents_filter hc, contents, Option.toList_some,
      List.flatMap_singleton]
    rfl

end ListingFilter
