import ListingFilter.Proofs.Sql.Parameters
import ListingFilter.Proofs.Sql.Piece

namespace ListingFilter

inductive Parallel {ε α β : Type} (R : α → β → Prop) : Except ε α → Except ε β → Prop
  | error (e e' : ε) : Parallel R (.error e) (.error e')
  | ok {a : α} {b : β} (h : R a b) : Parallel R (.ok a) (.ok b)

namespace Parallel

variable {ε α β α' β' : Type} {R : α → β → Prop} {S : α' → β' → Prop}
  {x : Except ε α} {y : Except ε β}

theorem exists_ok_iff (h : Parallel R x y) : (∃ a, x = .ok a) ↔ ∃ b, y = .ok b := by
  cases h with
  | error e e' => simp
  | ok h => simp

theorem bind {f : α → Except ε α'} {g : β → Except ε β'} (h : Parallel R x y)
    (hf : ∀ a b, R a b → Parallel S (f a) (g b)) : Parallel S (x >>= f) (y >>= g) := by
  cases h with
  | error e e' => exact .error e e'
  | ok h => exact hf _ _ h

theorem map {f : α → α'} {g : β → β'} (h : Parallel R x y)
    (hf : ∀ a b, R a b → S (f a) (g b)) : Parallel S (x.map f) (y.map g) := by
  cases h with
  | error e e' => exact .error e e'
  | ok h => exact .ok (hf _ _ h)

theorem mapM {f : α → Except ε α'} {g : β → Except ε β'} {as : List α} {bs : List β}
    (h : List.Forall₂ (fun a b ↦ Parallel S (f a) (g b)) as bs) :
    Parallel (List.Forall₂ S) (as.mapM f) (bs.mapM g) := by
  induction h with
  | nil => exact .ok .nil
  | cons head _ ih =>
    rw [List.mapM_cons, List.mapM_cons]
    refine head.bind fun a b hab ↦ ih.bind fun as bs h ↦ ?_
    exact .ok (.cons hab h)

end Parallel

namespace Operand

inductive SameShape : Operand → Operand → Prop
  | scalar (value value' : Text) : SameShape (.scalar value) (.scalar value')
  | set {values values' : List Text} (h : values.length = values'.length) :
    SameShape (.set values) (.set values')

end Operand

/-- Conditions that differ in values alone. Places of a listing are remote in both or in neither. -/
inductive Condition.SameShape : Condition → Condition → Prop
  | onField (name : Text) (op : Comparison) {operand operand' : Operand}
    (h : operand.SameShape operand') :
    SameShape (.onField name op operand) (.onField name op operand')
  | onAttribute (name : Text) (op : Comparison) {operand operand' : Operand}
    (h : operand.SameShape operand') :
    SameShape (.onAttribute name op operand) (.onAttribute name op operand')
  | onRelation (name : Text) (test : RelationTest) {values values' : List Text}
    (h : values.length = values'.length)
    (remote : name = locations → test = .isAny →
      List.Forall₂ (fun value value' ↦ IsRemoteWord value ↔ IsRemoteWord value') values values') :
    SameShape (.onRelation name test values) (.onRelation name test values')

inductive Filter.SameShape : Filter → Filter → Prop
  | leaf {c c' : Condition} (h : c.SameShape c') : SameShape (.leaf c) (.leaf c')
  | join (op : Connective) {parts parts' : List Filter} (h : List.Forall₂ SameShape parts parts') :
    SameShape (.join op parts) (.join op parts')

namespace Sql

def Piece.blank : Piece → Piece
  | value _ => value (.bool true)
  | piece => piece

theorem Piece.blank_of_ne_value {piece : Piece} (h : ∀ v, piece ≠ .value v) :
    piece.blank = piece := by
  cases piece with
  | value v => exact absurd rfl (h v)
  | _ => rfl

end Sql

namespace Dialect

open Sql

theorem boundText_map_blank (d : Dialect) (before : Nat) (pieces : List Piece) :
    d.boundText before (pieces.map Piece.blank) = d.boundText before pieces := by
  simp only [boundText_eq_render]
  induction pieces using pieces_induction generalizing before with
  | nil => rfl
  | value v rest ih => exact congrArg (d.placeholder before ++ ·) (ih (before + 1))
  | other piece rest h ih =>
    rw [List.map_cons, Piece.blank_of_ne_value h, d.render_cons_of_ne_value h,
      d.render_cons_of_ne_value h, ih]

theorem boundText_eq_of_blank (d : Dialect) {pieces pieces' : List Piece}
    (h : pieces.map Piece.blank = pieces'.map Piece.blank) (before : Nat) :
    d.boundText before pieces = d.boundText before pieces' := by
  rw [← boundText_map_blank, h, boundText_map_blank]

end Dialect

namespace Sql.Expr

variable {e e' left left' right right' : Expr} {es es' : List Expr} {vs vs' : List Value}

def connective? : Expr → Option Connective
  | binary op _ _ => some op
  | _ => none

theorem needsParensLeft_eq (op : Connective) (e : Expr) :
    e.needsParensLeft op = e.connective?.any (· ≠ op) := by
  cases e <;> rfl

theorem needsParensRight_eq (e : Expr) : e.needsParensRight = e.connective?.isSome := by
  cases e <;> rfl

/-- Expressions that are written the same but for their values. -/
structure SameForm (e e' : Expr) : Prop where
  connective?_eq : e.connective? = e'.connective?
  blank_eq : e.pieces.map Piece.blank = e'.pieces.map Piece.blank

namespace SameForm

theorem refl (e : Expr) : SameForm e e := ⟨rfl, rfl⟩

theorem compare (column : ColumnRef) (op : Operator) (v v' : Value) :
    SameForm (.compare column op v) (.compare column op v') :=
  ⟨rfl, by simp [pieces, Piece.blank]⟩

theorem blank_valueList (h : vs.length = vs'.length) :
    (valueList vs).map Piece.blank = (valueList vs').map Piece.blank := by
  induction vs using valueList.induct generalizing vs' with
  | case1 => rw [List.eq_nil_of_length_eq_zero h.symm]
  | case2 v =>
    obtain ⟨v', rfl⟩ := List.length_eq_one_iff.1 h.symm
    rfl
  | case3 v vs hne ih =>
    obtain ⟨w, vs, rfl⟩ := List.exists_cons_of_ne_nil hne
    obtain ⟨v', rest, rfl⟩ := List.exists_cons_of_length_eq_add_one h.symm
    obtain ⟨w', vs', rfl⟩ := List.exists_cons_of_length_eq_add_one (Nat.succ.inj h).symm
    have hl : (w :: vs).length = (w' :: vs').length := Nat.succ.inj h
    simp only [valueList, List.map_cons, Piece.blank, ih hl]

theorem member (column : ColumnRef) (h : vs.length = vs'.length) :
    SameForm (.member column vs) (.member column vs') := by
  refine ⟨rfl, ?_⟩
  cases vs with
  | nil => rw [List.eq_nil_of_length_eq_zero h.symm]
  | cons v vs =>
    cases vs' with
    | nil => cases h
    | cons v' vs' => simp [pieces, Piece.enclosed, blank_valueList h]

theorem rowExists (source : Source) (h : SameForm e e') :
    SameForm (.rowExists source e) (.rowExists source e') :=
  ⟨rfl, by simp [pieces, Piece.enclosed, h.blank_eq]⟩

theorem blank_enclosed (h : SameForm e e') :
    (Piece.enclosed e.pieces).map Piece.blank = (Piece.enclosed e'.pieces).map Piece.blank := by
  simp [Piece.enclosed, h.blank_eq]

theorem binary (op : Connective) (hl : SameForm left left') (hr : SameForm right right') :
    SameForm (.binary op left right) (.binary op left' right') := by
  refine ⟨rfl, ?_⟩
  simp only [pieces, needsParensLeft_eq, needsParensRight_eq, hl.connective?_eq, hr.connective?_eq,
    List.map_append]
  congr 1
  · congr 1
    split
    · exact hl.blank_enclosed
    · exact hl.blank_eq
  · split
    · exact hr.blank_enclosed
    · exact hr.blank_eq

theorem foldl (op : Connective) (h : List.Forall₂ SameForm es es') (he : SameForm e e') :
    SameForm (es.foldl (.binary op) e) (es'.foldl (.binary op) e') := by
  induction h generalizing e e' with
  | nil => exact he
  | cons head _ ih => exact ih (he.binary op head)

theorem group (op : Connective) (h : List.Forall₂ SameForm es es') :
    SameForm (.group op es) (.group op es') := by
  cases h with
  | nil => exact refl _
  | cons head tail => exact foldl op tail head

end SameForm

end Sql.Expr

namespace Schema

open Sql.Expr (SameForm)

variable (s : Schema) {operand operand' : Operand} {filter? filter'? : Option Sql.Expr}

theorem sameForm_compare (column : Column) (op : Comparison) (value value' : Text) :
    SameForm (s.store.compare column op value) (s.store.compare column op value') := by
  cases op with
  | oneOf => exact .member _ rfl
  | _ => exact .compare _ _ _ _

theorem sameForm_isIn (column : Column) {values values' : List Text}
    (h : values.length = values'.length) :
    SameForm (s.store.isIn column values) (s.store.isIn column values') :=
  .member _ (by rw [List.length_map, List.length_map, h])

theorem sameForm_group (op : Connective) {es es' : List Sql.Expr}
    (h : List.Forall₂ SameForm es es') :
    SameForm (s.store.group op es) (s.store.group op es') :=
  SameForm.group op h

theorem parallel_has (relation : Text) (h : Option.Rel SameForm filter? filter'?) :
    Parallel SameForm (s.store.has relation filter?) (s.store.has relation filter'?) := by
  simp only [store, has]
  cases s.relation? relation with
  | none => exact .error _ _
  | some m =>
    refine .ok (.rowExists _ (.group _ (.cons (.refl _) ?_)))
    cases h with
    | none => exact .nil
    | some h => exact .cons h .nil

theorem parallel_comparison (column : Column) (op : Comparison) (h : operand.SameShape operand') :
    Parallel SameForm (s.store.comparison column op operand)
      (s.store.comparison column op operand') := by
  cases h with
  | scalar value value' =>
    cases op with
    | oneOf => exact .error _ _
    | _ => exact .ok (s.sameForm_compare column _ _ _)
  | set hl =>
    cases op with
    | oneOf => exact .ok (s.sameForm_isIn column hl)
    | _ => exact .error _ _

theorem parallel_location {value value' : Text} (h : IsRemoteWord value ↔ IsRemoteWord value') :
    Parallel SameForm (s.store.location value) (s.store.location value') := by
  simp only [Store.location_eq, h]
  split
  · exact .ok (.refl _)
  · refine s.parallel_has locations (.some (s.sameForm_group .or ?_))
    refine List.forall₂_map_left_iff.2 (List.forall₂_map_right_iff.2 (List.forall₂_same.2 ?_))
    exact fun column _ ↦ s.sameForm_compare column .equal value value'

theorem parallel_named (name : Text) {values values' : List Text}
    (h : values.length = values'.length) :
    Parallel SameForm (s.store.has name (some (s.store.isIn (.relatedName name) values)))
      (s.store.has name (some (s.store.isIn (.relatedName name) values'))) :=
  s.parallel_has name (.some (s.sameForm_isIn _ h))

theorem parallel_relation (name : Text) (test : RelationTest) {values values' : List Text}
    (h : values.length = values'.length)
    (remote : name = locations → test = .isAny →
      List.Forall₂ (fun value value' ↦ IsRemoteWord value ↔ IsRemoteWord value') values values') :
    Parallel SameForm (s.store.relation name test values) (s.store.relation name test values') := by
  cases test with
  | present => exact s.parallel_has name .none
  | hasAny => exact s.parallel_named name h
  | isAny =>
    simp only [Store.relation]
    split
    · next hn =>
      have each := (remote hn rfl).imp fun _ _ h ↦ s.parallel_location h
      exact (Parallel.mapM each).map fun _ _ h ↦ s.sameForm_group .or h
    · exact s.parallel_named name h

theorem parallel_attributeValue (a : Attribute) (op : Comparison) (h : operand.SameShape operand') :
    Parallel SameForm (s.store.attributeValue a op operand)
      (s.store.attributeValue a op operand') := by
  refine (s.parallel_comparison attributeValueColumn op h).bind fun e e' he ↦ ?_
  refine s.parallel_has attributeValues (.some (s.sameForm_group .and ?_))
  exact .cons (.refl _) (.cons he .nil)

theorem parallel_condition (resolve : Resolver) {c c' : Condition} (h : c.SameShape c') :
    Parallel (Option.Rel SameForm) (c.compile resolve s.store).result
      (c'.compile resolve s.store).result := by
  cases h with
  | onField name op h => exact (s.parallel_comparison (.field name) op h).map fun _ _ h ↦ .some h
  | onRelation name test h remote =>
    exact (s.parallel_relation name test h remote).map fun _ _ h ↦ .some h
  | onAttribute name op h =>
    simp only [Condition.compile, Traced.result_bind, Traced.lookUp]
    cases resolve name with
    | error e => exact .error e e
    | ok a? =>
      cases a? with
      | none => exact .ok .none
      | some a => exact (s.parallel_attributeValue a op h).map fun _ _ h ↦ .some h

theorem parallel_parts (resolve : Resolver) {parts parts' : List Filter}
    (h : List.Forall₂ (fun n n' ↦ Parallel (Option.Rel SameForm) (n.compile resolve s.store).result
      (n'.compile resolve s.store).result) parts parts') :
    Parallel (List.Forall₂ SameForm) (Filter.compileAll resolve s.store parts).result
      (Filter.compileAll resolve s.store parts').result := by
  induction h with
  | nil => exact .ok .nil
  | cons head _ ih =>
    simp only [Filter.compileAll, Traced.result_bind]
    refine head.bind fun e? e'? he ↦ ih.bind fun es es' hes ↦ .ok ?_
    cases he with
    | none => exact hes
    | some he => exact .cons he hes

/-- Filters that differ in values alone fail alike, vanish alike, or come to conditions that are
written the same but for their values. -/
theorem parallel_filter (resolve : Resolver) {n n' : Filter} (h : n.SameShape n') :
    Parallel (Option.Rel SameForm) (n.compile resolve s.store).result
      (n'.compile resolve s.store).result := by
  induction n generalizing n' with
  | leaf c =>
    cases h with
    | leaf h => exact s.parallel_condition resolve h
  | join op parts ih =>
    cases h with
    | @join _ _ parts' h =>
      have each := (List.forall₂_and_left parts parts').2
        ⟨fun n hn n' (h : n.SameShape n') ↦ ih n hn h, h⟩
      have parts := s.parallel_parts resolve (each.imp fun n n' h ↦ h.1 n' h.2)
      simp only [Filter.compile, Traced.result_bind]
      refine parts.bind fun es es' hes ↦ ?_
      cases hes with
      | nil => exact .ok .none
      | cons head tail => exact .ok (.some (s.sameForm_group op (.cons head tail)))

end Schema

theorem Target.blank_select (t : Target) {e? e'? : Option Sql.Expr}
    (h : Option.Rel Sql.Expr.SameForm e? e'?) :
    (Sql.Select.pieces ⟨t.schema.primaryTable, e?⟩).map Sql.Piece.blank =
      (Sql.Select.pieces ⟨t.schema.primaryTable, e'?⟩).map Sql.Piece.blank := by
  cases h with
  | none => rfl
  | some h => simp [Sql.Select.pieces, h.blank_eq]

theorem Target.parallel_compile (t : Target) (resolve : Resolver) {n n' : Filter}
    (h : n.SameShape n') :
    Parallel (fun q q' ↦ q.boundText = q'.boundText) (t.compile resolve (some n))
      (t.compile resolve (some n')) := by
  refine (t.schema.parallel_filter resolve h).bind fun e? e'? he ↦ .ok ?_
  exact t.dialect.boundText_eq_of_blank (t.blank_select he) 0

/-- Filters that differ in values alone compile both or neither, and then to one text with
placeholders. The parameters of the one are its own values, condition by condition. -/
theorem Target.boundText_of_sameShape (t : Target) (resolve : Resolver) {n n' : Filter}
    (h : n.SameShape n') :
    ((∃ q, t.compile resolve (some n) = .ok q) ↔ ∃ q', t.compile resolve (some n') = .ok q') ∧
      ∀ q q', t.compile resolve (some n) = .ok q → t.compile resolve (some n') = .ok q' →
        q.boundText = q'.boundText ∧ q.parameters = n.parameters resolve ∧
          q'.parameters = n'.parameters resolve := by
  have parallel := t.parallel_compile resolve h
  refine ⟨parallel.exists_ok_iff, fun q q' hq hq' ↦ ?_⟩
  rw [hq, hq'] at parallel
  cases parallel with
  | ok same => exact ⟨same, parameters_of_compile hq, parameters_of_compile hq'⟩

theorem Target.boundText_of_sameShape_quotes :
    let n (title place : Text) : Filter := .join .or
      [.leaf (.onField (.ofString "title") .like (.scalar title)),
        .leaf (.onRelation locations .isAny [.ofString "REMOTE", place])]
    ∃ q q', Target.default.compile (fun _ ↦ .ok none) (some (n ['x'] ['y'])) = .ok q ∧
      Target.default.compile (fun _ ↦ .ok none) (some (n (.ofString "' OR 1 = 1") ['?'])) = .ok q' ∧
      q.boundText = q'.boundText ∧
      q'.parameters = [.text (.ofString "%' OR 1 = 1%"), .bool true, .text ['?'], .text ['?'],
        .text ['?']] := by
  intro n
  have title := Operand.SameShape.scalar ['x'] (.ofString "' OR 1 = 1")
  have shape : (n ['x'] ['y']).SameShape (n (.ofString "' OR 1 = 1") ['?']) := by
    refine .join .or (.cons (.leaf (.onField _ .like title)) (.cons (.leaf ?_) .nil))
    exact .onRelation locations .isAny rfl fun _ _ ↦ by decide
  obtain ⟨-, same⟩ := Target.default.boundText_of_sameShape (fun _ ↦ .ok none) shape
  obtain ⟨texts, -, parameters⟩ := same _ _ rfl rfl
  exact ⟨_, _, rfl, rfl, texts, parameters⟩

end ListingFilter
