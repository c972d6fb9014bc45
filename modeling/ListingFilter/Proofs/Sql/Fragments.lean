import ListingFilter.Proofs.Sql.Piece
import ListingFilter.Proofs.Sql.Spelling
import ListingFilter.Query

namespace ListingFilter

namespace Sql

/-- What stands in a statement besides its values: text that is the same in every dialect, and names
without their quotes. -/
inductive Fixed
  | text (t : Text)
  | name (t : Text)

/-- A text with places for values: fragments, with a value between each two. -/
inductive Template
  | last (fragment : List Fixed)
  | more (fragment : List Fixed) (v : Value) (rest : Template)

namespace Template

def text (s : String) : Template := last [.text (.ofString s)]

def name (t : Text) : Template := last [.name t]

def value (v : Value) : Template := more [] v (last [])

def empty : Template := last []

def append : Template → Template → Template
  | last f, last g => last (f ++ g)
  | last f, more g v rest => more (f ++ g) v rest
  | more f v rest, t => more f v (append rest t)

instance : Append Template := ⟨append⟩

theorem last_append_more (f g : List Fixed) (v : Value) (t : Template) :
    last f ++ more g v t = more (f ++ g) v t := rfl

theorem more_append (f : List Fixed) (v : Value) (t t' : Template) :
    more f v t ++ t' = more f v (t ++ t') := rfl

def enclosed (t : Template) : Template := text "(" ++ t ++ text ")"

def first : Template → List Fixed
  | last f | more f _ _ => f

def later : Template → List (List Fixed)
  | last _ => []
  | more _ _ rest => rest.first :: rest.later

def values : Template → List Value
  | last _ => []
  | more _ v rest => v :: rest.values

theorem values_append (t t' : Template) : (t ++ t').values = t.values ++ t'.values := by
  induction t with
  | last f => cases t' <;> rfl
  | more f v rest ih => exact congrArg (v :: ·) ih

theorem length_later (t : Template) : t.later.length = t.values.length := by
  induction t with
  | last f => rfl
  | more f v rest ih => exact congrArg (· + 1) ih

end Template

def ColumnRef.template (c : ColumnRef) : Template :=
  .name c.table ++ .text "." ++ .name c.column

def Join.template (j : Join) : Template :=
  .text " INNER JOIN " ++ .name j.table ++ .text " ON " ++ j.left.template ++ .text " = " ++
    j.right.template

def Source.template (s : Source) : Template :=
  .name s.table ++ .text " AS " ++ .name s.name ++ s.join?.elim .empty Join.template

def listTemplate : List Value → Template
  | [] => .empty
  | [v] => .value v
  | v :: vs => .value v ++ .text ", " ++ listTemplate vs

def Operator.sign : Operator → String
  | eq => " = "
  | ne => " <> "
  | gt => " > "
  | lt => " < "
  | ge => " >= "
  | le => " <= "
  | like => " LIKE "

def Expr.template : Expr → Template
  | truth value => .text (if value then "TRUE" else "FALSE")
  | compare column op v => column.template ++ .text op.sign ++ .value v
  | member _ [] => .value (.number 1) ++ .text " = " ++ .value (.number 2)
  | member column vs => column.template ++ .text " IN " ++ (listTemplate vs).enclosed
  | same left right => left.template ++ .text " = " ++ right.template
  | rowExists source condition =>
    .text "EXISTS" ++ Template.enclosed
      (.text "SELECT 1 FROM " ++ source.template ++ .text " WHERE " ++ condition.template)
  | binary op left right =>
    (if left.needsParensLeft op then left.template.enclosed else left.template) ++
      .text (if op = .and then " AND " else " OR ") ++
      (if right.needsParensRight then right.template.enclosed else right.template)

def Select.template (s : Select) : Template :=
  .text "SELECT " ++ .name s.table ++ .text ".* FROM " ++ .name s.table ++
    s.condition?.elim .empty fun e ↦ .text " WHERE " ++ e.template

/-- The first text, and behind it each later one with its mark in front. -/
def woven (first : Text) (later marks : List Text) : Text :=
  first ++ (List.zipWith (· ++ ·) marks later).flatten

theorem woven_cons (first behind mark : Text) (later marks : List Text) :
    woven first (behind :: later) (mark :: marks) = first ++ (mark ++ woven behind later marks) := by
  simp [woven]

end Sql

namespace Dialect

open Sql

variable (d : Dialect) {mark : Nat → Value → Text} {before : Nat}

def written (fragment : List Fixed) : Text :=
  fragment.flatMap fun
    | .text t => t
    | .name t => d.quoteName t

theorem written_append (f g : List Fixed) : d.written (f ++ g) = d.written f ++ d.written g :=
  List.flatMap_append

def filled (mark : Nat → Value → Text) (before : Nat) : Template → Text
  | .last f => d.written f
  | .more f v rest => d.written f ++ (mark before v ++ filled mark (before + 1) rest)

theorem filled_append (t t' : Template) :
    d.filled mark before (t ++ t') =
      d.filled mark before t ++ d.filled mark (before + t.values.length) t' := by
  induction t generalizing before with
  | last f =>
    cases t' with
    | last g => exact d.written_append f g
    | more g v rest =>
      simp only [Template.last_append_more, filled, written_append, List.append_assoc]
      rfl
  | more f v rest ih =>
    have count : before + (Template.more f v rest).values.length =
        before + 1 + rest.values.length := by
      change before + (rest.values.length + 1) = _
      omega
    rw [count]
    simp only [Template.more_append, filled, ih, List.append_assoc]

theorem filled_eq_woven (t : Template) :
    d.filled mark before t = woven (d.written t.first) (t.later.map d.written)
      ((t.values.zipIdx before).map fun p ↦ mark p.2 p.1) := by
  induction t generalizing before with
  | last f => simp [filled, woven, Template.first, Template.later, Template.values]
  | more f v rest ih =>
    rw [filled, ih, Template.later, Template.values, List.zipIdx_cons, List.map_cons, List.map_cons,
      woven_cons]
    rfl

end Dialect

namespace Sql

open Template

variable {xs ys : List Piece} {t t' : Template}

/-- Pieces that are written as a template says, whatever the marks of its values. -/
structure Spells (xs : List Piece) (t : Template) : Prop where
  parameters_eq : parameters xs = t.values
  render_eq (d : Dialect) (mark : Nat → Value → Text) (before : Nat) :
    d.render mark before xs = d.filled mark before t

theorem Spells.append (h : Spells xs t) (h' : Spells ys t') : Spells (xs ++ ys) (t ++ t') where
  parameters_eq := by rw [parameters_append, values_append, h.parameters_eq, h'.parameters_eq]
  render_eq d mark before := by
    rw [d.render_append, d.filled_append, h.render_eq, h'.render_eq, h.parameters_eq]

theorem spells_empty : Spells [] empty := ⟨rfl, fun _ _ _ ↦ rfl⟩

theorem spells_name (t : Text) : Spells [.name t] (.name t) := ⟨rfl, fun _ _ _ ↦ rfl⟩

theorem spells_value (v : Value) : Spells [.value v] (.value v) := by
  refine ⟨rfl, fun d mark before ↦ ?_⟩
  change _ = [] ++ (mark before v ++ [])
  rfl

theorem spells_column (c : ColumnRef) : Spells c.pieces c.template := by
  have dot : Spells [.symbol .dot] (.text ".") := ⟨rfl, fun _ _ _ ↦ rfl⟩
  exact ((spells_name c.table).append dot).append (spells_name c.column)

theorem spells_equals : Spells (Piece.spaced (.operator .eq)) (.text " = ") :=
  ⟨rfl, fun _ _ _ ↦ rfl⟩

theorem spells_join (j : Join) : Spells j.pieces j.template := by
  have inner : Spells [.gap, .symbol .inner, .gap, .symbol .join, .gap] (.text " INNER JOIN ") :=
    ⟨rfl, fun _ _ _ ↦ rfl⟩
  have link : Spells (Piece.spaced .link) (.text " ON ") := ⟨rfl, fun _ _ _ ↦ rfl⟩
  exact ((((inner.append (spells_name j.table)).append link).append (spells_column j.left)).append
    spells_equals).append (spells_column j.right)

theorem spells_source (s : Source) : Spells s.pieces s.template := by
  have named : Spells (Piece.spaced .named) (.text " AS ") := ⟨rfl, fun _ _ _ ↦ rfl⟩
  have join : Spells (s.join?.elim [] Join.pieces) (s.join?.elim .empty Join.template) := by
    cases s.join? with
    | none => exact spells_empty
    | some j => exact spells_join j
  have front := ((spells_name s.table).append named).append (spells_name s.name)
  have spelled := front.append join
  simpa [Source.pieces, Source.template] using spelled

theorem spells_valueList (vs : List Value) : Spells (valueList vs) (listTemplate vs) := by
  induction vs using valueList.induct with
  | case1 => exact spells_empty
  | case2 v => exact spells_value v
  | case3 v vs hne ih =>
    obtain ⟨w, vs, rfl⟩ := List.exists_cons_of_ne_nil hne
    have comma : Spells [.symbol .comma, .gap] (.text ", ") := ⟨rfl, fun _ _ _ ↦ rfl⟩
    exact ((spells_value v).append comma).append ih

theorem Spells.enclosed (h : Spells xs t) : Spells (Piece.enclosed xs) t.enclosed := by
  have opening : Spells [.symbol .opening] (.text "(") := ⟨rfl, fun _ _ _ ↦ rfl⟩
  have closing : Spells [.symbol .closing] (.text ")") := ⟨rfl, fun _ _ _ ↦ rfl⟩
  exact (opening.append h).append closing

theorem Spells.side (h : Spells xs t) (inParens : Bool) :
    Spells (if inParens then Piece.enclosed xs else xs) (if inParens then t.enclosed else t) := by
  cases inParens with
  | true => exact h.enclosed
  | false => exact h

theorem spells_operator (op : Operator) :
    Spells (Piece.spaced (.operator op)) (.text op.sign) := by
  cases op <;> exact ⟨rfl, fun _ _ _ ↦ rfl⟩

theorem spells_condition : Spells (Piece.spaced .condition) (.text " WHERE ") :=
  ⟨rfl, fun _ _ _ ↦ rfl⟩

theorem spells_expr (e : Expr) : Spells e.pieces e.template := by
  induction e with
  | truth value => cases value <;> exact ⟨rfl, fun _ _ _ ↦ rfl⟩
  | compare column op v =>
    exact ((spells_column column).append (spells_operator op)).append (spells_value v)
  | member column vs =>
    cases vs with
    | nil => exact ((spells_value _).append spells_equals).append (spells_value _)
    | cons v vs =>
      have among : Spells (Piece.spaced .among) (.text " IN ") := ⟨rfl, fun _ _ _ ↦ rfl⟩
      exact ((spells_column column).append among).append (spells_valueList (v :: vs)).enclosed
  | same left right =>
    exact ((spells_column left).append spells_equals).append (spells_column right)
  | rowExists source condition ih =>
    have exists' : Spells [.symbol .rowExists] (.text "EXISTS") := ⟨rfl, fun _ _ _ ↦ rfl⟩
    have select : Spells ([.symbol .select, .gap, .symbol .one] ++ Piece.spaced .source)
        (.text "SELECT 1 FROM ") := ⟨rfl, fun _ _ _ ↦ rfl⟩
    have rows := select.append (spells_source source)
    exact exists'.append ((rows.append spells_condition).append ih).enclosed
  | binary op left right hl hr =>
    have sign : Spells (Piece.spaced (.connective op))
        (.text (if op = .and then " AND " else " OR ")) := by
      cases op <;> exact ⟨rfl, fun _ _ _ ↦ rfl⟩
    exact ((hl.side _).append sign).append (hr.side _)

theorem spells_select (s : Select) : Spells s.pieces s.template := by
  have select : Spells [.symbol .select, .gap] (.text "SELECT ") := ⟨rfl, fun _ _ _ ↦ rfl⟩
  have every : Spells ([.symbol .dot, .symbol .star] ++ Piece.spaced .source) (.text ".* FROM ") :=
    ⟨rfl, fun _ _ _ ↦ rfl⟩
  have front := ((select.append (spells_name s.table)).append every).append (spells_name s.table)
  have behind : Spells (s.condition?.elim [] fun e ↦ Piece.spaced .condition ++ e.pieces)
      (s.condition?.elim .empty fun e ↦ .text " WHERE " ++ e.template) := by
    cases s.condition? with
    | none => exact spells_empty
    | some e => exact spells_condition.append (spells_expr e)
  have spelled := front.append behind
  simpa [Select.pieces, Select.template] using spelled

end Sql

namespace Query

open Sql

theorem parameters_eq_values (q : Query) : q.parameters = q.select.template.values :=
  (spells_select q.select).parameters_eq

theorem inlineText_eq_woven (q : Query) :
    q.inlineText = woven (q.dialect.written q.select.template.first)
      (q.select.template.later.map q.dialect.written)
      (q.select.template.values.map q.dialect.literal) := by
  have literals (vs : List Value) :
      (vs.zipIdx 0).map (fun p ↦ q.dialect.literal p.1) = vs.map q.dialect.literal := by
    conv_rhs => rw [← List.zipIdx_map_fst 0 vs, List.map_map]
    rfl
  rw [inlineText, Dialect.inlineText_eq_render _ 0, (spells_select q.select).render_eq,
    Dialect.filled_eq_woven, literals]

theorem boundText_eq_woven (q : Query) :
    q.boundText = woven (q.dialect.written q.select.template.first)
      (q.select.template.later.map q.dialect.written)
      ((List.range q.select.template.values.length).map q.dialect.placeholder) := by
  have places (vs : List Value) : (vs.zipIdx 0).map (fun p ↦ q.dialect.placeholder p.2) =
      (List.range vs.length).map q.dialect.placeholder := by
    rw [List.range_eq_range', ← List.zipIdx_map_snd 0 vs, List.map_map]
    rfl
  rw [boundText, Dialect.boundText_eq_render, (spells_select q.select).render_eq,
    Dialect.filled_eq_woven, places]

end Query

theorem Target.compile_of_dialect {s : Schema} {d : Dialect} {resolve : Resolver}
    {filter? : Option Filter} {q : Query} (h : Target.compile ⟨s, d⟩ resolve filter? = .ok q)
    (d' : Dialect) : Target.compile ⟨s, d'⟩ resolve filter? = .ok { q with dialect := d' } := by
  cases filter? with
  | none =>
    cases h
    rfl
  | some n =>
    obtain ⟨condition?, hc, h⟩ := exists_of_bind_eq_ok h
    cases h
    exact congrArg (fun r ↦ r >>= _) hc

/-- In every dialect the text with values and the text with placeholders are the fragments of the one
statement around its values, which are the parameters. Postgres numbers the placeholders through the
whole statement, and each literal is read as its value. -/
theorem Target.texts_of_compile (s : Schema) (resolve : Resolver) (filter? : Option Filter)
    (d : Dialect) {q : Query} (h : Target.compile ⟨s, d⟩ resolve filter? = .ok q) :
    let t := q.select.template
    t.later.length = t.values.length ∧ ∀ d' : Dialect, ∃ q',
      Target.compile ⟨s, d'⟩ resolve filter? = .ok q' ∧ q'.parameters = t.values ∧
      q'.boundText = Sql.woven (d'.written t.first) (t.later.map d'.written)
        ((List.range t.values.length).map fun i ↦
          if d' = .postgres then '$' :: Text.ofNat (i + 1) else ['?']) ∧
      q'.inlineText = Sql.woven (d'.written t.first) (t.later.map d'.written)
        (t.values.map d'.literal) ∧
      ∀ v ∈ t.values, d'.lexemes? (d'.literal v) = some [v.lexeme] := by
  intro t
  refine ⟨t.length_later, fun d' ↦ ⟨_, Target.compile_of_dialect h d', ?_, ?_, ?_, ?_⟩⟩
  · exact Query.parameters_eq_values _
  · have placeholders : d'.placeholder = fun i ↦
        if d' = .postgres then '$' :: Text.ofNat (i + 1) else ['?'] := by
      cases d' <;> rfl
    rw [← placeholders]
    exact Query.boundText_eq_woven _
  · exact Query.inlineText_eq_woven _
  · intro v _
    have read : d'.lexemes? (d'.literal v ++ []) = (d'.lexemes? []).map (v.lexeme :: ·) :=
      Dialect.lexemes?_value (by simp [Sql.EndsSign]) v
    rwa [List.append_nil, Dialect.lexemes?_nil] at read

theorem Target.texts_of_compile_numbered :
    let n : Filter := .join .and [.leaf (.onField (.ofString "title") .like (.scalar ['d', 'b'])),
      .leaf (.onRelation locations .isAny [.ofString "Remote", .ofString "Ulm"]),
      .leaf (.onField (.ofString "level") .equal (.scalar ['C']))]
    ∃ q, Target.compile ⟨.default, .postgres⟩ (fun _ ↦ .ok none) (some n) = .ok q ∧
      q.parameters = [.text (.ofString "%db%"), .bool true, .text (.ofString "Ulm"),
        .text (.ofString "Ulm"), .text (.ofString "Ulm"), .text ['C']] ∧
      ∃ (first : List Sql.Fixed) (later : List (List Sql.Fixed)), later.length = 6 ∧
        q.boundText = Sql.woven (Dialect.postgres.written first)
          (later.map Dialect.postgres.written)
          (["$1", "$2", "$3", "$4", "$5", "$6"].map Text.ofString) ∧
        q.inlineText = Sql.woven (Dialect.postgres.written first)
          (later.map Dialect.postgres.written)
          (["'%db%'", "TRUE", "'Ulm'", "'Ulm'", "'Ulm'", "'C'"].map Text.ofString) := by
  intro n
  obtain ⟨hl, texts⟩ :=
    Target.texts_of_compile .default (fun _ ↦ .ok none) (some n) .postgres rfl
  obtain ⟨q, hq, hp, hb, hi, -⟩ := texts .postgres
  cases hq
  exact ⟨_, rfl, hp, _, _, hl, hb, hi⟩

end ListingFilter
