import ListingFilter.Proofs.Error
import ListingFilter.Proofs.Predicate.Replay
import ListingFilter.Proofs.Sql.Piece
import ListingFilter.Proofs.Sql.Precedence
import ListingFilter.Query

namespace ListingFilter

namespace Connective

def combine : Connective → Bool → Bool → Bool
  | and => (· && ·)
  | or => (· || ·)

def neutral (op : Connective) : Bool := op = .and

theorem combine_neutral (op : Connective) (b : Bool) : op.combine b op.neutral = b := by
  cases op <;> simp [combine, neutral]

theorem combine_assoc (op : Connective) (a b c : Bool) :
    op.combine (op.combine a b) c = op.combine a (op.combine b c) := by
  cases op
  · exact Bool.and_assoc a b c
  · exact Bool.or_assoc a b c

end Connective

namespace Predicate

@[induction_eliminator]
theorem induction {P : Predicate → Prop}
    (group : ∀ op parts, (∀ part ∈ parts, P part) → P (group op parts))
    (compare : ∀ column op value, P (compare column op value))
    (isIn : ∀ column values, P (isIn column values)) (flag : ∀ column value, P (flag column value))
    (idEquals : ∀ column id, P (idEquals column id)) (has : ∀ relation, P (has relation))
    (hasWith : ∀ relation filter, P filter → P (hasWith relation filter)) (p : Predicate) : P p :=
  Predicate.rec (motive_1 := P) (motive_2 := fun parts ↦ ∀ part ∈ parts, P part) group compare isIn
    flag idEquals has hasWith (by simp) (fun _ _ head tail ↦ List.forall_mem_cons.2 ⟨head, tail⟩) p

def asking (relation : Text) : Option Predicate → Predicate
  | none => has relation
  | some filter => hasWith relation filter

def isGroup : Predicate → Bool
  | group .. => true
  | _ => false

mutual

/-- The truth of a predicate for the truths `v` of its parts that are no groups. -/
def truth (v : Predicate → Bool) : Predicate → Bool
  | group op parts => truths v op parts
  | p => v p

def truths (v : Predicate → Bool) (op : Connective) : List Predicate → Bool
  | [] => op.neutral
  | part :: parts => op.combine (truth v part) (truths v op parts)

end

theorem truth_eq {v : Predicate → Bool} {p : Predicate} (h : p.isGroup = false) :
    p.truth v = v p := by
  cases p with
  | group op parts => cases h
  | _ => rfl

/-- The predicate `q` is a part of another one, or of the filter of a part. -/
inductive Occurs (q : Predicate) : Predicate → Prop
  | self : Occurs q q
  | group {op : Connective} {parts : List Predicate} {part : Predicate} (hp : part ∈ parts)
    (h : Occurs q part) : Occurs q (group op parts)
  | hasWith {relation : Text} {filter : Predicate} (h : Occurs q filter) :
    Occurs q (hasWith relation filter)

end Predicate

namespace Sql

namespace Formula

def truth (w : List Lexeme → Bool) : Formula → Bool
  | atom ls => w ls
  | binary op left right => op.combine (left.truth w) (right.truth w)

end Formula

/-- Truths of atoms by which TRUE is true and FALSE is false. -/
structure IsValuation (w : List Lexeme → Bool) : Prop where
  truth (value : Bool) : w [.sign (truthText value)] = value

namespace Expr

variable {w : List Lexeme → Bool}

theorem truth_foldl (op : Connective) (first : Expr) (rest : List Expr) :
    (rest.foldl (.binary op) first).formula.truth w =
      op.combine (first.formula.truth w)
        ((rest.map fun e ↦ e.formula.truth w).foldr op.combine op.neutral) := by
  induction rest generalizing first with
  | nil => exact (op.combine_neutral _).symm
  | cons second rest ih =>
    rw [List.foldl_cons, ih, formula, Formula.truth, op.combine_assoc, List.map_cons,
      List.foldr_cons]

theorem truth_group (hw : IsValuation w) (op : Connective) (es : List Expr) :
    (group op es).formula.truth w =
      (es.map fun e ↦ e.formula.truth w).foldr op.combine op.neutral := by
  cases es with
  | nil => exact hw.truth op.neutral
  | cons first rest => exact truth_foldl op first rest

theorem infix_parens (parens : Bool) (xs : List Piece) :
    xs <:+: (if parens then Piece.enclosed xs else xs) := by
  cases parens
  · exact List.infix_rfl
  · exact ⟨[.symbol .opening], [.symbol .closing], rfl⟩

theorem pieces_infix_left (op : Connective) (left right : Expr) :
    left.pieces <:+: (binary op left right).pieces := by
  rw [pieces, List.append_assoc]
  exact (infix_parens _ left.pieces).trans (List.prefix_append _ _).isInfix

theorem pieces_infix_right (op : Connective) (left right : Expr) :
    right.pieces <:+: (binary op left right).pieces :=
  (infix_parens _ right.pieces).trans (List.suffix_append _ _).isInfix

theorem pieces_infix_foldl (op : Connective) (first : Expr) (rest : List Expr) :
    ∀ e ∈ first :: rest, e.pieces <:+: (rest.foldl (.binary op) first).pieces := by
  induction rest generalizing first with
  | nil => exact List.forall_mem_singleton.2 List.infix_rfl
  | cons second rest ih =>
    obtain ⟨joined, later⟩ := List.forall_mem_cons.1 (ih (.binary op first second))
    refine List.forall_mem_cons.2 ⟨?_, List.forall_mem_cons.2 ⟨?_, later⟩⟩
    · exact (pieces_infix_left op first second).trans joined
    · exact (pieces_infix_right op first second).trans joined

theorem pieces_infix_group {e : Expr} {es : List Expr} (op : Connective) (h : e ∈ es) :
    e.pieces <:+: (group op es).pieces := by
  cases es with
  | nil => cases h
  | cons first rest => exact pieces_infix_foldl op first rest e h

theorem pieces_infix_rowExists (source : Source) (condition : Expr) :
    condition.pieces <:+: (rowExists source condition).pieces := by
  refine List.IsInfix.trans ?_ (List.suffix_cons _ _).isInfix
  exact (List.suffix_append _ _).isInfix.trans (infix_parens true _)

end Expr

end Sql

namespace Dialect

open Sql

def atomTruth (d : Dialect) (w : List Lexeme → Bool) (t : Text) : Bool := (d.lexemes? t).any w

/-- A text is read as a condition with this truth. -/
def Denotes (d : Dialect) (t : Text) (truth : (List Lexeme → Bool) → Bool) : Prop :=
  ∃ f, d.condition? t = some f ∧ ∀ w, IsValuation w → f.truth w = truth w

def existsText (d : Dialect) (source : Source) (condition : Text) : Text :=
  .ofString "EXISTS(SELECT 1 FROM " ++ d.inlineText source.pieces ++ .ofString " WHERE " ++
    condition ++ [')']

variable (d : Dialect)

theorem atomTruth_inlineText (w : List Lexeme → Bool) (e : Expr) :
    d.atomTruth w (d.inlineText e.pieces) = w e.lexemes := by
  rw [atomTruth, d.lexemes?_inlineText e.separated_pieces]
  rfl

theorem inlineText_infix {xs ys : List Piece} (h : xs <:+: ys) :
    d.inlineText xs <:+: d.inlineText ys := by
  obtain ⟨before, behind, rfl⟩ := h
  exact ⟨d.inlineText before, d.inlineText behind, by simp only [inlineText_append]⟩

theorem inlineText_rowExists (source : Source) (condition : Expr) :
    d.inlineText (Expr.rowExists source condition).pieces =
      d.existsText source (d.inlineText condition.pieces) := by
  have hp : (Expr.rowExists source condition).pieces =
      [.symbol .rowExists, .symbol .opening, .symbol .select, .gap, .symbol .one, .gap,
        .symbol .source, .gap] ++ source.pieces ++ [.gap, .symbol .condition, .gap] ++
        condition.pieces ++ [.symbol .closing] := by
    simp [Expr.pieces, Piece.enclosed, Piece.spaced]
  simp only [hp, inlineText_append, existsText]
  rfl

theorem denotes_inlineText {e : Expr} {truth : (List Lexeme → Bool) → Bool}
    (h : ∀ w, IsValuation w → e.formula.truth w = truth w) :
    d.Denotes (d.inlineText e.pieces) truth :=
  ⟨e.formula, d.condition?_inlineText e, h⟩

end Dialect

namespace Schema

variable (s : Schema) {d : Dialect} {w : List Sql.Lexeme → Bool} {p q : Predicate} {e : Sql.Expr}

def atomTruth (d : Dialect) (w : List Sql.Lexeme → Bool) (p : Predicate) : Bool :=
  match p.replay s.store with
  | .ok e => d.atomTruth w (d.inlineText e.pieces)
  | .error _ => false

variable {s}

theorem atomTruth_of_replay (h : p.replay s.store = .ok e) :
    s.atomTruth d w p = w e.lexemes := by
  rw [atomTruth, h]
  exact d.atomTruth_inlineText w e

theorem needsParensRight_link (relation : Text) (m : Mapping) :
    (s.link relation m).needsParensRight = false := by
  unfold link
  split <;> rfl

theorem needsParensRight_of_replay (h : p.replay s.store = .ok e) (hp : p.isGroup = false) :
    e.needsParensRight = false := by
  cases p with
  | group op parts => cases hp
  | compare column op value =>
    cases h
    cases op <;> rfl
  | isIn column values => cases h; rfl
  | flag column value => cases h; rfl
  | idEquals column id => cases h; rfl
  | has relation =>
    obtain ⟨m, -, rfl⟩ := exists_of_has_eq_ok h
    rfl
  | hasWith relation filter =>
    obtain ⟨f, -, h⟩ := exists_of_bind_eq_ok h
    obtain ⟨m, -, rfl⟩ := exists_of_has_eq_ok h
    rfl

theorem forall₂_of_replayAll {parts : List Predicate} {es : List Sql.Expr}
    (h : Predicate.replayAll s.store parts = .ok es) :
    List.Forall₂ (fun part e ↦ part.replay s.store = .ok e) parts es := by
  rw [Predicate.replayAll_eq_mapM] at h
  exact mapM_eq_ok_iff.1 h

theorem exists_of_replay_group {op : Connective} {parts : List Predicate}
    (h : (Predicate.group op parts).replay s.store = .ok e) :
    ∃ es : List Sql.Expr, List.Forall₂ (fun part e ↦ part.replay s.store = .ok e) parts es ∧
      e = .group op es := by
  obtain ⟨es, hes, h⟩ := exists_of_bind_eq_ok h
  cases h
  exact ⟨es, forall₂_of_replayAll hes, rfl⟩

theorem exists_of_mem_parts {parts : List Predicate} {es : List Sql.Expr} {part : Predicate}
    (h : List.Forall₂ (fun part e ↦ part.replay s.store = .ok e) parts es) (hp : part ∈ parts) :
    ∃ e ∈ es, part.replay s.store = .ok e := by
  induction h with
  | nil => cases hp
  | @cons first e _ es head _ ih =>
    obtain rfl | hp := List.mem_cons.1 hp
    · exact ⟨e, List.mem_cons_self, head⟩
    · obtain ⟨e', he', hpart⟩ := ih hp
      exact ⟨e', List.mem_cons_of_mem e he', hpart⟩

theorem truths_eq {v : Predicate → Bool} {parts : List Predicate} {es : List Sql.Expr}
    (op : Connective)
    (h : List.Forall₂ (fun part e ↦ e.formula.truth w = part.truth v) parts es) :
    (es.map fun e ↦ e.formula.truth w).foldr op.combine op.neutral =
      Predicate.truths v op parts := by
  induction h with
  | nil => rfl
  | cons head _ ih => rw [List.map_cons, List.foldr_cons, head, ih, Predicate.truths]

theorem truth_formula_of_replay (hw : Sql.IsValuation w) (h : p.replay s.store = .ok e) :
    e.formula.truth w = p.truth (s.atomTruth d w) := by
  induction p generalizing e with
  | group op parts ih =>
    obtain ⟨es, hes, rfl⟩ := exists_of_replay_group h
    rw [Sql.Expr.truth_group hw, Predicate.truth]
    refine truths_eq op (((List.forall₂_and_left parts es).2 ⟨ih, hes⟩).imp fun part e hpart ↦ ?_)
    exact hpart.1 hpart.2
  | _ =>
    have hatom := needsParensRight_of_replay h rfl
    rw [Predicate.truth_eq rfl, atomTruth_of_replay h, Sql.Expr.formula_eq_atom hatom,
      Sql.Formula.truth]

theorem exists_infix_of_occurs (ho : q.Occurs p) (h : p.replay s.store = .ok e) :
    ∃ f : Sql.Expr, q.replay s.store = .ok f ∧ f.pieces <:+: e.pieces := by
  induction ho generalizing e with
  | self => exact ⟨e, h, List.infix_rfl⟩
  | @group op parts part hp _ ih =>
    obtain ⟨es, hes, rfl⟩ := exists_of_replay_group h
    obtain ⟨f, hf, hpart⟩ := exists_of_mem_parts hes hp
    obtain ⟨f', hf', hinfix⟩ := ih hpart
    exact ⟨f', hf', hinfix.trans (Sql.Expr.pieces_infix_group op hf)⟩
  | @hasWith relation filter _ ih =>
    obtain ⟨f, hf, h⟩ := exists_of_bind_eq_ok h
    obtain ⟨m, -, rfl⟩ := exists_of_has_eq_ok h
    obtain ⟨f', hf', hinfix⟩ := ih hf
    refine ⟨f', hf', hinfix.trans ?_⟩
    exact (Sql.Expr.pieces_infix_right .and (s.link relation m) f).trans
      (Sql.Expr.pieces_infix_rowExists _ _)

variable (d)

/-- A sub-select has the link and the filter under one AND, whatever the filter is. -/
theorem denotes_of_asking {relation : Text} {filter? : Option Predicate}
    (h : (Predicate.asking relation filter?).replay s.store = .ok e) :
    ∃ m condition, s.relation? relation = some m ∧
      d.inlineText e.pieces = d.existsText (m.source relation) condition ∧
      d.Denotes condition fun w ↦ d.atomTruth w (d.inlineText (s.link relation m).pieces) &&
        filter?.all fun filter ↦ filter.truth (s.atomTruth d w) := by
  have link (m : Mapping) (w : List Sql.Lexeme → Bool) : (s.link relation m).formula.truth w =
      d.atomTruth w (d.inlineText (s.link relation m).pieces) := by
    rw [Sql.Expr.formula_eq_atom (needsParensRight_link relation m), d.atomTruth_inlineText]
    rfl
  cases filter? with
  | none =>
    obtain ⟨m, hm, rfl⟩ := exists_of_has_eq_ok h
    refine ⟨m, _, hm, d.inlineText_rowExists _ _, d.denotes_inlineText fun w hw ↦ ?_⟩
    rw [Sql.Expr.truth_group hw, ← link]
    rfl
  | some filter =>
    obtain ⟨f, hf, h⟩ := exists_of_bind_eq_ok h
    obtain ⟨m, hm, rfl⟩ := exists_of_has_eq_ok h
    refine ⟨m, _, hm, d.inlineText_rowExists _ _, d.denotes_inlineText fun w hw ↦ ?_⟩
    rw [Sql.Expr.truth_group hw, ← link, Option.all_some, ← truth_formula_of_replay hw hf]
    simp [Connective.combine, Connective.neutral]

end Schema

/-- The condition of a statement, read back from its text, has the truth of the predicate that it
was built from, and the condition of each sub-select is the link together with its filter. -/
theorem Predicate.denotes_of_replay (s : Schema) (d : Dialect) {p : Predicate} {e : Sql.Expr}
    (h : p.replay s.store = .ok e) :
    Query.inlineText ⟨⟨s.primaryTable, some e⟩, d⟩ = Query.inlineText ⟨⟨s.primaryTable, none⟩, d⟩ ++
        .ofString " WHERE " ++ d.inlineText e.pieces ∧
      (d.Denotes (d.inlineText e.pieces) fun w ↦ p.truth (s.atomTruth d w)) ∧
      ∀ relation filter?, (asking relation filter?).Occurs p →
        ∃ m condition, s.relation? relation = some m ∧
          d.existsText (m.source relation) condition <:+: d.inlineText e.pieces ∧
          d.Denotes condition fun w ↦ d.atomTruth w (d.inlineText (s.link relation m).pieces) &&
            filter?.all fun filter ↦ filter.truth (s.atomTruth d w) := by
  refine ⟨d.inlineText_select s.primaryTable e, d.denotes_inlineText fun w hw ↦
    Schema.truth_formula_of_replay hw h, fun relation filter? ho ↦ ?_⟩
  obtain ⟨f, hf, hinfix⟩ := Schema.exists_infix_of_occurs ho h
  obtain ⟨m, condition, hm, htext, hdenotes⟩ := Schema.denotes_of_asking d hf
  exact ⟨m, condition, hm, htext ▸ d.inlineText_infix hinfix, hdenotes⟩

theorem Predicate.denotes_of_replay_nested :
    let title : Column := .field (.ofString "title")
    let related : Predicate := .group .or [.isIn (.relatedName (.ofString "languages")) [],
      .isIn (.relatedName (.ofString "languages")) [.ofString "Go) OR (C"]]
    let p : Predicate := .group .and [.group .or [.compare title .like ['a'], .group .and []],
      .group .or [.group .and [.compare title .equal ['b']]],
      .hasWith (.ofString "languages") related]
    ∃ e, p.replay Schema.default.store = .ok e ∧
      (Dialect.postgres.Denotes (Dialect.postgres.inlineText e.pieces) fun w ↦
        p.truth (Schema.default.atomTruth .postgres w)) ∧
      ∃ m condition, Schema.default.relation? (.ofString "languages") = some m ∧
        Dialect.postgres.existsText (m.source (.ofString "languages")) condition <:+:
          Dialect.postgres.inlineText e.pieces ∧
        Dialect.postgres.Denotes condition fun w ↦
          Dialect.postgres.atomTruth w
              (Dialect.postgres.inlineText (Schema.default.link (.ofString "languages") m).pieces) &&
            related.truth (Schema.default.atomTruth .postgres w) := by
  intro title related p
  obtain ⟨-, denotes, inner⟩ := denotes_of_replay .default .postgres (p := p) rfl
  exact ⟨_, rfl, denotes, inner _ (some related) (.group (by simp [asking]) .self)⟩

end ListingFilter
