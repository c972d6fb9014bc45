import ListingFilter.Proofs.Sql.Contents
import ListingFilter.Proofs.Sql.Spelling

namespace ListingFilter

namespace Sql

def Lexeme.isQuoted : Lexeme → Bool
  | sign _ => false
  | name _ | literal _ => true

def Lexeme.literal? : Lexeme → Option Text
  | literal t => some t
  | sign _ | name _ => none

def Lexeme.sign? : Lexeme → Option Text
  | sign t => some t
  | name _ | literal _ => none

def Value.text? : Value → Option Text
  | text t => some t
  | bool _ | id _ | number _ => none

def Content.quoted? : Content → Option Lexeme
  | name t => some (.name t)
  | value v => v.text?.map .literal

/-- The sign of a piece. There is none for a name or a text, whatever it says. -/
def Piece.sign? : Piece → Option Text
  | symbol s => some s.text
  | value (.bool b) => some (truthText b)
  | value (.id n) | value (.number n) => some (.ofInt n.toInt)
  | gap | name _ | value (.text _) => none

variable (pieces : List Piece)

theorem filter_isQuoted_lexemes :
    (lexemes pieces).filter Lexeme.isQuoted = (contents pieces).filterMap Content.quoted? := by
  induction pieces with
  | nil => rfl
  | cons piece pieces ih =>
    cases piece with
    | symbol s => exact ih
    | gap => exact ih
    | name t => exact congrArg (Lexeme.name t :: ·) ih
    | value v =>
      cases v with
      | text t => exact congrArg (Lexeme.literal t :: ·) ih
      | _ => exact ih

theorem filterMap_literal?_lexemes :
    (lexemes pieces).filterMap Lexeme.literal? = (parameters pieces).filterMap Value.text? := by
  rw [lexemes, parameters, List.filterMap_filterMap, List.filterMap_filterMap]
  congr 1
  funext piece
  cases piece with
  | value v => cases v <;> rfl
  | _ => rfl

theorem filterMap_sign?_lexemes :
    (lexemes pieces).filterMap Lexeme.sign? = pieces.filterMap Piece.sign? := by
  rw [lexemes, List.filterMap_filterMap]
  congr 1
  funext piece
  cases piece with
  | value v => cases v <;> rfl
  | _ => rfl

end Sql

/-- The text of a statement is read as the pieces it was written from. What is quoted in it are the
names and texts of the filter, its literals are the texts among its parameters, and its signs are
those of the pieces that are no names or texts. -/
theorem Target.lexemes?_of_compile {t : Target} {resolve : Resolver} {filter? : Option Filter}
    {q : Query} (h : t.compile resolve filter? = .ok q) :
    ∃ read, t.dialect.lexemes? q.inlineText = some read ∧ read = Sql.lexemes q.select.pieces ∧
      read.filter Sql.Lexeme.isQuoted =
        (t.contents resolve filter?).filterMap Sql.Content.quoted? ∧
      read.filterMap Sql.Lexeme.literal? = q.parameters.filterMap Sql.Value.text? ∧
      read.filterMap Sql.Lexeme.sign? = q.select.pieces.filterMap Sql.Piece.sign? := by
  have dialect : q.dialect = t.dialect := by
    cases filter? with
    | none =>
      cases h
      rfl
    | some n =>
      obtain ⟨condition?, -, h⟩ := exists_of_bind_eq_ok h
      cases h
      rfl
  refine ⟨Sql.lexemes q.select.pieces, ?_, rfl, ?_, ?_, ?_⟩
  · rw [Query.inlineText, dialect]
    exact t.dialect.lexemes?_inlineText q.select.separated_pieces
  · rw [Sql.filter_isQuoted_lexemes, ← Sql.Select.contents, contents_of_compile h]
  · exact Sql.filterMap_literal?_lexemes _
  · exact Sql.filterMap_sign?_lexemes _

theorem Target.lexemes?_of_compile_quotes :
    let field := Text.ofString "a\x60 = 1 OR \x60b"
    let value := Text.ofString "\\' OR 1 = 1) -- "
    let language := Text.ofString "C\" IN ('E''"
    let n : Filter := .join .or [.leaf (.onField field .equal (.scalar value)),
      .leaf (.onRelation (.ofString "languages") .hasAny [language])]
    ∃ q, Target.compile ⟨.default, .mysql⟩ (fun _ ↦ .ok none) (some n) = .ok q ∧
      ∃ read, Dialect.mysql.lexemes? q.inlineText = some read ∧
        read.take 15 = [.sign (.ofString "SELECT"), .name (.ofString "job_listings"), .sign ['.'],
          .sign ['*'], .sign (.ofString "FROM"), .name (.ofString "job_listings"),
          .sign (.ofString "WHERE"), .name (.ofString "job_listings"), .sign ['.'], .name field,
          .sign ['='], .literal value, .sign (.ofString "OR"), .sign (.ofString "EXISTS"),
          .sign ['(']] ∧
        read.filterMap Sql.Lexeme.literal? = [value, language] ∧
        (read.filterMap Sql.Lexeme.sign?).count (.ofString "OR") = 1 := by
  intro field value language n
  have h : Target.compile ⟨.default, .mysql⟩ (fun _ ↦ .ok none) (some n) = .ok _ := rfl
  obtain ⟨read, hread, rfl, -, literals, -⟩ := Target.lexemes?_of_compile h
  exact ⟨_, h, _, hread, rfl, literals, by decide⟩

end ListingFilter
