import ListingFilter.Filter.Basic

namespace ListingFilter

def listText (values : List Text) : Text :=
  '(' :: (Text.joined [',', ' '] values ++ [')'])

def Operand.text : Operand → Text
  | scalar value => value
  | set values => listText values

/-- The comparison as it is typed: membership in a list with an equals sign. -/
def Comparison.typed : Comparison → Text
  | oneOf => equal.keyword
  | op => op.keyword

def attributeMark : Text := ['a', 't', 't', 'r', 'i', 'b', 'u', 't', 'e', ':']

def comparisonText (name : Text) (op : Comparison) (operand : Operand) : Text :=
  name ++ ' ' :: (op.typed ++ ' ' :: operand.text)

def Condition.text : Condition → Text
  | onField name op operand => comparisonText name op operand
  | onAttribute name op operand => attributeMark ++ comparisonText name op operand
  | onRelation name .present _ => name ++ ' ' :: RelationTest.present.keyword
  | onRelation name test values => name ++ ' ' :: (test.keyword ++ ' ' :: listText values)

mutual

def Filter.text : Filter → Text
  | .leaf condition => condition.text
  | .join op parts => '(' :: (Text.joined (' ' :: (op.keyword ++ [' '])) (Filter.texts parts) ++ [')'])

def Filter.texts : List Filter → List Text
  | [] => []
  | part :: parts => part.text :: Filter.texts parts

end

theorem Filter.texts_eq_map (parts : List Filter) : Filter.texts parts = parts.map Filter.text := by
  induction parts with
  | nil => rfl
  | cons part parts ih => simp [Filter.texts, ih]

end ListingFilter
