import ListingFilter.Error
import ListingFilter.Text.Quoted

namespace ListingFilter

def spaced (keyword : Text) : Text := ' ' :: (keyword ++ [' '])

/-- The keyword of a test as it is looked for: the word for presence may end a condition. -/
def RelationTest.mark : RelationTest → Text
  | present => ' ' :: present.keyword
  | test => spaced test.keyword

def RelationTest.typable : List RelationTest := [hasAny, isAny, present]

/-- The comparisons that can be typed, in the order in which they are looked for: each before the
ones that its end spells. -/
def Comparison.typable : List Comparison :=
  [atLeast, atMost, differs, notEqual, equal, greater, less, like]

def Comparison.split? (t : Text) : Option (Text × Comparison × Text) :=
  typable.findSome? fun op ↦
    (Text.splitOnce? (spaced op.keyword) t).map fun (name, value) ↦ (name, op, value)

def listValues (inside whole : Text) : Except FilterError (List Text) :=
  let values := (Text.pieces ',' inside).map Text.clean
  if values.any (·.isEmpty) then .error (.malformed .emptyValue whole) else .ok values

namespace Operand

def isList (value : Text) : Bool :=
  (Text.unquote? value).isNone ∧ '(' ∈ value ∧ ')' ∈ value

def firstGroup? (value : Text) : Option Text := do
  let (_, rest) ← Text.splitOnce? ['('] value
  let (inside, _) ← Text.splitOnce? [')'] rest
  return inside

def readList (value : Text) : Except FilterError Operand :=
  match firstGroup? value with
  | some inside => (listValues inside value).map set
  | none => .error (.malformed .openedAfterClosed value)

def read (op : Comparison) (value : Text) : Except FilterError (Comparison × Operand) :=
  if op = .equal ∧ isList value.trim then
    (readList value.trim).map fun operand ↦ (.oneOf, operand)
  else .ok (op, .scalar (Text.clean value))

end Operand

namespace Condition

/-- A name, a comparison and an operand. Without a comparison, the first word is the name and the
rest is the value that it shall equal. `whole` is the text that an error names. -/
def readComparison (t whole : Text) : Except FilterError (Text × Comparison × Operand) :=
  match Comparison.split? t with
  | some (name, op, value) =>
    if name.trim.isEmpty then .error (.malformed .missingName whole)
    else (Operand.read op value).map fun read ↦ (name.trim, read)
  | none =>
    let name := t.trim.takeWhile (!isBlank ·)
    let value := t.trim.dropWhile (!isBlank ·)
    if value.isEmpty then .error (.malformed .noComparison whole)
    else .ok (name, .equal, .scalar (Text.clean value))

def readRelation (test : RelationTest) (name values whole : Text) : Except FilterError Condition :=
  if name.trim.isEmpty then .error (.malformed .missingRelation whole)
  else match Text.between? '(' ')' values.trim with
    | some inside => (listValues inside values.trim).map (onRelation name.trim test)
    | none => .error (.malformed (.missingList test) whole)

def readPresent (name rest whole : Text) : Except FilterError Condition :=
  if rest.trim.isEmpty then .ok (onRelation name.trim .present [])
  else .error (.malformed .textAfterPresent whole)

def readOwn (whole : Text) : Except FilterError Condition :=
  match Text.after? attributeMark whole with
  | some rest => (readComparison rest whole).map fun (name, op, operand) ↦ onAttribute name op operand
  | none => (readComparison whole whole).map fun (name, op, operand) ↦ onField name op operand

def readTest (test : RelationTest) (whole : Text) : Except FilterError Condition :=
  match Text.splitOnce? test.mark whole with
  | none => .error (.malformed (.missingTest test) whole)
  | some (name, rest) =>
    if test = .present then readPresent name rest whole else readRelation test name rest whole

/-- Reads a condition without blanks at its ends: at the keyword of a test, if one occurs in it, and
else as a comparison of an attribute or of a field. -/
def readTrimmed (t : Text) : Except FilterError Condition :=
  match RelationTest.typable.find? fun test ↦ Text.occurs test.mark t with
  | some test => readTest test t
  | none => readOwn t

def read (t : Text) : Except FilterError Condition := readTrimmed t.trim

end Condition

end ListingFilter
