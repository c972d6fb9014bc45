import ListingFilter.Json.Outline
import ListingFilter.Table

namespace ListingFilter.Json

abbrev Decoder (α : Type) := Outline → Except Fault α

def Scalar.found : Scalar → Text
  | null => .ofString "null"
  | bool value => .ofString "boolean " ++ backquoted (.ofString (if value then "true" else "false"))
  | number value => value.found

def Outline.unexpected (expected : Text) : Outline → Fault
  | leaf (.string s) =>
    match s.value with
    | .ok t => .invalidType (.ofString "string " ++ t.shown) expected
    | .error f => f
  | leaf (.scalar s) =>
    match s.value with
    | .ok v => .invalidType v.found expected
    | .error f => f
  | leaf _ => .expectedValue
  | group .square _ => .invalidType (.ofString "sequence") expected
  | group .curly _ => .invalidType (.ofString "map") expected

namespace Decoder

variable {α β : Type}

def text : Decoder Text
  | .leaf (.string s) => s.value
  | o => .error (o.unexpected (.ofString "a string"))

def int64 : Decoder Int64 := fun o ↦
  let expected := .ofString "i64"
  match o with
  | .leaf (.scalar ⟨.ok (.number (.integer n)), _⟩) =>
    if Int64.minValue.toInt ≤ n ∧ n ≤ Int64.maxValue.toInt then .ok (Int64.ofInt n)
    else .error (.invalidValue (Number.integer n).found expected)
  | o => .error (o.unexpected expected)

def null : Decoder Unit
  | .leaf (.scalar ⟨.ok .null, _⟩) => .ok ()
  | o => .error (o.unexpected (.ofString "unit"))

def optional (decode : Decoder α) : Decoder (Option α)
  | .leaf (.scalar ⟨.ok .null, _⟩) => .ok none
  | o => (decode o).map some

def list (decode : Decoder α) : Decoder (List α)
  | .group .square items => do
    let contents := Outline.elements .trailingComma items
    let values ← contents.items.mapM decode
    contents.ending
    return values
  | o => .error (o.unexpected (.ofString "a sequence"))

/-- An object with any names. Of two equal names the later counts. -/
def table (decode : Decoder α) : Decoder (Table α)
  | .group .curly items => do
    let contents := Outline.members .trailingComma .endInValue items
    let entries ← contents.items.mapM fun m ↦ do
      let name ← m.key.value
      let value ← decode (← m.value)
      return (name, value)
    contents.ending
    return .ofList entries
  | o => .error (o.unexpected (.ofString "a map"))

def pick (known : List (Text × α)) (name : Text) : Except Fault α :=
  match Table.find? name known with
  | some value => .ok value
  | none => .error (.unknownVariant name (known.map Prod.fst))

def variantTail : List Outline → Except Fault Unit
  | [] => .error .endInObject
  | [.leaf .colon] => .error .endInValue
  | .leaf .colon :: value :: rest => do
    null value
    match rest with
    | [] => .error .endInObject
    | .leaf (.closing .curly) :: _ => .ok ()
    | _ => .error .expectedValue
  | _ => .error .expectedColon

/-- A name out of a list, as a string or as the only name of an object, with null for its value. -/
def variant (known : List (Text × α)) : Decoder α
  | .leaf (.string s) => do pick known (← s.value)
  | .group .curly [] => .error .endInObject
  | .group .curly (.leaf (.closing .curly) :: _) => .error .expectedValue
  | .group .curly (.leaf (.string s) :: rest) => do
    let value ← pick known (← s.value)
    variantTail rest
    return value
  | .group .curly _ => .error .keyNotString
  | _ => .error .expectedValue

end Decoder

namespace Contents

def nth? {β : Type} (c : Contents Outline) (place : Nat) (decode : Decoder β) :
    Except Fault (Option β) :=
  match c.items[place]? with
  | some o => (decode o).map some
  | none => c.ending.map fun _ ↦ none

def endsBy (c : Contents Outline) (count : Nat) : Except Fault Unit :=
  if count < c.items.length then .error .trailingCharacters
  else if c.items.length < count then c.ending
  else match c.ending with
    | .error .endInValue | .error .expectedCommaOrBracket => .error .trailingCharacters
    | ending => ending

end Contents

/-- A field of a record. It must be there unless it has a default. -/
structure Field where
  {β : Type}
  name : Text
  decode : Decoder β
  default? : Option β

namespace Field

def Found : List Field → Type
  | [] => Unit
  | f :: fs => Option f.β × Found fs

def Filled : List Field → Type
  | [] => Unit
  | f :: fs => f.β × Filled fs

def nothing : (fs : List Field) → Found fs
  | [] => ()
  | _ :: fs => (none, nothing fs)

/-- The reader of the value under a name. A field may be found once, and what stands under a name that
no field has is read over. -/
def member : (fs : List Field) → Found fs → Text → Except Fault (Decoder (Found fs))
  | [], found, _ => .ok fun o ↦ o.skip.map fun _ ↦ found
  | f :: fs, (old, later), name =>
    if name = f.name then
      if old.isSome then .error (.duplicateField name)
      else .ok fun o ↦ (f.decode o).map fun b ↦ (some b, later)
    else (member fs later name).map fun read o ↦ (read o).map fun found ↦ (old, found)

def fill : (fs : List Field) → Found fs → Except Fault (Filled fs)
  | [], _ => .ok ()
  | f :: fs, (found?, later) =>
    match found?.or f.default? with
    | some b => (fill fs later).map fun filled ↦ (b, filled)
    | none => .error (.missingField f.name)

def inOrder (c : Contents Outline) (expected : Text) :
    Nat → (fs : List Field) → Except Fault (Filled fs)
  | place, [] => c.endsBy place
  | place, f :: fs => do
    let found? ← c.nth? place f.decode
    match found?.or f.default? with
    | some b => (inOrder c expected (place + 1) fs).map fun filled ↦ (b, filled)
    | none => .error (.invalidLength place expected)

end Field

/-- A record, which is read from an object or from a list of its fields. -/
structure Record (α : Type) where
  name : Text
  fields : List Field
  nodup_names : (fields.map Field.name).Nodup := by decide
  make : Field.Filled fields → α

namespace Record

variable {α : Type}

def listName (r : Record α) : Text :=
  r.name ++ .ofString " with " ++ .ofNat r.fields.length ++ .ofString " elements"

def decode (r : Record α) : Decoder α
  | .group .curly items => do
    let contents := Outline.members .trailingComma .endInValue items
    let found ← contents.items.foldlM
      (fun found m ↦ do
        let read ← Field.member r.fields found (← m.key.value)
        read (← m.value))
      (Field.nothing r.fields)
    contents.ending
    (Field.fill r.fields found).map r.make
  | .group .square items =>
    (Field.inOrder (Outline.elements .trailingComma items) r.listName 0 r.fields).map r.make
  | o => .error (o.unexpected r.name)

end Record

end ListingFilter.Json
