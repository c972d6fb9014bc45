import ListingFilter.Json.Lexeme.Reading

namespace ListingFilter.Json

/-- A part of a JSON text: its brackets are matched, and what stands between them is as it was
written. The items of a group end with the leaf that closes it, unless the text ends first. -/
inductive Outline
  | leaf (l : Leaf)
  | group (b : Bracket) (items : List Outline)

namespace Outline

/-- The open brackets, the innermost first, each with the items read so far, the last first. -/
abbrev Stack := List (Bracket × List Outline)

def Stack.add (item : Outline) : Stack → List Outline → Stack × List Outline
  | [], top => ([], item :: top)
  | (b, items) :: outer, top => ((b, item :: items) :: outer, top)

def Stack.close : Stack → List Outline → Stack × List Outline
  | [], top => ([], top)
  | (b, items) :: outer, top => Stack.add (.group b items.reverse) outer top

def Stack.finish (inner : List Outline) : Stack → List Outline → List Outline
  | [], top => (inner ++ top).reverse
  | (b, items) :: outer, top => Stack.finish [.group b (inner ++ items).reverse] outer top

def build (stack : Stack) (top : List Outline) : List Lexeme → List Outline
  | [] => stack.finish [] top
  | .opening b :: rest => build ((b, []) :: stack) top rest
  | .leaf (.closing b) :: rest =>
    let (stack', top') := stack.add (.leaf (.closing b)) top
    if stack.head?.any (·.1 = b) then
      let (stack', top') := stack'.close top'
      build stack' top' rest
    else build stack' top' rest
  | .leaf l :: rest =>
    let (stack, top) := stack.add (.leaf l) top
    build stack top rest

def ofText (t : Text) : List Outline := build [] [] (lexemes t)

end Outline

/-- What is read of a bracket's items in order, and whether they end as they should. -/
structure Contents (α : Type) where
  items : List α
  ending : Except Fault Unit

namespace Contents

variable {α : Type}

def stop (ending : Except Fault Unit) : Contents α := ⟨[], ending⟩

def cons (a : α) (c : Contents α) : Contents α := ⟨a :: c.items, c.ending⟩

end Contents

structure Member where
  key : Scanned Text
  value : Except Fault Outline

namespace Outline

def moreElements (trailing : Fault) : List Outline → Contents Outline
  | [] => .stop (.error .endInList)
  | .leaf (.closing .square) :: _ => .stop (.ok ())
  | .leaf .comma :: [] => .stop (.error .endInValue)
  | .leaf .comma :: .leaf (.closing .square) :: _ => .stop (.error trailing)
  | .leaf .comma :: item :: rest => (moreElements trailing rest).cons item
  | _ :: _ => .stop (.error .expectedCommaOrBracket)

def elements (trailing : Fault) : List Outline → Contents Outline
  | [] => .stop (.error .endInList)
  | .leaf (.closing .square) :: _ => .stop (.ok ())
  | item :: rest => (moreElements trailing rest).cons item

/-- The members that follow a member. `trailing` is the fault of a comma in front of the closing
brace, and `cut` that of the text's end behind a comma. -/
def moreMembers (trailing cut : Fault) : List Outline → Contents Member
  | [] => .stop (.error .endInObject)
  | .leaf (.closing .curly) :: _ => .stop (.ok ())
  | .leaf .comma :: [] => .stop (.error cut)
  | .leaf .comma :: .leaf (.closing .curly) :: _ => .stop (.error trailing)
  | .leaf .comma :: .leaf (.string key) :: .leaf .colon :: value :: rest =>
    (moreMembers trailing cut rest).cons ⟨key, .ok value⟩
  | .leaf .comma :: .leaf (.string key) :: [.leaf .colon] =>
    (Contents.stop (.ok ())).cons ⟨key, .error .endInValue⟩
  | .leaf .comma :: .leaf (.string key) :: [] =>
    (Contents.stop (.ok ())).cons ⟨key, .error .endInObject⟩
  | .leaf .comma :: .leaf (.string key) :: _ =>
    (Contents.stop (.ok ())).cons ⟨key, .error .expectedColon⟩
  | .leaf .comma :: _ => .stop (.error .keyNotString)
  | _ :: _ => .stop (.error .expectedCommaOrBrace)

/-- The members of an object, from its items. The first is read as if it stood behind a comma. -/
def members (trailing cut : Fault) : List Outline → Contents Member
  | [] => .stop (.error .endInObject)
  | .leaf (.closing .curly) :: _ => .stop (.ok ())
  | items => moreMembers trailing cut (.leaf .comma :: items)

theorem mem_of_mem_moreElements {trailing : Fault} {items : List Outline} {o : Outline}
    (h : o ∈ (moreElements trailing items).items) : o ∈ items := by
  fun_induction moreElements trailing items <;> simp_all [Contents.stop, Contents.cons]
  grind

theorem mem_of_mem_elements {trailing : Fault} {items : List Outline} {o : Outline}
    (h : o ∈ (elements trailing items).items) : o ∈ items := by
  unfold elements at h
  split at h
  · cases h
  · cases h
  · rcases List.mem_cons.1 h with rfl | h
    · exact List.mem_cons_self
    · exact List.mem_cons_of_mem _ (mem_of_mem_moreElements h)

theorem value_mem_of_mem_moreMembers {trailing cut : Fault} {items : List Outline} {m : Member}
    {o : Outline} (h : m ∈ (moreMembers trailing cut items).items) (hv : m.value = .ok o) :
    o ∈ items.tail := by
  fun_induction moreMembers trailing cut items <;> simp_all [Contents.stop, Contents.cons]
  grind [List.mem_of_mem_tail]

theorem value_mem_of_mem_members {trailing cut : Fault} {items : List Outline} {m : Member}
    {o : Outline} (h : m ∈ (members trailing cut items).items) (hv : m.value = .ok o) :
    o ∈ items := by
  unfold members at h
  split at h
  · cases h
  · cases h
  · exact value_mem_of_mem_moreMembers h hv

theorem sizeOf_lt_of_mem {items : List Outline} {o : Outline} (b : Bracket) (h : o ∈ items) :
    sizeOf o < sizeOf (group b items) := by
  have := List.sizeOf_lt_of_mem h
  simp only [group.sizeOf_spec]
  omega

def skipLeaf : Leaf → Except Fault Unit
  | .string s => s.skipped
  | .scalar s => s.skipped
  | _ => .error .expectedValue

def skip : Outline → Except Fault Unit
  | leaf l => skipLeaf l
  | group .square items => do
    let contents := elements .expectedValue items
    contents.items.attach.forM fun ⟨o, _⟩ ↦ skip o
    contents.ending
  | group .curly items => do
    let contents := members .keyNotString .endInObject items
    contents.items.attach.forM fun ⟨m, _⟩ ↦ do
      m.key.skipped
      match _ : m.value with
      | .ok o => skip o
      | .error f => .error f
    contents.ending
termination_by o => sizeOf o
decreasing_by
  · exact sizeOf_lt_of_mem _ (mem_of_mem_elements ‹_›)
  · exact sizeOf_lt_of_mem _ (value_mem_of_mem_members ‹_› ‹_›)

end Outline

end ListingFilter.Json
