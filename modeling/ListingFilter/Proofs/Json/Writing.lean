import ListingFilter.Json.Quoted
import ListingFilter.Proofs.Json.Figure

namespace ListingFilter.Json

def Leaf.isClosing : Leaf → Bool
  | .closing _ => true
  | _ => false

namespace Outline

variable {t t' : Text} {items items' : List Outline}

def Stack.addAll (items : List Outline) (stack : Stack) (top : List Outline) :
    Stack × List Outline :=
  items.foldl (fun s item ↦ Stack.add item s.1 s.2) (stack, top)

theorem Stack.addAll_cons (b : Bracket) (items acc : List Outline) (outer : Stack)
    (top : List Outline) :
    Stack.addAll items ((b, acc) :: outer) top = ((b, items.reverse ++ acc) :: outer, top) := by
  induction items generalizing acc with
  | nil => rfl
  | cons item items ih =>
    rw [addAll, List.foldl_cons, ← addAll, Stack.add]
    simp [ih]

/-- Whether a text is read as the given items wherever it stands, if a number at its end does not go
on behind it. -/
def Writes (t : Text) (items : List Outline) : Prop :=
  ∀ (rest : Text) (stack : Stack) (top : List Outline), Stops rest →
    build stack top (lexemes (t ++ rest)) =
      build (stack.addAll items top).1 (stack.addAll items top).2 (lexemes rest)

theorem Writes.append (h : Writes t items) (h' : Writes t' items') (ht : Stops t') :
    Writes (t ++ t') (items ++ items') := by
  intro rest stack top hr
  rw [List.append_assoc, h _ stack top (ht.append hr), h' _ _ _ hr, Stack.addAll, Stack.addAll,
    Stack.addAll, List.foldl_append]

theorem Writes.group {b : Bracket} {opening closing : Char}
    (ho : ∀ rest, lexemes (opening :: rest) = .opening b :: lexemes rest)
    (hc : ∀ rest, lexemes (closing :: rest) = .leaf (.closing b) :: lexemes rest)
    (hs : Stops [closing]) (h : Writes t items) :
    Writes (opening :: (t ++ [closing])) [.group b (items ++ [.leaf (.closing b)])] := by
  intro rest stack top hr
  have inside := h (closing :: rest) ((b, []) :: stack) top (hs.append hr)
  rw [Stack.addAll_cons, hc] at inside
  rw [List.cons_append, ho, build, List.append_assoc, List.singleton_append, inside, build]
  simp [Stack.add, Stack.close, Stack.addAll]

theorem Writes.cons {l : Leaf} {c : Char} (h : Writes t items) (hl : l.isClosing = false)
    (hc : ∀ rest, lexemes (c :: rest) = .leaf l :: lexemes rest) :
    Writes (c :: t) (.leaf l :: items) := by
  intro rest stack top hr
  rw [List.cons_append, hc, build]
  · exact h rest _ _ hr
  · rintro b rfl
    cases hl

end Outline

namespace Value

open Outline

def text : Value → Text
  | null => .ofString "null"
  | bool value => .ofString (if value then "true" else "false")
  | number value => value.text
  | string value => quoted value
  | list items => '[' :: (Text.joined [','] (items.map fun v ↦ v.text) ++ [']'])
  | object members =>
    '{' :: (Text.joined [','] (members.map fun m ↦ quoted m.1 ++ ':' :: m.2.text) ++ ['}'])
termination_by v => sizeOf v
decreasing_by
  · have := List.sizeOf_lt_of_mem ‹_ ∈ items›
    simp only [list.sizeOf_spec]
    omega
  · exact sizeOf_lt_of_mem_members ‹_›

end Value

end ListingFilter.Json
