import ListingFilter.Attribute

namespace ListingFilter

/-- A computation that asks a resolver for attributes, with the names that it asks for, in order and
also where it fails. -/
structure Traced (α : Type) where
  lookups : List Text
  result : Except FilterError α

namespace Traced

variable {α β : Type}

def pure (a : α) : Traced α := ⟨[], .ok a⟩

def bind (x : Traced α) (f : α → Traced β) : Traced β :=
  match x.result with
  | .ok a => ⟨x.lookups ++ (f a).lookups, (f a).result⟩
  | .error e => ⟨x.lookups, .error e⟩

instance : Monad Traced where
  pure := pure
  bind := bind

def ofResult (r : Except FilterError α) : Traced α := ⟨[], r⟩

def lookUp (resolve : Resolver) (name : Text) : Traced (Option Attribute) :=
  ⟨[name], resolve name⟩

theorem result_bind (x : Traced α) (f : α → Traced β) :
    (x >>= f).result = x.result >>= fun a ↦ (f a).result := by
  change (x.bind f).result = _
  unfold bind
  cases x.result <;> rfl

theorem lookups_bind_of_eq_ok {x : Traced α} {a : α} (h : x.result = .ok a) (f : α → Traced β) :
    (x >>= f).lookups = x.lookups ++ (f a).lookups := by
  change (x.bind f).lookups = _
  simp [bind, h]

theorem lookups_bind_of_eq_error {x : Traced α} {e : FilterError} (h : x.result = .error e)
    (f : α → Traced β) : (x >>= f).lookups = x.lookups := by
  change (x.bind f).lookups = _
  simp [bind, h]

end Traced

end ListingFilter
