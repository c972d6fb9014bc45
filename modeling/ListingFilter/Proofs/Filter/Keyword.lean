import ListingFilter.Filter.Condition
import ListingFilter.Proofs.Text.Search
import Mathlib.Data.List.Infix
import Mathlib.Tactic.MkIffOfInductiveProp

namespace ListingFilter

open Text

variable {t name value rest : Text} {test : RelationTest} {op : Comparison}

def RelationTest.earlier (test : RelationTest) : List RelationTest := typable.takeWhile (· ≠ test)

def Comparison.earlier (op : Comparison) : List Comparison := typable.takeWhile (· ≠ op)

theorem RelationTest.mem_typable (test : RelationTest) : test ∈ typable := by
  cases test <;> decide

@[mk_iff]
structure IsKeywordFree (t : Text) : Prop where
  no_test : ∀ test ∈ RelationTest.typable, ¬ test.mark <:+: t
  no_comparison : ∀ op ∈ Comparison.typable, ¬ spaced op.keyword <:+: t

instance (t : Text) : Decidable (IsKeywordFree t) := decidable_of_iff _ (isKeywordFree_iff t).symm

theorem Comparison.split?_eq_some (hop : op ≠ .oneOf)
    (before : ∀ op' ∈ op.earlier, splitOnce? (spaced op'.keyword) t = none)
    (h : splitOnce? (spaced op.keyword) t = some (name, value)) :
    split? t = some (name, op, value) := by
  obtain ⟨later, ht⟩ : ∃ later, typable = op.earlier ++ op :: later := by
    cases op <;> first | exact ⟨_, rfl⟩ | exact absurd rfl hop
  refine List.findSome?_eq_some_iff.2 ⟨op.earlier, op, later, ht, by rw [h]; rfl, fun op' ho ↦ ?_⟩
  rw [before op' ho]
  rfl

theorem Comparison.split?_eq_none (h : ∀ op ∈ typable, ¬ spaced op.keyword <:+: t) :
    split? t = none := by
  refine List.findSome?_eq_none_iff.2 fun op hop ↦ ?_
  rw [splitOnce?_eq_none_iff.2 (h op hop)]
  rfl

namespace Condition

theorem readTest_of_splitOnce? (h : splitOnce? test.mark t = some (name, rest)) :
    readTest test t =
      if test = .present then readPresent name rest t else readRelation test name rest t := by
  rw [readTest, h]

theorem readTrimmed_eq_readTest (before : ∀ test' ∈ test.earlier, splitOnce? test'.mark t = none)
    (h : splitOnce? test.mark t = some (name, rest)) : readTrimmed t = readTest test t := by
  obtain ⟨later, ht⟩ : ∃ later, RelationTest.typable = test.earlier ++ test :: later := by
    cases test <;> exact ⟨_, rfl⟩
  have hfind : RelationTest.typable.find? (fun test ↦ occurs test.mark t) = some test := by
    refine List.find?_eq_some_iff_append.2 ⟨?_, test.earlier, later, ht, fun test' ht' ↦ ?_⟩
    · rw [← isSome_splitOnce?, h]
      rfl
    · rw [← isSome_splitOnce?, before test' ht']
      rfl
  rw [readTrimmed, hfind]

theorem readTrimmed_eq_readOwn_of_splitOnce? (h : ∀ test : RelationTest, splitOnce? test.mark t = none) :
    readTrimmed t = readOwn t := by
  have hfind : RelationTest.typable.find? (fun test ↦ occurs test.mark t) = none := by
    refine List.find?_eq_none.2 fun test _ ↦ ?_
    rw [← isSome_splitOnce?, h]
    exact Bool.false_ne_true
  rw [readTrimmed, hfind]

/-- A condition is read at the keyword of a test, which is found in it, or has none. -/
theorem readTrimmed_cases (t : Text) :
    (∃ (test : RelationTest) (name rest : Text), splitOnce? test.mark t = some (name, rest) ∧
      readTrimmed t = readTest test t) ∨ readTrimmed t = readOwn t := by
  cases hfind : RelationTest.typable.find? (fun test ↦ occurs test.mark t) with
  | none => exact .inr (by rw [readTrimmed, hfind])
  | some test =>
    have hfound : occurs test.mark t = true := by simpa using List.find?_some hfind
    rw [← isSome_splitOnce?] at hfound
    obtain ⟨⟨name, rest⟩, hs⟩ := Option.isSome_iff_exists.1 hfound
    exact .inl ⟨test, name, rest, hs, by rw [readTrimmed, hfind]⟩

end Condition

end ListingFilter
