import ListingFilter.Proofs.Filter.SingleReading
import ListingFilter.Proofs.Token.Placement
import Mathlib.Data.List.Forall2

namespace ListingFilter.Token

variable {bound : Nat} {first close : Token} {ts us inside : List Token}

/-- At no place are more than `bound` parentheses open. -/
def DepthAtMost (bound : Nat) (ts : List Token) : Prop :=
  ∀ us depth, us <+: ts → depthAfter? 0 us = some depth → depth ≤ bound

instance : Decidable (DepthAtMost bound ts) :=
  decidable_of_iff (∀ us ∈ ts.inits, ∀ depth ∈ depthAfter? 0 us, depth ≤ bound)
    ⟨fun h us depth hu hd ↦ h us ((List.mem_inits us ts).2 hu) depth hd,
      fun h us hu depth hd ↦ h us depth ((List.mem_inits us ts).1 hu) hd⟩

theorem DepthAtMost.within (h : DepthAtMost bound ts) (hb : depthAfter? 0 ts = some 0)
    (hu : us <:+: ts) : DepthAtMost bound us := by
  intro vs depth hv hd
  obtain ⟨before, behind, rfl⟩ := hu
  obtain ⟨rest, rfl⟩ := hv
  have hts : before ++ (vs ++ rest) ++ behind = before ++ (vs ++ (rest ++ behind)) := by simp
  rw [hts, depthAfter?_append] at hb
  obtain ⟨outer, ho, -⟩ := Option.bind_eq_some_iff.1 hb
  have hvs : depthAfter? 0 (before ++ vs) = some (depth + outer) := by
    rw [depthAfter?_append, ho, Option.bind_some, ← depthAfter?_add hd outer, Nat.zero_add]
  have hle := h (before ++ vs) (depth + outer) ⟨rest ++ behind, by simp⟩ hvs
  omega

theorem DepthAtMost.enclosed (h : DepthAtMost bound (first :: (inside ++ [close])))
    (hf : first.kind = .opening) : ∃ less, bound = less + 1 ∧ DepthAtMost less inside := by
  have deeper : ∀ us depth, us <+: inside → depthAfter? 0 us = some depth → depth + 1 ≤ bound := by
    intro us depth hu hd
    obtain ⟨rest, rfl⟩ := hu
    refine h (first :: us) (depth + 1) ⟨rest ++ [close], by simp⟩ ?_
    rw [depthAfter?_cons, deepen?_opening hf, Option.bind_some]
    exact depthAfter?_add hd 1
  have hpos := deeper [] 0 List.nil_prefix rfl
  refine ⟨bound - 1, by omega, fun us depth hu hd ↦ ?_⟩
  have hle := deeper us depth hu hd
  omega

theorem DepthAtMost.mono {more : Nat} (h : DepthAtMost bound ts) (hle : bound ≤ more) :
    DepthAtMost more ts :=
  fun us depth hu hd ↦ (h us depth hu hd).trans hle

end ListingFilter.Token

namespace ListingFilter.Filter

open Token

variable {m n : Nat} {ts inside : List Token} {first close : Token}

theorem ofLayer_congr {f g : List Token → Except FilterError Filter} {l : Layer}
    (h : ∀ r ∈ l.ranges, f r = g r) : ofLayer f l = ofLayer g l := by
  obtain ⟨op?, ranges⟩ := l
  have hm : ranges.mapM f = ranges.mapM g := by
    rw [← mapM_map_eq h, List.map_id']
  cases ranges with
  | nil => rfl
  | cons first ranges =>
    cases op? with
    | none =>
      change (f first).map some = (g first).map some
      rw [h first List.mem_cons_self]
    | some op =>
      change ((first :: ranges).mapM f).map _ = ((first :: ranges).mapM g).map _
      rw [hm]

theorem bind_ofLayer_congr {f g : List Token → Except FilterError Filter}
    (h : ∀ r, r <:+: ts → depthAfter? 0 ts = some 0 → f r = g r) :
    (layer ts >>= ofLayer f) = (layer ts >>= ofLayer g) := by
  cases hl : layer ts with
  | error e => rfl
  | ok l =>
    exact ofLayer_congr fun r hr ↦ h r (of_mem_ranges hl hr).2 (balanced_of_layer hl)

theorem ofRange_eq (hm : DepthAtMost m ts) (hn : DepthAtMost n ts) :
    ofRange m ts = ofRange n ts := by
  induction m generalizing n ts with
  | zero =>
    cases he : enclosed? ts with
    | none => rw [ofRange_of_enclosed?_eq_none he, ofRange_of_enclosed?_eq_none he]
    | some inside =>
      obtain ⟨first, close, rfl, hf, -, -⟩ := enclosed?_eq_some_iff.1 he
      obtain ⟨less, hless, -⟩ := hm.enclosed hf
      omega
  | succ m ih =>
    cases he : enclosed? ts with
    | none => rw [ofRange_of_enclosed?_eq_none he, ofRange_of_enclosed?_eq_none he]
    | some inside =>
      obtain ⟨first, close, rfl, hf, -, -⟩ := enclosed?_eq_some_iff.1 he
      obtain ⟨m', hm', insideM⟩ := hm.enclosed hf
      obtain ⟨n', rfl, insideN⟩ := hn.enclosed hf
      obtain rfl : m = m' := Nat.succ.inj hm'
      rw [ofRange_of_enclosed?_eq_some he, ofRange_of_enclosed?_eq_some he,
        bind_ofLayer_congr fun r hr hb ↦ ih (insideM.within hb hr) (insideN.within hb hr)]

theorem bind_ofLayer_eq (hm : DepthAtMost m ts) (hn : DepthAtMost n ts) :
    (layer ts >>= ofLayer (ofRange m)) = (layer ts >>= ofLayer (ofRange n)) :=
  bind_ofLayer_congr fun _ hr hb ↦ ofRange_eq (hm.within hb hr) (hn.within hb hr)

/-- Tokens that are a filter are the same filter where they stand in a group. A pair of parentheses
around all of them does not count by itself and counts in the group, where there is room for it. -/
theorem ofLayer_of_ofTokens? {f : Filter} (h : ofTokens? ts = .ok (some f))
    (hd : DepthAtMost n ts) (hn : n ≤ maxNesting) :
    depthAfter? 0 ts = some 0 ∧ (layer ts >>= ofLayer (ofRange n)) = .ok (some f) := by
  rw [ofTokens?] at h
  cases he : enclosed? ts with
  | none =>
    rw [he, Option.getD_none] at h
    obtain ⟨l, hl, -⟩ := exists_of_bind_eq_ok h
    exact ⟨balanced_of_layer hl, (bind_ofLayer_eq hd (hd.mono hn)).trans h⟩
  | some inside =>
    rw [he, Option.getD_some] at h
    obtain ⟨first, close, rfl, hf, hc, hb⟩ := enclosed?_eq_some_iff.1 he
    have hsealed := IsSealed.enclose hf hc (by simpa [isBalanced] using hb)
    refine ⟨hsealed.balanced, ?_⟩
    obtain ⟨less, rfl, hinside⟩ := hd.enclosed hf
    rw [layer_of_isSealed (by simp) hsealed]
    change (ofRange (less + 1) _).map some = _
    have hmax := hinside.mono (Nat.le_of_succ_le hn)
    rw [ofRange_of_enclosed?_eq_some he, bind_ofLayer_eq hinside hmax, h]
    rfl

end ListingFilter.Filter

namespace ListingFilter

open Text Token

variable {g t rest : Text} {f : Filter} {op : Connective} {n : Nat} {texts : List Text}
  {ts us range : List Token} {ranges : List (List Token)}

def Connective.chain (op : Connective) (texts : List Text) : Text :=
  joined (' ' :: (op.keyword ++ [' '])) (texts.map grouped)

theorem Connective.chain_cons_cons (op : Connective) (t u : Text) (texts : List Text) :
    op.chain (t :: u :: texts) =
      grouped t ++ ' ' :: (op.keyword ++ ' ' :: op.chain (u :: texts)) := by
  simp [chain, joined, List.intercalate_cons_cons]

namespace Token

def IsGroupOf (range ts : List Token) : Prop :=
  ∃ first close, range = first :: (ts ++ [close]) ∧ first.kind = .opening ∧ close.kind = .closing

theorem IsGroupOf.ne_nil (h : IsGroupOf range ts) : range ≠ [] := by
  obtain ⟨first, close, rfl, -, -⟩ := h
  apply List.cons_ne_nil

theorem IsGroupOf.isSealed (h : IsGroupOf range ts) (hb : depthAfter? 0 ts = some 0) :
    IsSealed range := by
  obtain ⟨first, close, rfl, hf, hc⟩ := h
  exact .enclose hf hc hb

theorem IsGroupOf.enclosed?_eq (h : IsGroupOf range ts) (hb : depthAfter? 0 ts = some 0) :
    enclosed? range = some ts := by
  obtain ⟨first, close, hrange, hf, hc⟩ := h
  have hbalanced : isBalanced ts = true := by simpa [isBalanced] using hb
  exact enclosed?_eq_some_iff.2 ⟨first, close, hrange, hf, hc, hbalanced⟩

theorem exists_reads_grouped (hg : AllBlank g) (t rest : Text)
    (hopen : ∀ token ∈ read t, ∀ c ∈ token.openQuote?, c ∉ rest) :
    ∃ range, IsGroupOf range (read t) ∧ Reads (g ++ (grouped t ++ rest)) range rest := by
  obtain ⟨gap, hgap, ht⟩ := exists_reads_read t
  have first : Reads (g ++ (['('] ++ (t ++ ')' :: rest))) [⟨g, ['(']⟩] (t ++ ')' :: rest) :=
    reads_single hg (by decide) rfl
  have inside : Reads (t ++ ')' :: rest) (read t) (gap ++ ')' :: rest) := by
    refine ht.append (endsWord_cons rfl rest) fun token htoken c hc hm ↦ ?_
    obtain rfl | hm := List.mem_cons.1 hm
    · exact absurd (openQuote?_eq_some_iff.1 hc).1 (by decide)
    · exact hopen token htoken c hc hm
  have close : Reads (gap ++ ([')'] ++ rest)) [⟨gap, [')']⟩] rest :=
    reads_single hgap (by decide) rfl
  refine ⟨⟨g, ['(']⟩ :: (read t ++ [⟨gap, [')']⟩]), ⟨_, _, rfl, rfl, rfl⟩, ?_⟩
  have h := first.trans (inside.trans close)
  simpa [grouped] using h

theorem exists_reads_chain (op : Connective) (hne : texts ≠ [])
    (closed : ∀ t ∈ texts.dropLast, ∀ token ∈ read t, token.openQuote? = none)
    (balanced : ∀ t ∈ texts, depthAfter? 0 (read t) = some 0) (hg : AllBlank g) :
    ∃ (ranges : List (List Token)) (us : List Token), Reads (g ++ op.chain texts) us [] ∧
      Joins op ranges us ∧ List.Forall₂ (fun t range ↦ IsGroupOf range (read t)) texts ranges := by
  -- behind the last text nothing comes that could close a quote, so it may leave one open
  induction texts generalizing g with
  | nil => exact absurd rfl hne
  | cons t texts ih =>
    obtain ⟨hb, hbs⟩ := List.forall_mem_cons.1 balanced
    cases texts with
    | nil =>
      obtain ⟨range, hrange, hr⟩ :=
        exists_reads_grouped hg t [] fun _ _ c _ ↦ List.not_mem_nil
      have hchain : op.chain [t] = grouped t ++ [] := by simp [Connective.chain, joined]
      rw [hchain]
      exact ⟨[range], range, hr, .single hrange.ne_nil (hrange.isSealed hb), .cons hrange .nil⟩
    | cons u texts =>
      rw [List.dropLast_cons_cons] at closed
      obtain ⟨head, tail⟩ := List.forall_mem_cons.1 closed
      obtain ⟨ranges, us, hus, hj, hranges⟩ := ih (by simp) tail hbs allBlank_space
      obtain ⟨range, hrange, hr⟩ := exists_reads_grouped hg t
        (' ' :: (op.keyword ++ ' ' :: op.chain (u :: texts)))
        fun token htoken c hc ↦ absurd hc (by simp [head token htoken])
      have hop := (Places.word allBlank_space (isSolid_keyword op)).reads
        (' ' :: op.chain (u :: texts)) (endsWord_cons rfl _)
      rw [Connective.chain_cons_cons]
      exact ⟨range :: ranges, range ++ (⟨[' '], op.keyword⟩ :: us), hr.trans (hop.trans hus),
        .cons hrange.ne_nil (hrange.isSealed hb) (kind_keyword [' '] op) hj, .cons hrange hranges⟩

end Token

namespace Filter

theorem ofRange_of_isGroupOf (h : ofTokens? ts = .ok (some f)) (hd : DepthAtMost n ts)
    (hn : n ≤ maxNesting) (hr : IsGroupOf range ts) : ofRange (n + 1) range = .ok f := by
  obtain ⟨hb, hl⟩ := ofLayer_of_ofTokens? h hd hn
  rw [ofRange_of_enclosed?_eq_some (hr.enclosed?_eq hb), hl]
  rfl

theorem mapM_ofRange_of_isGroupOf {parts : List Filter}
    (h : List.Forall₂ (fun t f ↦ ∀ range, IsGroupOf range (Token.read t) → ofRange n range = .ok f)
      texts parts)
    (hr : List.Forall₂ (fun t range ↦ IsGroupOf range (Token.read t)) texts ranges) :
    ranges.mapM (ofRange n) = .ok parts := by
  induction hr generalizing parts with
  | nil =>
    cases h
    rfl
  | cons head _ ih =>
    cases h with
    | cons hf hfs =>
      rw [List.mapM_cons, hf _ head, ih hfs]
      rfl

theorem bind_ofLayer_of_joins {parts : List Filter} (hj : Joins op ranges ts)
    (two : 2 ≤ ranges.length) (h : ranges.mapM (ofRange n) = .ok parts) :
    (layer ts >>= ofLayer (ofRange n)) = .ok (some (.join op parts)) := by
  obtain ⟨range, ranges, rfl⟩ := List.exists_cons_of_length_pos (Nat.zero_lt_of_lt two)
  rw [layer_of_joins hj two]
  change ((range :: ranges).mapM (ofRange n)).map _ = _
  rw [h]
  rfl

/-- Filters compose. Each of them lies in a pair of parentheses more than by itself, so it may have
one pair less than groups may be nested, and a quote that it leaves open must not be closed by a
later text. -/
theorem read?_chain (op : Connective) {texts : List Text} {parts : List Filter}
    (two : 2 ≤ texts.length)
    (parsed : List.Forall₂ (fun t part ↦ read? t = .ok (some part)) texts parts)
    (shallow : ∀ t ∈ texts, DepthAtMost 63 (Token.read t))
    (closed : ∀ t ∈ texts.dropLast, ∀ token ∈ Token.read t, token.openQuote? = none) :
    read? (op.chain texts) = .ok (some (.join op parts)) := by
  have embedded : List.Forall₂ (fun t part ↦ depthAfter? 0 (Token.read t) = some 0 ∧
      ∀ range, IsGroupOf range (Token.read t) → ofRange maxNesting range = .ok part)
      texts parts := by
    refine ((List.forall₂_and_left texts parts).2 ⟨shallow, parsed⟩).imp fun t part h ↦ ?_
    obtain ⟨hd, hpart⟩ := h
    rw [read?_eq_ofTokens?] at hpart
    refine ⟨(ofLayer_of_ofTokens? hpart hd (by decide)).1, fun range hr ↦ ?_⟩
    exact ofRange_of_isGroupOf hpart hd (by decide) hr
  obtain ⟨balanced, hparts⟩ := (List.forall₂_and_left texts parts).1 embedded
  have hne : texts ≠ [] := List.ne_nil_of_length_pos (by omega)
  obtain ⟨ranges, us, hus, hj, hgroups⟩ :=
    exists_reads_chain (g := []) op hne closed balanced allBlank_nil
  have hlen : 2 ≤ ranges.length := hgroups.length_eq ▸ two
  have hread : Token.read (op.chain texts) = us := hus.read_eq_of_allBlank allBlank_nil
  rw [read?_eq_ofTokens?, hread, ofTokens?, enclosed?_eq_none_of_joins hj hlen, Option.getD_none]
  exact bind_ofLayer_of_joins hj hlen (mapM_ofRange_of_isGroupOf hparts hgroups)

theorem read?_chain_quotes :
    let texts : List Text := [.ofString "(title = x OR languages EXISTS)",
      .ofString "city = 'a) OR (b'", .ofString "city = 'c"]
    let parts : List Filter := [
      .join .or [.leaf (.onField (.ofString "title") .equal (.scalar ['x'])),
        .leaf (.onRelation (.ofString "languages") .present [])],
      .leaf (.onField (.ofString "city") .equal (.scalar (.ofString "a) OR (b"))),
      .leaf (.onField (.ofString "city") .equal (.scalar (.ofString "'c")))]
    Connective.or.chain texts = .ofString
      "((title = x OR languages EXISTS)) OR (city = 'a) OR (b') OR (city = 'c)" ∧
      read? (Connective.or.chain texts) = .ok (some (.join .or parts)) := by
  intro texts parts
  have whole {t : Text} {ts : List Token} (h : Reads t ts []) : Token.read t = ts :=
    h.read_eq_of_allBlank allBlank_nil
  have first : Token.read (.ofString "(title = x OR languages EXISTS)") =
      [⟨[], ['(']⟩, ⟨[], .ofString "title"⟩, ⟨[' '], ['=']⟩, ⟨[' '], ['x']⟩, ⟨[' '], ['O', 'R']⟩,
        ⟨[' '], .ofString "languages"⟩, ⟨[' '], .ofString "EXISTS"⟩, ⟨[], [')']⟩] := by
    refine whole ?_
    iterate 8 refine .cons rfl ?_
    exact .nil _
  have second : Token.read (.ofString "city = 'a) OR (b'") =
      [⟨[], .ofString "city"⟩, ⟨[' '], ['=']⟩, ⟨[' '], .ofString "'a) OR (b'"⟩] :=
    whole (.cons rfl (.cons rfl (.cons rfl (.nil _))))
  have third : Token.read (.ofString "city = 'c") =
      [⟨[], .ofString "city"⟩, ⟨[' '], ['=']⟩, ⟨[' '], .ofString "'c"⟩] :=
    whole (.cons rfl (.cons rfl (.cons rfl (.nil _))))
  have parsed : List.Forall₂ (fun t part ↦ read? t = .ok (some part)) texts parts := by
    refine .cons ?_ (.cons ?_ (.cons ?_ .nil))
    · rw [read?_eq_ofTokens?, first]
      rfl
    · rw [read?_eq_ofTokens?, second]
      rfl
    · rw [read?_eq_ofTokens?, third]
      rfl
  have shallow : ∀ t ∈ texts, DepthAtMost 63 (Token.read t) := by
    refine List.forall_mem_cons.2 ⟨?_, List.forall_mem_cons.2 ⟨?_, List.forall_mem_singleton.2 ?_⟩⟩
    · rw [first]
      decide
    · rw [second]
      decide
    · rw [third]
      decide
  have closed : ∀ t ∈ texts.dropLast, ∀ token ∈ Token.read t, token.openQuote? = none := by
    refine List.forall_mem_cons.2 ⟨?_, List.forall_mem_singleton.2 ?_⟩
    · rw [first]
      decide
    · rw [second]
      decide
  exact ⟨by decide, read?_chain .or (by decide) parsed shallow closed⟩

end Filter

end ListingFilter
