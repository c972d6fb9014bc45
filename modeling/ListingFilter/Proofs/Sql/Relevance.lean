import ListingFilter.Proofs.Predicate.Agreement
import ListingFilter.Proofs.Sql.Pruning
import ListingFilter.Proofs.Sql.Refusal
import ListingFilter.Proofs.Table
import ListingFilter.Settings.Basic

namespace ListingFilter

namespace Catalog

def definition? (attributes : List Attribute) (name : Text) : Option Attribute :=
  (attributes.filter (·.name = name)).getLast?

theorem ofList_eq (attributes : List Attribute) :
    ofList attributes = Table.ofList (attributes.map fun a ↦ (a.name, a)) := by
  rw [ofList, Table.ofList, List.foldl_map]
  rfl

theorem get?_ofList (attributes : List Attribute) (name : Text) :
    (ofList attributes).get? name = definition? attributes name := by
  rw [ofList_eq, Table.get?_ofList, definition?, Table.under, List.filter_map, List.map_map]
  exact congrArg List.getLast? (List.map_id _)

end Catalog

/-- Schemas with the same primary table and the same mappings of the relations asked for. -/
structure Schema.AgreesOn (s s' : Schema) (asked : Text → Prop) : Prop where
  primaryTable_eq : s.primaryTable = s'.primaryTable
  primaryKey_eq : s.primaryKey = s'.primaryKey
  remoteColumn_eq : s.remoteColumn = s'.remoteColumn
  relation?_eq (relation : Text) (h : asked relation) : s.relation? relation = s'.relation? relation

namespace Schema.AgreesOn

variable {s s' : Schema} {asked : Text → Prop}

theorem mono {fewer : Text → Prop} (h : s.AgreesOn s' asked)
    (hf : ∀ relation, fewer relation → asked relation) : s.AgreesOn s' fewer :=
  ⟨h.primaryTable_eq, h.primaryKey_eq, h.remoteColumn_eq,
    fun relation hr ↦ h.relation?_eq relation (hf relation hr)⟩

theorem column_eq (h : s.AgreesOn s' asked) {column : Column}
    (hc : ∀ relation ∈ column.relation?, asked relation) : s.column column = s'.column column := by
  cases column with
  | field name => simp only [column, h.primaryTable_eq]
  | remote => simp only [column, h.primaryTable_eq, h.remoteColumn_eq]
  | relatedName relation =>
    simp only [column, nameColumn, h.relation?_eq relation (hc relation rfl)]
  | related relation name => rfl

theorem comparison_eq (h : s.AgreesOn s' asked) (column : Column)
    (hc : ∀ relation ∈ column.relation?, asked relation) (op : Comparison) (operand : Operand) :
    s.store.comparison column op operand = s'.store.comparison column op operand := by
  have hcolumn := h.column_eq hc
  cases operand <;> cases op <;>
    simp only [Store.comparison, store, Schema.compare, hcolumn]

theorem has_eq (h : s.AgreesOn s' asked) {relation : Text} (ha : asked relation)
    (filter? : Option Sql.Expr) : s.store.has relation filter? = s'.store.has relation filter? := by
  simp only [store, has, link, owner, h.relation?_eq relation ha, h.primaryTable_eq,
    h.primaryKey_eq]

theorem hasNameIn_eq (h : s.AgreesOn s' asked) {relation : Text} (ha : asked relation)
    (values : List Text) :
    s.store.has relation (some (s.store.isIn (.relatedName relation) values)) =
      s'.store.has relation (some (s'.store.isIn (.relatedName relation) values)) := by
  have hc : s.column (.relatedName relation) = s'.column (.relatedName relation) :=
    h.column_eq fun r hr ↦ Option.mem_some_iff.1 hr ▸ ha
  rw [h.has_eq ha]
  simp only [store, hc]

theorem location_eq (h : s.AgreesOn s' asked) (ha : asked locations) (value : Text) :
    s.store.location value = s'.store.location value := by
  unfold Store.location
  split
  · have hc : s.column .remote = s'.column .remote := h.column_eq nofun
    simp only [store, hc]
  · exact h.has_eq ha _

theorem relation_eq (h : s.AgreesOn s' asked) {name : Text} (ha : asked name) (test : RelationTest)
    (values : List Text) : s.store.relation name test values = s'.store.relation name test values := by
  cases test with
  | present => exact h.has_eq ha none
  | hasAny => exact h.hasNameIn_eq ha values
  | isAny =>
    simp only [Store.relation]
    split
    · next hn =>
      have hl : s.store.location = s'.store.location := funext (h.location_eq (hn ▸ ha))
      rw [hl]
      rfl
    · exact h.hasNameIn_eq ha values

theorem attributeValue_eq (h : s.AgreesOn s' asked) (ha : asked attributeValues) {a a' : Attribute}
    (hid : a.id = a'.id) (op : Comparison) (operand : Operand) :
    s.store.attributeValue a op operand = s'.store.attributeValue a' op operand := by
  have hc : ∀ relation ∈ attributeValueColumn.relation?, asked relation := fun relation hr ↦
    Option.mem_some_iff.1 hr ▸ ha
  rw [Store.attributeValue, Store.attributeValue, h.comparison_eq attributeValueColumn hc, hid]
  exact congrArg _ (funext fun value ↦ h.has_eq ha _)

end Schema.AgreesOn

section

variable {known known' : Text → Option Attribute} {s s' : Schema}

theorem Condition.result_compile_eq {c : Condition}
    (h : s.AgreesOn s' fun relation ↦ c.relation? known = some relation)
    (ids : ∀ name ∈ c.lookUp?, (known name).map Attribute.id = (known' name).map Attribute.id) :
    (c.compile (fun name ↦ .ok (known name)) s.store).result =
      (c.compile (fun name ↦ .ok (known' name)) s'.store).result := by
  cases c with
  | onField name op operand =>
    exact congrArg (Except.map some) (h.comparison_eq (.field name) nofun op operand)
  | onRelation name test values =>
    exact congrArg (Except.map some) (h.relation_eq rfl test values)
  | onAttribute name op operand =>
    have hid := ids name rfl
    simp only [compile, Traced.result_bind, Traced.lookUp]
    cases hk : known name with
    | none =>
      rw [hk, Option.map_none, eq_comm, Option.map_eq_none_iff] at hid
      rw [hid]
      rfl
    | some a =>
      rw [hk, Option.map_some, eq_comm, Option.map_eq_some_iff] at hid
      obtain ⟨a', ha', hid⟩ := hid
      have ha : relation? known (onAttribute name op operand) = some attributeValues := by
        rw [relation?, hk, Option.map_some]
      rw [ha']
      exact congrArg (Except.map some) (h.attributeValue_eq ha hid.symm op operand)

variable {π : Type} {resolve resolve' : Resolver} {store store' : Store π}

theorem Filter.asks_iff {n : Filter} {relation : Text} :
    n.Asks known relation ↔ ∃ c ∈ n.leaves, c.relation? known = some relation := by
  constructor
  · intro h
    induction h with
    | @leaf c relation h => exact ⟨c, List.mem_singleton_self c, h⟩
    | join hp _ ih =>
      obtain ⟨c, hc, h⟩ := ih
      exact ⟨c, mem_leaves_join_iff.2 ⟨_, hp, hc⟩, h⟩
  · intro h
    obtain ⟨c, hc, h⟩ := h
    induction n with
    | leaf c' => exact .leaf (List.mem_singleton.1 hc ▸ h)
    | join op parts ih =>
      obtain ⟨part, hp, hc⟩ := mem_leaves_join_iff.1 hc
      exact .join hp (ih part hp hc)

theorem Filter.result_compile_eq {n : Filter} (group : store.group = store'.group)
    (h : ∀ c ∈ n.leaves, (c.compile resolve store).result = (c.compile resolve' store').result) :
    (n.compile resolve store).result = (n.compile resolve' store').result := by
  have hjoined : joined? store = joined? store' := by
    funext op ps
    cases ps with
    | nil => rfl
    | cons p ps => exact congrArg (fun f ↦ some (f op (p :: ps))) group
  induction n with
  | leaf c => exact h c (List.mem_singleton_self c)
  | join op parts ih =>
    rw [result_compile_join, result_compile_join, hjoined]
    refine congrArg (Except.map (joined? store' op)) ?_
    have parts_eq : ∀ part ∈ parts,
        (part.compile resolve store).result = (part.compile resolve' store').result :=
      fun part hp ↦ ih part hp fun c hc ↦ h c (mem_leaves_join_iff.2 ⟨part, hp, hc⟩)
    clear ih h
    induction parts with
    | nil => rfl
    | cons part parts ih =>
      obtain ⟨first, others⟩ := List.forall_mem_cons.1 parts_eq
      rw [result_compileAll_cons, result_compileAll_cons, first, ih others]

end

/-- Two settings give a filter the same query, or the same error, where they have the same dialect,
the last definitions of the attributes that the filter names have the same ids, and the schemas agree
on the primary table and on the relations that the filter asks for. Nothing else in the settings
counts: no type of an attribute, no earlier definition, no other attribute or relation, no order. -/
theorem Settings.compile_eq_of_agreesOn {a b : Settings} {n : Filter} (dialect : a.dialect = b.dialect)
    (ids : ∀ name ∈ n.leaves.filterMap Condition.lookUp?,
      (Catalog.definition? a.attributes name).map Attribute.id =
        (Catalog.definition? b.attributes name).map Attribute.id)
    (schemas : a.schema.AgreesOn b.schema (n.Asks (Catalog.definition? a.attributes))) :
    a.target.compile a.catalog.resolver (some n) = b.target.compile b.catalog.resolver (some n) := by
  have resolver (s : Settings) :
      s.catalog.resolver = fun name ↦ .ok (Catalog.definition? s.attributes name) :=
    funext fun name ↦ congrArg Except.ok (Catalog.get?_ofList s.attributes name)
  have query : a.target.query = b.target.query := by
    funext condition?
    simp only [Target.query, target, schemas.primaryTable_eq, dialect]
  have conditions : ∀ c ∈ n.leaves,
      (c.compile a.catalog.resolver a.schema.store).result =
        (c.compile b.catalog.resolver b.schema.store).result := by
    intro c hc
    rw [resolver, resolver]
    refine Condition.result_compile_eq (schemas.mono fun relation hr ↦ ?_) fun name hname ↦ ?_
    · exact Filter.asks_iff.2 ⟨c, hc, hr⟩
    · exact ids name (List.mem_filterMap.2 ⟨c, hc, hname⟩)
  rw [Target.compile_some, Target.compile_some, query]
  exact congrArg (Except.map b.target.query) (Filter.result_compile_eq rfl conditions)

theorem Settings.compile_eq_of_agreesOn_reordered :
    let level : Text := .ofString "level"
    let languages : Text := .ofString "languages"
    let mapping : Mapping := .direct ['t'] ['k'] ['n']
    let n : Filter := .join .and [.leaf (.onAttribute level .equal (.scalar ['x'])),
      .leaf (.onRelation languages .hasAny [['y']]), .leaf (.onAttribute ['u'] .equal (.scalar ['z']))]
    let schema (relations : List (Text × Mapping)) : Schema :=
      ⟨['j'], ['i'], ['r'], .ofList relations⟩
    let a : Settings := ⟨.mysql, schema [(languages, mapping), (attributeValues, mapping)],
      [⟨1, level, .text⟩, ⟨2, ['v'], .date⟩, ⟨3, level, .number⟩]⟩
    let b : Settings := ⟨.mysql, schema [(attributeValues, mapping), (locations, mapping),
      (languages, .direct ['t'] ['k'] ['m']), (languages, mapping)], [⟨3, level, .select⟩]⟩
    ∃ q, a.target.compile a.catalog.resolver (some n) = .ok q ∧
      b.target.compile b.catalog.resolver (some n) = .ok q := by
  intro level languages mapping n schema a b
  have mappings : ∀ c ∈ n.leaves, ∀ relation ∈ c.relation? (Catalog.definition? a.attributes),
      a.schema.relation? relation = b.schema.relation? relation := by decide
  have schemas : a.schema.AgreesOn b.schema (n.Asks (Catalog.definition? a.attributes)) := by
    refine ⟨rfl, rfl, rfl, fun relation asks ↦ ?_⟩
    obtain ⟨c, hc, hr⟩ := Filter.asks_iff.1 asks
    exact mappings c hc relation hr
  have h := compile_eq_of_agreesOn (a := a) (b := b) (n := n) rfl (by decide) schemas
  exact ⟨_, rfl, h.symm⟩

end ListingFilter
