import SchemaPlan.Proofs.Relations.Pairing

/-!
# A relation is counted once

A relation between an owning field and a field that does not own it has two edges in the graph, the
owned edge and its converse, and both name the other end. The graph gives it these two and no more
exactly when the two fields have different names (`countsOnce_iff`): where both ends have one name,
neither is taken for the other end of the other, and the relation is counted from both ends
(`not_countsOnce_trade`).
-/

set_option autoImplicit false
set_option relaxedAutoImplicit false

namespace SchemaPlan

/-- The graph has one owning edge and one other edge for the relation between a field of `model` and
a field of `related`. Both stand for the field of `model`, are listed with the models at its two
ends and name the field of `related`. -/
structure Graph.CountsOnce (graph : Graph) (model field related other : String) : Prop where
  owned : ∃ edge ∈ graph.owns model,
    edge.standsFor model field ∧ edge.backReference = some other ∧
      graph.edges.filter (fun edge ↦ edge.isOwning &&
        (edge.standsFor model field || edge.standsFor related other)) = [edge]
  converse : ∃ edge ∈ graph.referencedBy related,
    edge.standsFor model field ∧ edge.backReference = some other ∧
      graph.edges.filter (fun edge ↦ !edge.isOwning &&
        (edge.standsFor model field || edge.standsFor related other)) = [edge]
  noReturn : ∀ edge ∈ graph.edges, ¬edge.standsFor related other

namespace Schema

variable {schema : Schema} {model related : Model} {field other : Field} {relation name : String}

/-- The relation name is that of two fields and no others: `field` of `model`, which owns the
relation and points to `related`, and `other` of `related`, which does not and points back. -/
structure Joins (schema : Schema) (relation : String) (model : Model) (field : Field)
    (related : Model) (other : Field) : Prop where
  model_mem : model ∈ schema.models
  field_mem : field ∈ model.fields
  related_mem : related ∈ schema.models
  other_mem : other ∈ related.fields
  field_owns : field.isOwning
  other_not_owns : other.isOwning = false
  field_target : field.target? = some related.name
  other_target : other.target? = some model.name
  carriers : ∀ carrier ∈ schema.models, ∀ part ∈ carrier.fields,
    part.relationName = some relation ↔
      carrier.name = model.name ∧ part.name = field.name ∨
        carrier.name = related.name ∧ part.name = other.name

/-! ### The edges of one field on a side -/

/-- The edges on the owning side are those that own their relation. -/
theorem isOwning_of_edgeAt? {side : Side} {edge : Edge}
    (h : schema.edgeAt? name side model field = some edge) : edge.isOwning = (side == .owns) := by
  cases side with
  | owns => exact (edgeAt?_owns_eq_some_iff.1 h).2.2.2.1
  | referencedBy => exact (edgeAt?_referencedBy_eq_some_iff.1 h).2.2.2.2.1

/-- Where a field places its edge on a side: with its own model, or with the one it points to. -/
theorem some_eq_of_edgeAt? {side : Side} {edge : Edge}
    (h : schema.edgeAt? name side model field = some edge) :
    some name = if side = .owns then some model.name else field.target? := by
  cases side with
  | owns => rw [if_pos rfl, (edgeAt?_owns_eq_some_iff.1 h).2.1]
  | referencedBy =>
    obtain ⟨hdescribes, rfl, -⟩ := edgeAt?_referencedBy_eq_some_iff.1 h
    rw [if_neg (by decide), hdescribes.target_eq]

/-- On either side, the graph has the edge that a field places there for the field, and no other. -/
theorem filter_edges_side (h : schema.HasDistinctNames) (hmodel : model ∈ schema.models)
    (hfield : field ∈ model.fields) (side : Side) (hname : name ∈ schema.names)
    (hplace : some name = if side = .owns then some model.name else field.target?) :
    schema.graph.edges.filter (fun edge ↦ edge.isOwning == (side == .owns) &&
      edge.standsFor model.name field.name) = (schema.edgeAt? name side model field).toList := by
  have hside (place : String) (other : Side) :
      (schema.edgeAt? place other model field).toList.filter (·.isOwning == (side == .owns)) =
        if other = side then (schema.edgeAt? place side model field).toList else [] := by
    by_cases heq : other = side
    · subst heq
      rw [if_pos rfl, List.filter_eq_self]
      intro edge hedge
      rw [isOwning_of_edgeAt? (Option.mem_toList.1 hedge)]
      exact beq_self_eq_true _
    · rw [if_neg heq, List.filter_eq_nil_iff]
      intro edge hedge
      rw [isOwning_of_edgeAt? (Option.mem_toList.1 hedge)]
      cases side <;> cases other <;> simp_all
  have hplaces : schema.graph.edges.filter (fun edge ↦ edge.isOwning == (side == .owns) &&
      edge.standsFor model.name field.name) = schema.graph.names.flatMap fun place ↦
        (schema.edgeAt? place side model field).toList := by
    rw [← List.filter_filter]
    simp only [edges_graph, List.filter_flatMap, List.filter_append,
      filter_edgesAt h hmodel hfield, hside]
    cases side <;> simp
  rw [hplaces]
  refine flatMap_eq_of_nodup id ?_ (mem_names_graph.2 hname) fun place _ hne ↦ ?_
  · rw [List.map_id]
    exact NameMap.keys_nodup schema.graph.models
  · rw [Option.toList_eq_nil_iff, Option.eq_none_iff_forall_ne_some]
    intro edge hplaced
    exact hne (Option.some.inj ((some_eq_of_edgeAt? hplaced).trans hplace.symm))

/-! ### The two ends of a relation -/

namespace Joins

variable (hnames : schema.HasDistinctNames)
  (hjoins : schema.Joins relation model field related other)

include hjoins

theorem relationName_field : field.relationName = some relation :=
  (hjoins.carriers model hjoins.model_mem field hjoins.field_mem).2 (.inl ⟨rfl, rfl⟩)

theorem relationName_other : other.relationName = some relation :=
  (hjoins.carriers related hjoins.related_mem other hjoins.other_mem).2 (.inr ⟨rfl, rfl⟩)

include hnames

/-- The graph takes the other end of the owning field for what it is, when the names differ. -/
theorem pairOf?_field (hne : field.name ≠ other.name) : schema.pairOf? field = some other := by
  have hrelation : other.isRelation := Option.isSome_of_eq_some hjoins.other_target
  refine pairOf?_eq_some_of_unique hnames hjoins.related_mem hjoins.other_mem hrelation
    hjoins.field_target hne.symm hjoins.relationName_field hjoins.relationName_other ?_
  intro part hpart hcarries
  rcases (hjoins.carriers related hjoins.related_mem part hpart).1 hcarries with h | h
  · exact .inl h.2
  · exact .inr h.2

/-- The graph takes the owning field for the other end of the field that points back, when the names
differ. -/
theorem pairOf?_other (hne : field.name ≠ other.name) : schema.pairOf? other = some field := by
  have hrelation : field.isRelation := Option.isSome_of_eq_some hjoins.field_target
  refine pairOf?_eq_some_of_unique hnames hjoins.model_mem hjoins.field_mem hrelation
    hjoins.other_target hne hjoins.relationName_other hjoins.relationName_field ?_
  intro part hpart hcarries
  rcases (hjoins.carriers model hjoins.model_mem part hpart).1 hcarries with h | h
  · exact .inr h.2
  · exact .inl h.2

/-- No edge stands for the field that points back. -/
theorem not_standsFor_other (hne : field.name ≠ other.name) {edge : Edge}
    (hedge : edge ∈ schema.graph.edges) : ¬edge.standsFor related.name other.name := by
  intro hstands
  have hdeclared : model.name ∈ schema.names := List.mem_map_of_mem hjoins.model_mem
  have hmem : edge ∈ schema.graph.edges.filter (·.standsFor related.name other.name) :=
    List.mem_filter.2 ⟨hedge, hstands⟩
  rw [filter_edges_graph hnames hjoins.related_mem hjoins.other_mem hjoins.other_not_owns hdeclared
    hjoins.other_target, Option.mem_toList] at hmem
  -- The field at the other end owns the relation, so the graph leaves it to that one.
  rcases lists_of_edgeAt? hmem with howns | hkept
  · simp [hjoins.other_not_owns] at howns
  · simp [hjoins.pairOf?_other hnames hne, hjoins.field_owns] at hkept

/-- On either side, the edge of the owning field is the only one for the relation, and tells of the
other end. -/
theorem filter_edges_of_edgeAt? (hne : field.name ≠ other.name) {side : Side} {edge : Edge}
    (hname : name ∈ schema.names) (hplaced : schema.edgeAt? name side model field = some edge) :
    edge.standsFor model.name field.name ∧ edge.backReference = some other.name ∧
      schema.graph.edges.filter (fun edge ↦ edge.isOwning == (side == .owns) &&
        (edge.standsFor model.name field.name || edge.standsFor related.name other.name)) =
          [edge] := by
  have hdescribes := describes_of_edgeAt? hplaced
  refine ⟨hdescribes.standsFor, ?_, ?_⟩
  · rw [hdescribes.backReference_eq_pairOf?, hjoins.pairOf?_field hnames hne, Option.map_some]
  · have hone := filter_edges_side hnames hjoins.model_mem hjoins.field_mem side hname
      (some_eq_of_edgeAt? hplaced)
    rw [hplaced] at hone
    rw [← Option.toList_some, ← hone]
    refine List.filter_congr fun edge hedge ↦ ?_
    simp [hjoins.not_standsFor_other hnames hne hedge]

end Joins

/-- No edge names its own field as the other end, so the ends of a relation that is counted once
have different names. -/
theorem ne_of_countsOnce {source target first second : String}
    (h : schema.graph.CountsOnce source first target second) : first ≠ second := by
  obtain ⟨edge, hedge, hstands, hback, -⟩ := h.owned
  have hfield : edge.field = first := by
    rw [Edge.standsFor, Bool.and_eq_true, beq_iff_eq, beq_iff_eq] at hstands
    exact hstands.2
  have hmem : edge ∈ schema.graph.edges := by
    rw [owns_graph] at hedge
    exact mem_edges_graph.2 ⟨source, .owns, hedge⟩
  rw [← hfield]
  exact (ne_field_of_backReference hmem hback).symm

/-- A relation whose two fields have different names is counted once. -/
theorem Joins.countsOnce (hnames : schema.HasDistinctNames)
    (hjoins : schema.Joins relation model field related other) (hne : field.name ≠ other.name) :
    schema.graph.CountsOnce model.name field.name related.name other.name := by
  have hmodel : model.name ∈ schema.names := List.mem_map_of_mem hjoins.model_mem
  have hrelated : related.name ∈ schema.names := List.mem_map_of_mem hjoins.related_mem
  obtain ⟨owned, howned⟩ := exists_edgeAt?_owns schema model hjoins.field_owns
  obtain ⟨converse, hconverse⟩ :=
    exists_edgeAt?_referencedBy model hrelated hjoins.field_target (.inl hjoins.field_owns)
  constructor
  case owned =>
    refine ⟨owned, ?_, ?_⟩
    · rw [owns_graph]
      exact mem_edgesAt.2 ⟨model, hjoins.model_mem, field, hjoins.field_mem, howned⟩
    · simpa using hjoins.filter_edges_of_edgeAt? hnames hne hmodel howned
  case converse =>
    refine ⟨converse, ?_, ?_⟩
    · rw [referencedBy_graph]
      exact mem_edgesAt.2 ⟨model, hjoins.model_mem, field, hjoins.field_mem, hconverse⟩
    · have hside : (Side.referencedBy == Side.owns) = false := rfl
      simpa [hside] using hjoins.filter_edges_of_edgeAt? hnames hne hrelated hconverse
  case noReturn =>
    intro edge hedge
    exact hjoins.not_standsFor_other hnames hne hedge

/-- A relation name that joins two fields is counted once exactly when their names differ. -/
theorem countsOnce_iff (hnames : schema.HasDistinctNames)
    (hjoins : schema.Joins relation model field related other) :
    schema.graph.CountsOnce model.name field.name related.name other.name ↔
      field.name ≠ other.name := by
  constructor
  · exact ne_of_countsOnce
  · exact hjoins.countsOnce hnames

/-! ### Orders and invoices -/

/-- The field of an order that points to its invoice. -/
def toInvoice (name : String) : Field := .relation name "Invoice" "InvoiceToOrder" ["invoiceId"]

/-- The field of an invoice that points back to its order. -/
def toOrder (name : String) : Field := .relation name "Order" "InvoiceToOrder" []

/-- Orders, with the name under which they know their invoice. -/
def order (name : String) : Model :=
  { name := "Order", fields := [{ name := "invoiceId", type := .int }, toInvoice name] }

/-- Invoices, with the name under which they know their order. -/
def invoice (name : String) : Model := { name := "Invoice", fields := [toOrder name] }

/-- Orders and their invoices. -/
def trade (forward back : String) : Schema := ⟨[order forward, invoice back]⟩

/-- The relation between orders and invoices is that of their two fields, whatever these are
called. -/
theorem joins_trade {forward : String} (hforward : "invoiceId" ≠ forward) (back : String) :
    (trade forward back).Joins "InvoiceToOrder" (order forward) (toInvoice forward) (invoice back)
      (toOrder back) where
  model_mem := by simp [trade]
  field_mem := by simp [order]
  related_mem := by simp [trade]
  other_mem := by simp [invoice]
  field_owns := rfl
  other_not_owns := rfl
  field_target := rfl
  other_target := rfl
  carriers := by
    simpa [trade, order, invoice, toInvoice, toOrder, Field.relation] using hforward

/-- Orders and invoices whose fields have different names. -/
theorem countsOnce_trade : (trade "invoice" "order").HasDistinctNames ∧
    (trade "invoice" "order").Joins "InvoiceToOrder" (order "invoice") (toInvoice "invoice")
      (invoice "order") (toOrder "order") ∧
    (trade "invoice" "order").graph.CountsOnce "Order" "invoice" "Invoice" "order" := by
  have hnames : (trade "invoice" "order").HasDistinctNames := ⟨by decide, by decide⟩
  have hjoins := joins_trade (by decide : "invoiceId" ≠ "invoice") "order"
  exact ⟨hnames, hjoins, (countsOnce_iff hnames hjoins).2 (by decide)⟩

/-- Where an order and its invoice know each other under one name, their relation is counted from
both ends. -/
theorem not_countsOnce_trade : (trade "counterpart" "counterpart").HasDistinctNames ∧
    (trade "counterpart" "counterpart").Joins "InvoiceToOrder" (order "counterpart")
      (toInvoice "counterpart") (invoice "counterpart") (toOrder "counterpart") ∧
    ¬(trade "counterpart" "counterpart").graph.CountsOnce "Order" "counterpart" "Invoice"
      "counterpart" := by
  refine ⟨⟨by decide, by decide⟩, joins_trade (by decide) "counterpart", fun hcounts ↦ ?_⟩
  have hedge : (⟨"Invoice", "counterpart", "Order", .oneToOne, false, none⟩ : Edge) ∈
      (trade "counterpart" "counterpart").graph.edges := by decide
  exact hcounts.noReturn _ hedge (by decide)

end Schema

end SchemaPlan
