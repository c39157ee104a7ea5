import SchemaPlan.Proofs.Plan.Descriptor
import SchemaPlan.Proofs.Projection.Agreement
import SchemaPlan.Proofs.Relations.Part

/-!
# Plans under changes of the schema

A plan for a closed part of a schema is also the plan for the whole: its models and relations are
looked up among those of the part alone (`Plan.prepare_of_isClosedPart`). So a further model to
which no relation leads changes no part of a plan (`Plan.prepare_insertAt`). The order of the models
matters neither for the fault of a run nor for its plan, except that the models that point at
another are listed with it in their order (`Plan.prepare_of_perm`).
-/

set_option autoImplicit false
set_option relaxedAutoImplicit false

namespace SchemaPlan

variable {part whole : Schema} {settings : Settings} {schemaPath name : String} {config : Config}

/-! ### The check against the schema -/

namespace Config

/-- The check against a schema asks for the names of the configured models alone. -/
theorem check_congr {names others : List String}
    (h : ∀ name ∈ config.models, name ∈ names ↔ name ∈ others) :
    config.check names = config.check others := by
  have hundeclared : config.undeclared names = config.undeclared others := by
    refine congrArg List.eraseDups (List.filter_congr fun name hname ↦ ?_)
    rw [Bool.not_inj_iff, Bool.eq_iff_iff, List.contains_iff_mem, List.contains_iff_mem]
    exact h name hname
  rw [check, check, hundeclared]

/-- Settings fit schemas of the same names alike. -/
theorem ofSettingsFor_congr {first second : Schema}
    (h : ∀ name, name ∈ first.names ↔ name ∈ second.names) :
    ofSettingsFor first settings schemaPath = ofSettingsFor second settings schemaPath := by
  rw [ofSettingsFor, ofSettingsFor]
  refine bind_congr fun config ↦ ?_
  rw [check_congr fun name _ ↦ h name]

/-- Settings that fit a schema fit one with more names. -/
theorem ofSettingsFor_of_subset (h : part.names ⊆ whole.names)
    (hconfig : ofSettingsFor part settings schemaPath = .ok config) :
    ofSettingsFor whole settings schemaPath = .ok config := by
  obtain ⟨hsettings, hdeclared⟩ := ofSettingsFor_eq_ok hconfig
  rw [← hconfig, ofSettingsFor, ofSettingsFor, hsettings]
  have hcheck : config.check whole.names = config.check part.names :=
    check_congr fun name hname ↦ ⟨fun _ ↦ hdeclared name hname, fun hpart ↦ h hpart⟩
  change (config.check whole.names >>= fun _ ↦ _) = (config.check part.names >>= fun _ ↦ _)
  rw [hcheck]

end Config

/-! ### The part for one model -/

namespace Schema.IsClosedPart

/-- The models of a closed part are analysed alike in the whole. -/
theorem get?_analyses_eq (h : part.IsClosedPart whole) (hname : name ∈ part.names) :
    whole.analyses.get? name = part.analyses.get? name := by
  rw [get?_analyses_of_nodup h.nodup_whole, get?_analyses_of_nodup h.nodup_part, h.model?_eq hname]

/-- The synthesis for a closed part extends to that for the whole. -/
theorem extendsTo_synthesis (h : part.IsClosedPart whole) (config : Config) :
    (config.synthesis part).ExtendsTo (config.synthesis whole) where
  schema := h
  source_eq := rfl
  isRelated_eq _ hfirst _ hsecond := h.isRelated_graph_eq hfirst hsecond

/-- The models of a closed part are planned alike in the whole. -/
theorem planModel?_eq (h : part.IsClosedPart whole) (config : Config) (hname : name ∈ part.names) :
    config.planModel? whole name = config.planModel? part name := by
  have hprojection (selected : List String) :
      (config.synthesis whole).projectRoot name selected =
        (config.synthesis part).projectRoot name selected :=
    (h.extendsTo_synthesis config).project_eq hname selected
  simp only [Config.planModel?, h.model?_eq hname, h.get?_analyses_eq hname, hprojection]

end Schema.IsClosedPart

/-! ### Whole plans -/

namespace Plan

/-- The plan for a closed part has the same parts as that for the whole, when its models alone are
configured. -/
theorem models_ofConfig_eq (h : part.IsClosedPart whole)
    (hdeclared : ∀ name ∈ config.models, name ∈ part.names) :
    (ofConfig whole config).models = (ofConfig part config).models :=
  List.filterMap_congr fun name hname ↦ h.planModel?_eq config (hdeclared name hname)

/-- Where a run on a closed part succeeds, the run on the whole does, with the same configuration,
the same parts and the same owned edges. -/
theorem prepare_of_isClosedPart (h : part.IsClosedPart whole) {plan : Plan}
    (hplan : prepare part settings schemaPath = .ok plan) :
    ∃ other, prepare whole settings schemaPath = .ok other ∧ other.config = plan.config ∧
      other.models = plan.models ∧
      ∀ name ∈ part.names, other.graph.owns name = plan.graph.owns name := by
  obtain ⟨config, hconfig, rfl⟩ := prepare_eq_ok hplan
  obtain ⟨-, hdeclared⟩ := Config.ofSettingsFor_eq_ok hconfig
  refine ⟨ofConfig whole config, ?_, rfl, models_ofConfig_eq h hdeclared, ?_⟩
  · rw [prepare, Config.ofSettingsFor_of_subset h.names_subset hconfig]
    rfl
  · intro name hname
    exact h.owns_graph_eq hname

/-! ### A further model -/

/-- A further model to which no relation leads leaves a plan as it is, wherever it is declared and
whatever its own relations are. -/
theorem prepare_insertAt {before after : List Model} {newcomer : Model}
    (hnodup : (Schema.mk (before ++ after)).names.Nodup)
    (hnew : newcomer.name ∉ (Schema.mk (before ++ after)).names)
    (hfree : ∀ model ∈ before ++ after, ∀ field ∈ model.fields,
      field.target? ≠ some newcomer.name)
    {plan : Plan} (hplan : prepare ⟨before ++ after⟩ settings schemaPath = .ok plan) :
    ∃ other, prepare (.insertAt before after newcomer) settings schemaPath = .ok other ∧
      other.models = plan.models ∧
      ∀ name ∈ (Schema.mk (before ++ after)).names,
        other.graph.owns name = plan.graph.owns name := by
  have hpart := Schema.isClosedPart_insert hnodup hnew hfree
  obtain ⟨other, hother, -, hmodels, howns⟩ := prepare_of_isClosedPart hpart hplan
  exact ⟨other, hother, hmodels, howns⟩

/-- Orders of customers. -/
def order : Model where
  name := "Order"
  fields := [
    { name := "id", type := .int, isId := true },
    .relation "customer" "Customer" "CustomerToOrder" ["customerId"]]

/-- Invoices to customers. -/
def invoice : Model where
  name := "Invoice"
  fields := [
    { name := "total", type := .float },
    .relation "customer" "Customer" "CustomerToInvoice" ["customerId"]]

/-- Customers, who know the orders that they have made. -/
def customer : Model where
  name := "Customer"
  fields := [
    { name := "name", type := .string },
    { Field.relation "orders" "Order" "CustomerToOrder" [] with isList := true }]

/-- Reviews that customers write of articles, which are not declared. -/
def review : Model where
  name := "Review"
  fields := [
    .relation "author" "Customer" "CustomerToReview" ["authorId"],
    .relation "article" "Article" "ArticleToReview" ["articleId"]]

/-- Orders and invoices. -/
def shop : Schema := ⟨[order, invoice, customer]⟩

/-- The same with the invoices in front. -/
def shopReordered : Schema := ⟨[invoice, order, customer]⟩

/-- Settings for orders and invoices. -/
def shopSettings : Settings := .ofList [
  ("output", .text "generated"),
  ("models", .text "Order, Invoice"),
  ("orderSelect", .list ["id", "customer"])]

/-- The configuration that the settings for orders and invoices describe. -/
def shopConfig : Config where
  output := "generated"
  importPath := defaultImport
  models := ["Order", "Invoice"]
  overrides := .ofList [
    ("Order", { select := some (.fields ["id", "customer"]) }),
    ("Invoice", {})]

/-- The settings for the shop make a plan. -/
theorem prepare_shop :
    prepare shop shopSettings "schema.prisma" = .ok (ofConfig shop shopConfig) := by
  have hconfig : Config.ofSettingsFor shop shopSettings "schema.prisma" = .ok shopConfig := rfl
  rw [prepare, hconfig]
  rfl

/-- Reviews come to stand between orders and invoices. They point to customers, and nothing points
to them. -/
theorem prepare_insertAt_review : shop.names.Nodup ∧ review.name ∉ shop.names ∧
    (∀ model ∈ shop.models, ∀ field ∈ model.fields, field.target? ≠ some review.name) ∧
    ∃ plan other, prepare shop shopSettings "schema.prisma" = .ok plan ∧
      prepare ⟨[order, review, invoice, customer]⟩ shopSettings "schema.prisma" = .ok other ∧
      other.models = plan.models ∧
      ∀ name ∈ shop.names, other.graph.owns name = plan.graph.owns name := by
  have hnodup : shop.names.Nodup := by decide
  have hnew : review.name ∉ shop.names := by decide
  have hfree : ∀ model ∈ shop.models, ∀ field ∈ model.fields,
      field.target? ≠ some review.name := by decide
  obtain ⟨other, hother⟩ :=
    @prepare_insertAt _ _ [order] [invoice, customer] review hnodup hnew hfree _ prepare_shop
  exact ⟨hnodup, hnew, hfree, _, other, prepare_shop, hother⟩

/-! ### Another order -/

/-- The two plans differ at most in the order in which the models that point at another are listed
with it. -/
structure SameUpToOrder (plan other : Plan) : Prop where
  config : plan.config = other.config
  analyses : plan.analyses = other.analyses
  models : plan.models = other.models
  owns : ∀ name, plan.graph.owns name = other.graph.owns name
  related : ∀ name, plan.graph.related? name = other.graph.related? name
  referencedBy : ∀ name, (plan.graph.referencedBy name).Perm (other.graph.referencedBy name)

/-- The order of the models does not matter to their analyses. -/
theorem analyses_eq_of_perm {first second : Schema} (hnodup : first.names.Nodup)
    (hperm : first.models.Perm second.models) : first.analyses = second.analyses := by
  have hpart := Schema.isClosedPart_of_perm hnodup hperm
  refine NameMap.ext_get? fun name ↦ ?_
  rw [Schema.get?_analyses_of_nodup hpart.nodup_part,
    Schema.get?_analyses_of_nodup hpart.nodup_whole, Schema.model?_eq_of_perm hnodup hperm]

/-- The order of the models does not matter to a plan, but for the order in which edges point to a
model. -/
theorem sameUpToOrder_ofConfig {first second : Schema} (hnodup : first.names.Nodup)
    (hperm : first.models.Perm second.models)
    (hdeclared : ∀ name ∈ config.models, name ∈ first.names) :
    (ofConfig first config).SameUpToOrder (ofConfig second config) where
  config := rfl
  analyses := analyses_eq_of_perm hnodup hperm
  models := (models_ofConfig_eq (Schema.isClosedPart_of_perm hnodup hperm) hdeclared).symm
  owns := Schema.owns_graph_eq_of_perm hnodup hperm
  related := Schema.related?_graph_eq_of_perm hnodup hperm
  referencedBy := Schema.referencedBy_graph_perm hnodup hperm

/-- Where names are distinct, the order of the models matters neither for the success of a run, nor
for its fault, nor for its plan. -/
theorem prepare_of_perm {first second : Schema} (hnodup : first.names.Nodup)
    (hperm : first.models.Perm second.models) (settings : Settings) (schemaPath : String) :
    (∃ fault, prepare first settings schemaPath = .error fault ∧
        prepare second settings schemaPath = .error fault) ∨
      ∃ plan other, prepare first settings schemaPath = .ok plan ∧
        prepare second settings schemaPath = .ok other ∧ plan.SameUpToOrder other := by
  have hsame : Config.ofSettingsFor second settings schemaPath =
      Config.ofSettingsFor first settings schemaPath :=
    Config.ofSettingsFor_congr fun name ↦ (Schema.names_perm hperm).mem_iff.symm
  rw [prepare, prepare, hsame]
  cases hconfig : Config.ofSettingsFor first settings schemaPath with
  | error fault => exact .inl ⟨fault, rfl, rfl⟩
  | ok config =>
    obtain ⟨-, hdeclared⟩ := Config.ofSettingsFor_eq_ok hconfig
    exact .inr ⟨_, _, rfl, rfl, sameUpToOrder_ofConfig hnodup hperm hdeclared⟩

/-- The models of the shop in another order. -/
theorem prepare_of_perm_shop :
    shop.names.Nodup ∧ shop.models.Perm shopReordered.models ∧
      ∃ plan other, prepare shop shopSettings "schema.prisma" = .ok plan ∧
        prepare shopReordered shopSettings "schema.prisma" = .ok other ∧
        plan.SameUpToOrder other := by
  have hnodup : shop.names.Nodup := by decide
  have hperm : shop.models.Perm shopReordered.models := .swap invoice order [customer]
  obtain ⟨fault, hfault, -⟩ | hplans :=
    prepare_of_perm hnodup hperm shopSettings "schema.prisma"
  · rw [prepare_shop] at hfault
    cases hfault
  · exact ⟨hnodup, hperm, hplans⟩

/-- The customers are listed with their invoices in front of their orders. -/
example : shop.graph.referencedBy "Customer" =
    (shopReordered.graph.referencedBy "Customer").reverse := by decide

end Plan

end SchemaPlan
