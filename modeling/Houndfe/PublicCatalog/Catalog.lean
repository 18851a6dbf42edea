import Houndfe.Base.KeyedTable
import Houndfe.CatalogEditorial.PublishedReads

/-! The stored catalog that the public reads: how stock is shown, products with their variants,
prices, allowed lists and publications, the price context of a request, and the facets that
attributes give. -/

namespace Houndfe.PublicCatalog

inductive PublicStockStatus where
  | available
  | lowStock
  | outOfStock
  deriving DecidableEq, Repr

def mapStockStatus (quantity minQuantity : Int) : PublicStockStatus :=
  if quantity ≤ 0 then .outOfStock
  else if quantity ≤ minQuantity then .lowStock
  else .available

/-- `CatalogStockPresentationValue`. -/
inductive StockPresentation where
  | systemStatus
  | abstractStatus
  | customQuantity
  | hidden
  deriving DecidableEq, Repr

/-- The stored presentation of a product or of a variant. -/
structure StockPresentationSource where
  onlineStockPresentation : Option StockPresentation
  onlineStockPresentationCustomQty : Option Int
  deriving DecidableEq, Repr

structure StockPresentationDefaults where
  catalogStockPresentationDefault : Option StockPresentation
  catalogStockPresentationDefaultCustomQty : Option Int
  deriving DecidableEq, Repr

structure EffectiveStockPresentationConfig where
  mode : StockPresentation
  customQuantity : Option Int
  deriving DecidableEq, Repr

def resolveProductStockPresentation (product : StockPresentationSource)
    (tenant : StockPresentationDefaults) : EffectiveStockPresentationConfig where
  mode := (product.onlineStockPresentation <|> tenant.catalogStockPresentationDefault).getD
    .systemStatus
  customQuantity := product.onlineStockPresentationCustomQty <|>
    tenant.catalogStockPresentationDefaultCustomQty

def resolveVariantStockPresentation (variant : StockPresentationSource)
    (productConfig : EffectiveStockPresentationConfig) : EffectiveStockPresentationConfig :=
  match variant.onlineStockPresentation with
  | none => productConfig
  | some mode => ⟨mode, variant.onlineStockPresentationCustomQty⟩

/-- The stock that is shown, `PublicStockPresentationDto`. -/
structure RenderedStockPresentation where
  mode : StockPresentation
  status : Option PublicStockStatus
  customQuantity : Option Int
  deriving DecidableEq, Repr

structure VariantOperationalStock where
  quantity : Int
  minQuantity : Int
  deriving DecidableEq, Repr

def renderStockPresentation (config : EffectiveStockPresentationConfig) (useStock : Bool)
    (stock : VariantOperationalStock) : RenderedStockPresentation :=
  match config.mode with
  | .hidden => ⟨.hidden, none, none⟩
  | .customQuantity =>
      ⟨.customQuantity, if useStock ∧ stock.quantity ≤ 0 then some .outOfStock else none,
        config.customQuantity⟩
  | .abstractStatus =>
      ⟨.abstractStatus,
        some (if useStock ∧ stock.quantity ≤ 0 then .outOfStock else .available), none⟩
  | .systemStatus =>
      ⟨.systemStatus,
        some (if useStock then mapStockStatus stock.quantity stock.minQuantity else .available),
        none⟩

def renderAggregateVariantStockPresentation (config : EffectiveStockPresentationConfig)
    (productUseStock : Bool) (variants : List VariantOperationalStock) :
    RenderedStockPresentation :=
  if config.mode = .hidden then ⟨.hidden, none, none⟩
  else if !productUseStock then ⟨config.mode, some .available, none⟩
  else
    let statuses := variants.map fun variant => mapStockStatus variant.quantity variant.minQuantity
    let anyAvailable : Bool := .available ∈ statuses
    let anyLow : Bool := .lowStock ∈ statuses
    let status :=
      if config.mode = .abstractStatus then
        if anyAvailable || anyLow then .available else .outOfStock
      else if anyAvailable then .available
      else if anyLow then .lowStock
      else .outOfStock
    ⟨config.mode, some status, none⟩

/-- The stock of a simple product, `mapPublicProductStockPresentation`. -/
def mapPublicProductStockPresentation (product : StockPresentationSource) (useStock : Bool)
    (stock : VariantOperationalStock) (tenant : StockPresentationDefaults) :
    RenderedStockPresentation :=
  renderStockPresentation (resolveProductStockPresentation product tenant) useStock stock

def mapPublicVariantStockPresentation (product : StockPresentationSource) (useStock : Bool)
    (variant : StockPresentationSource) (stock : VariantOperationalStock)
    (tenant : StockPresentationDefaults) : RenderedStockPresentation :=
  renderStockPresentation
    (resolveVariantStockPresentation variant (resolveProductStockPresentation product tenant))
    useStock stock

/-- The stock over the variants; without one, `none` for `invalid-participants`. -/
def mapPublicAggregateVariantStockPresentation (product : StockPresentationSource)
    (useStock : Bool) (tenant : StockPresentationDefaults)
    (variantParticipants : List VariantOperationalStock) : Option RenderedStockPresentation :=
  if variantParticipants = [] then none
  else some (renderAggregateVariantStockPresentation
    (resolveProductStockPresentation product tenant) useStock variantParticipants)

end Houndfe.PublicCatalog

namespace Houndfe.PublicCatalog

open CatalogEditorial

/-! ### Rows -/

inductive ProductType where
  | product
  | service
  deriving DecidableEq, Repr

inductive CatalogPublishMode where
  | inherit
  | on
  | off
  deriving DecidableEq, Repr

structure Category where
  id : String
  name : String
  deriving DecidableEq, Repr

structure ImageRow where
  id : String
  url : String
  isMain : Bool
  sortOrder : Int
  deriving DecidableEq, Repr

/-- A price of a product in a global price list. -/
structure PriceListRow where
  tenantId : String
  globalPriceListId : String
  priceCents : Int
  deriving DecidableEq, Repr

/-- A price of a variant, with the tenant and the global list of the price list it refers to. -/
structure VariantPriceRow where
  tenantId : String
  listTenantId : String
  globalPriceListId : String
  priceCents : Int
  deriving DecidableEq, Repr

/-- A list in which a product may be shown. -/
structure CatalogPriceListRow where
  tenantId : String
  globalPriceListId : String
  deriving DecidableEq, Repr

structure VariantRow where
  id : String
  tenantId : String
  name : String
  option : Option String
  value : Option String
  quantity : Int
  minQuantity : Int
  catalogPublishMode : CatalogPublishMode
  presentation : StockPresentationSource
  images : List ImageRow
  variantPrices : List VariantPriceRow
  deriving DecidableEq, Repr

/-- A product. Its `images` are those of no variant. -/
structure ProductRow where
  id : String
  tenantId : String
  name : String
  description : Option String
  type : ProductType
  includeInOnlineCatalog : Bool
  hasVariants : Bool
  useStock : Bool
  quantity : Int
  minQuantity : Int
  hidePriceInOnlineCatalog : Bool
  requiresPrescription : Bool
  presentation : StockPresentationSource
  category : Option Category
  brand : Option String
  images : List ImageRow
  catalogPriceLists : List CatalogPriceListRow
  priceLists : List PriceListRow
  variants : Keyed.Rows VariantRow.id
  createdAt : Int
  published : Option Publication

/-- The variants that the current publication recorded. -/
def ProductRow.recordedSubjects (product : ProductRow) : List (Option String) :=
  (product.published.bind (·.publishedSubjects)).getD []

/-- `isEffectivelyPriceHidden`. -/
def ProductRow.isEffectivelyPriceHidden (product : ProductRow) : Bool :=
  product.hidePriceInOnlineCatalog || product.requiresPrescription

/-- The stored state. Publishing records subjects of the product itself. -/
structure Catalog where
  products : Keyed.Rows ProductRow.id
  categories : List Category
  bindings : List EditorialBinding
  ownSubjects : ∀ product ∈ products.rows, ∀ other ∈ products.rows, product.id ≠ other.id →
    ∀ variant ∈ other.variants.rows, some variant.id ∉ product.recordedSubjects

/-! ### Requests -/

/-- The price context that a request resolved to. -/
structure ResolvedPublicCatalogContext where
  tenantId : String
  tenantSlug : String
  globalPriceListId : String
  name : String
  isCatalogDefault : Bool
  stockPresentationDefaults : StockPresentationDefaults
  requiresPublishedEditorial : Bool
  deriving DecidableEq, Repr

/-- The guarded tenant of a request. -/
structure PublicTenant where
  id : String
  slug : String
  name : String
  deriving DecidableEq, Repr

inductive ProductSort where
  | relevance
  | priceAsc
  | priceDesc
  | newest
  | ratingDesc
  deriving DecidableEq, Repr

structure PublicAttributeFacetSelection where
  code : String
  options : List String
  deriving DecidableEq, Repr

structure ListProductsInput where
  q : Option String
  categoryId : Option String
  sort : ProductSort
  page : Nat
  limit : Nat
  attributeFacets : Option (List PublicAttributeFacetSelection)
  page_pos : 1 ≤ page
  limit_pos : 1 ≤ limit
  deriving DecidableEq

/-- What JavaScript takes for true: a text that is not empty. -/
def truthy (text : Option String) : Option String :=
  text.filter (· ≠ "")

/-! ### The runtime -/

/-- What the database and the runtime decide about texts: `ILIKE`, the two collations and how a
number is written. -/
structure Runtime where
  contains : String → String → Bool
  nameLe : String → String → Bool
  labelLe : String → String → Bool
  numberText : Rat → String
  nameLe_total : ∀ a b, nameLe a b = true ∨ nameLe b a = true
  nameLe_trans : ∀ {a b c}, nameLe a b = true → nameLe b c = true → nameLe a c = true

/-! ### Errors -/

inductive CatalogError where
  | notFound
  | internal
  | facetNotAvailable (selection : String)
  | facetSource (error : FacetSourceError)
  deriving DecidableEq, Repr

end Houndfe.PublicCatalog

/-! ### Attribute facets

Matching a selection on one subject at a time, and counting, for each definition, the products
that the other selections leave. -/

namespace Houndfe.PublicCatalog

open CatalogEditorial

/-- A product and the values of each of its public subjects. -/
structure FacetCandidate where
  id : String
  subjects : List FacetValues
  deriving DecidableEq, Repr

/-- The selected options of each definition. -/
abbrev FacetSelection := FacetValues

abbrev FacetDefinitions := List (String × FacetDefinition)

def toFacetSelection (input : Option (List PublicAttributeFacetSelection)) : FacetSelection :=
  (input.getD []).foldl (fun selection facet => FacetValues.hold selection facet.code facet.options)
    []

/-- The first selected definition or option that the definitions do not know. -/
def unknownFacetSelection (selection : FacetSelection) (definitions : FacetDefinitions) :
    Option String :=
  selection.findSome? fun (code, options) =>
    match mapGet? definitions code with
    | none => some code
    | some definition =>
        (options.find? fun option => (mapGet? definition.options option).isNone).map
          fun option => code ++ ":" ++ option

/-- One subject satisfies every selected definition but `except`. -/
def subjectMatches (subject : FacetValues) (selection : FacetSelection)
    (except? : Option String) : Bool :=
  selection.all fun (code, chosen) =>
    except? = some code ||
      match subject.lookup code with
      | none => false
      | some held => chosen.any (· ∈ held)

def matchFacetSelection (candidates : List FacetCandidate) (selection : FacetSelection) :
    List String :=
  (candidates.filter fun candidate =>
    candidate.subjects.any fun subject => subjectMatches subject selection none).map (·.id)

/-! ### Counting -/

/-- What a candidate holds of each definition, over its subjects that match the other ones. -/
def heldBy (selection : FacetSelection) (candidate : FacetCandidate) : FacetValues :=
  candidate.subjects.foldl (fun held subject =>
    subject.foldl (fun held (code, options) =>
      if subjectMatches subject selection (some code) then FacetValues.hold held code options
      else held) held) []

/-- How often each text was counted, in the order of the first time. -/
abbrev Tally := List (String × Nat)

def Tally.bump (counts : Tally) (counted : String) : Tally :=
  match counts with
  | [] => [(counted, 1)]
  | (other, count) :: rest =>
      if other = counted then (other, count + 1) :: rest
      else (other, count) :: Tally.bump rest counted

abbrev FacetCounts := List (String × Tally)

/-- Each of the options counts once more. -/
def FacetCounts.count (counts : FacetCounts) (code : String) (options : List String) :
    FacetCounts :=
  match counts with
  | [] => [(code, options.foldl Tally.bump [])]
  | (other, byOption) :: rest =>
      if other = code then (other, options.foldl Tally.bump byOption) :: rest
      else (other, byOption) :: FacetCounts.count rest code options

def countHeld (candidates : List FacetCandidate) (selection : FacetSelection) : FacetCounts :=
  candidates.foldl (fun counts candidate =>
    (heldBy selection candidate).foldl (fun counts (code, options) =>
      FacetCounts.count counts code options) counts)
    (selection.map fun (code, _) => (code, []))

structure FacetOptionCount where
  code : String
  label : String
  count : Nat
  deriving DecidableEq, Repr

structure PublicCatalogAttributeFacet where
  code : String
  label : String
  options : List FacetOptionCount
  deriving DecidableEq, Repr

/-- A selected option that nothing holds is shown with no product. -/
def withSelected (byOption : Tally) (selected : List String) : Tally :=
  selected.foldl (fun byOption option =>
    if option ∈ byOption.map Prod.fst then byOption else byOption ++ [(option, 0)]) byOption

def facetOf (runtime : Runtime) (selection : FacetSelection) (definitions : FacetDefinitions)
    (code : String) (byOption : Tally) : Option PublicCatalogAttributeFacet :=
  match mapGet? definitions code with
  | none => none
  | some definition =>
      let shown := (withSelected byOption ((selection.lookup code).getD [])).filterMap
        fun (option, count) =>
          (mapGet? definition.options option).map fun label =>
            ({ code := option, label, count } : FacetOptionCount)
      if shown = [] then none
      else some ⟨code, definition.label,
        shown.insertionSort fun a b => runtime.labelLe a.label b.label = true⟩

def countFacets (runtime : Runtime) (candidates : List FacetCandidate)
    (selection : FacetSelection) (definitions : FacetDefinitions) :
    List PublicCatalogAttributeFacet :=
  ((countHeld candidates selection).filterMap fun (code, byOption) =>
    facetOf runtime selection definitions code byOption).insertionSort
      fun a b => runtime.labelLe a.label b.label = true

end Houndfe.PublicCatalog
