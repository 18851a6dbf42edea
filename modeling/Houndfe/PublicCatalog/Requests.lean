import Houndfe.PublicCatalog.Repository

/-! The public requests under a resolved price context: the list, the detail and the cart, with what
each of them answers. -/

namespace Houndfe.PublicCatalog

open CatalogEditorial

structure PublicPriceContextDto where
  priceListId : String
  name : String
  isCatalogDefault : Bool
  deriving DecidableEq, Repr

def ResolvedPublicCatalogContext.priceContext (context : ResolvedPublicCatalogContext) :
    PublicPriceContextDto :=
  ⟨context.globalPriceListId, context.name, context.isCatalogDefault⟩

/-- The guarded tenant of a request is the one its price context was resolved for. -/
def ResolvedPublicCatalogContext.isOf (context : ResolvedPublicCatalogContext)
    (tenant : PublicTenant) : Bool :=
  tenant.id = context.tenantId && tenant.slug = context.tenantSlug

/-! ### What the products show -/

/-- The title and the description of the publication go before those of the product. -/
def publicName (product : ProductProjection) : Option PublicProjection → String
  | none => product.name
  | some editorial => editorial.commercialTitle.getD product.name

def publicDescription (product : ProductProjection) : Option PublicProjection → Option String
  | none => product.description
  | some editorial => editorial.description

/-- Variants that are off are never shown, whatever was loaded. -/
def visibleVariants (variants : List ProjectedVariant) : List ProjectedVariant :=
  variants.filter fun variant => variant.catalogPublishMode ≠ .off

/-- The lowest price of the variants, or that of the product. -/
def computeFromPrice (product : ProductProjection) : Option Int :=
  let publicVariants := visibleVariants product.variants
  if !product.hasVariants || publicVariants.isEmpty then product.priceCents
  else
    match (publicVariants.filterMap (·.priceCents)).min? with
    | none => product.priceCents
    | some lowest => some lowest

/-- The stock of the whole product; without participants there is none to show. -/
def productStock (product : ProductProjection) (defaults : StockPresentationDefaults) :
    Option RenderedStockPresentation :=
  if product.hasVariants then
    mapPublicAggregateVariantStockPresentation product.presentation product.useStock defaults
      product.stockPresentationParticipants
  else some (mapPublicProductStockPresentation product.presentation product.useStock product.stock
    defaults)

structure CardPrice where
  fromPriceCents : Option Int
  priceCents : Option Int
  hidden : Bool
  deriving DecidableEq, Repr

/-- `PublicCatalogContextualProductCard`. -/
structure PublicProductCard where
  id : String
  name : String
  description : Option String
  category : Option Category
  brand : Option String
  image : Option String
  price : CardPrice
  availability : Option PublicStockStatus
  stockPresentation : RenderedStockPresentation
  hasVariants : Bool
  deriving DecidableEq, Repr

def toPublicProductCardForContext (defaults : StockPresentationDefaults)
    (item : ProductProjection × Option PublicProjection) : Except CatalogError PublicProductCard :=
  let (product, editorial) := item
  match productStock product defaults with
  | none => .error .internal
  | some stock => .ok {
      id := product.id
      name := publicName product editorial
      description := publicDescription product editorial
      category := product.category
      brand := product.brand
      image := product.images.head?.map (·.url)
      price :=
        if product.isEffectivelyPriceHidden then ⟨none, none, true⟩
        else ⟨computeFromPrice product, product.priceCents, false⟩
      availability := stock.status
      stockPresentation := stock
      hasVariants := product.hasVariants }

structure DetailPrice where
  priceCents : Option Int
  hidden : Bool
  deriving DecidableEq, Repr

def detailPrice (hidden : Bool) (priceCents : Option Int) : DetailPrice :=
  if hidden then ⟨none, true⟩ else ⟨priceCents, false⟩

structure VariantAvailability where
  branchId : String
  branchName : String
  branchSlug : String
  availability : Option PublicStockStatus
  isSelected : Bool
  deriving DecidableEq, Repr

/-- `PublicContextualVariantDto`. -/
structure PublicVariant where
  id : String
  name : String
  option : Option String
  value : Option String
  image : Option String
  price : DetailPrice
  availabilityByBranch : List VariantAvailability
  stockPresentation : RenderedStockPresentation
  attributes : Option (List PublicAttribute)
  deriving DecidableEq, Repr

structure PublicImage where
  id : String
  url : String
  isMain : Bool
  deriving DecidableEq, Repr

/-- `PublicCatalogProductDetailWithContextDto`. -/
structure PublicProductDetail where
  id : String
  name : String
  description : Option String
  category : Option Category
  brand : Option String
  images : List PublicImage
  price : DetailPrice
  availability : Option PublicStockStatus
  stockPresentation : RenderedStockPresentation
  hasVariants : Bool
  variants : List PublicVariant
  attributes : Option (List PublicAttribute)
  priceContext : PublicPriceContextDto
  deriving DecidableEq, Repr

def toPublicVariant (product : ProductProjection) (editorial : Option PublicProjection)
    (tenant : PublicTenant) (defaults : StockPresentationDefaults) (variant : ProjectedVariant) :
    PublicVariant :=
  let stock := mapPublicVariantStockPresentation product.presentation product.useStock
    variant.presentation variant.stock defaults
  { id := variant.id
    name := variant.name
    option := variant.option
    value := variant.value
    image := variant.image
    price := detailPrice product.isEffectivelyPriceHidden variant.priceCents
    availabilityByBranch := [⟨tenant.id, tenant.name, tenant.slug, stock.status, true⟩]
    stockPresentation := stock
    attributes := editorial.map fun editorial =>
      (editorial.variantAttributes.lookup variant.id).getD [] }

def toPublicProductDetailForContext (tenant : PublicTenant)
    (context : ResolvedPublicCatalogContext)
    (item : ProductProjection × Option PublicProjection) :
    Except CatalogError PublicProductDetail :=
  let (product, editorial) := item
  match productStock product context.stockPresentationDefaults with
  | none => .error .notFound
  | some stock => .ok {
      id := product.id
      name := publicName product editorial
      description := publicDescription product editorial
      category := product.category
      brand := product.brand
      images := product.images.map fun image => ⟨image.id, image.url, image.isMain⟩
      price := detailPrice product.isEffectivelyPriceHidden product.priceCents
      availability := stock.status
      stockPresentation := stock
      hasVariants := product.hasVariants
      variants := (visibleVariants product.variants).map
        (toPublicVariant product editorial tenant context.stockPresentationDefaults)
      attributes := editorial.map (·.attributes)
      priceContext := context.priceContext }

/-! ### The list -/

structure PublicProductList where
  items : List PublicProductCard
  page : Nat
  limit : Nat
  total : Nat
  totalPages : Nat
  categories : List PublicCatalogCategoryFacet
  attributes : Option (List PublicCatalogAttributeFacet)
  excludedCount : Int
  priceContext : PublicPriceContextDto
  deriving DecidableEq, Repr

/-- Attribute facets exist only over publications. -/
def refusedFacet (context : ResolvedPublicCatalogContext) (filters : ListProductsInput) :
    Option String :=
  if context.requiresPublishedEditorial then none
  else ((filters.attributeFacets.getD []).head?).map (·.code)

namespace ListPublicProducts

def response (context : ResolvedPublicCatalogContext) (filters : ListProductsInput)
    (listing : ProductListing) : Except CatalogError PublicProductList := do
  let items ← listing.items.mapM
    (toPublicProductCardForContext context.stockPresentationDefaults)
  return {
    items := items
    page := filters.page
    limit := filters.limit
    total := listing.total
    totalPages := (listing.total + filters.limit - 1) / filters.limit
    categories := listing.categories
    attributes := listing.attributes
    excludedCount := listing.excludedCount
    priceContext := context.priceContext }

def executeForContext (runtime : Runtime) (catalog : Catalog) (tenant : PublicTenant)
    (context : ResolvedPublicCatalogContext) (filters : ListProductsInput) :
    Except CatalogError PublicProductList :=
  if !context.isOf tenant then .error .notFound
  else
    match refusedFacet context filters with
    | some code => .error (.facetNotAvailable code)
    | none => do
        let listing ← listPublicProducts runtime catalog tenant.id context filters
        response context filters listing

end ListPublicProducts

/-! ### The detail -/

namespace GetPublicProductDetail

def executeForContext (runtime : Runtime) (catalog : Catalog) (tenant : PublicTenant)
    (context : ResolvedPublicCatalogContext) (productId : String) :
    Except CatalogError PublicProductDetail :=
  if !context.isOf tenant then .error .notFound
  else
    match getPublicProductDetail runtime catalog tenant.id productId context with
    | none => .error .notFound
    | some item => toPublicProductDetailForContext tenant context item

end GetPublicProductDetail

/-! ### The cart -/

structure CartLine where
  productId : String
  variantId : Option String
  quantity : Int
  deriving DecidableEq, Repr

/-- The codes of a line: those that block it and those that only warn. -/
inductive CartCode where
  | notInCatalog
  | variantNotFound
  | variantNotInCatalog
  | priceNotAvailableInContext
  | outOfStock
  | lowStock
  | priceHidden
  deriving DecidableEq, Repr

structure CartValidatedItem where
  productId : String
  variantId : Option String
  productName : Option String
  variantName : Option String
  image : Option String
  quantity : Int
  isBlocked : Bool
  blockingCodes : List CartCode
  warnings : List CartCode
  unitPriceCents : Option Int
  lineTotalCents : Option Int
  availability : PublicStockStatus
  priceHidden : Bool
  deriving DecidableEq, Repr

/-- The stock that a public shop tells of a candidate or of its variant. -/
def cartAvailability (useStock : Bool) (stock : VariantOperationalStock) : PublicStockStatus :=
  if useStock then mapStockStatus stock.quantity stock.minQuantity else .available

namespace ValidatePublicCart

/-- `contextualRedactedItem`. -/
def redactedItem (line : CartLine) (code : CartCode) : CartValidatedItem where
  productId := line.productId
  variantId := line.variantId
  productName := none
  variantName := none
  image := none
  quantity := line.quantity
  isBlocked := true
  blockingCodes := [code]
  warnings := [code]
  unitPriceCents := none
  lineTotalCents := none
  availability := .outOfStock
  priceHidden := false

section

variable (context : ResolvedPublicCatalogContext)

/-- `coversPublishedSubjectV2`. -/
def covers (candidate : PublicCartCandidate) (variantId : Option String) : Bool :=
  match candidate.publishedCoverage with
  | none => false
  | some coverage => coverage.covers variantId

/-- The membership gate. -/
def isMember (candidate : PublicCartCandidate) : Bool :=
  candidate.type = .product && candidate.includeInOnlineCatalog &&
    !(context.requiresPublishedEditorial &&
      (candidate.publishedCoverage.isNone || (!candidate.hasVariants && !covers candidate none)))

/-- Off, or not covered where a publication is required. -/
def isWithdrawn (candidate : PublicCartCandidate) (variant : CartVariant) : Bool :=
  variant.catalogPublishMode = .off ||
    (context.requiresPublishedEditorial && !covers candidate (some variant.id))

/-- The unit price of a line whose price is not hidden, where it can be sold. -/
def unitPrice (candidate : PublicCartCandidate) (variant : Option CartVariant) : Option Int :=
  let allowlisted := candidate.catalogPriceLists = [] ∨
    context.globalPriceListId ∈ candidate.catalogPriceLists
  let priceCents := match variant with
    | some variant => variant.priceCents
    | none => candidate.priceCents
  if allowlisted then priceCents.filter (0 < ·) else none

/-- A line of a product, and of the variant that it names. -/
def pricedItem (line : CartLine) (candidate : PublicCartCandidate)
    (variant : Option CartVariant) : CartValidatedItem :=
  let isHidden := candidate.isEffectivelyPriceHidden
  let unitPriceCents := if isHidden then none else unitPrice context candidate variant
  let availability := cartAvailability candidate.useStock
    ((variant.map (·.stock)).getD candidate.stock)
  let blockingCodes :=
    (if !isHidden && unitPriceCents.isNone then [.priceNotAvailableInContext] else []) ++
      (if availability = .outOfStock then [.outOfStock] else [])
  { productId := line.productId
    variantId := line.variantId
    productName := some candidate.name
    variantName := variant.map (·.name)
    image := candidate.image
    quantity := line.quantity
    isBlocked := blockingCodes ≠ []
    blockingCodes := blockingCodes
    warnings := blockingCodes ++ (if isHidden then [.priceHidden] else []) ++
      (if availability = .lowStock then [.lowStock] else [])
    unitPriceCents := unitPriceCents
    lineTotalCents := unitPriceCents.map (· * line.quantity)
    availability := availability
    priceHidden := isHidden }

/-- The decisions on a line, in their order. -/
def reconcileCandidate (candidate? : Option PublicCartCandidate) (line : CartLine) :
    CartValidatedItem :=
  match candidate? with
  | none => redactedItem line .notInCatalog
  | some candidate =>
      if !isMember context candidate then redactedItem line .notInCatalog
      else
        match truthy line.variantId with
        | none => pricedItem context line candidate none
        | some variantId =>
            match candidate.variants.find? (·.id = variantId) with
            | none => redactedItem line .variantNotFound
            | some variant =>
                if isWithdrawn context candidate variant then
                  redactedItem line .variantNotInCatalog
                else pricedItem context line candidate (some variant)

def reconcile (candidates : List PublicCartCandidate) (line : CartLine) : CartValidatedItem :=
  reconcileCandidate context
    (mapGet? (candidates.map fun candidate => (candidate.id, candidate)) line.productId) line

end

/-- What a line adds to the warnings of the cart, in the order in which it was found. -/
def raisedBy (item : CartValidatedItem) : List CartCode :=
  [.notInCatalog, .variantNotFound, .variantNotInCatalog, .priceHidden,
    .priceNotAvailableInContext, .outOfStock, .lowStock].filter (· ∈ item.warnings)

structure CartValidationResponse where
  valid : Bool
  priceContext : PublicPriceContextDto
  items : List CartValidatedItem
  totalCents : Option Int
  warnings : List CartCode
  deriving DecidableEq, Repr

def response (context : ResolvedPublicCatalogContext) (items : List CartValidatedItem) :
    CartValidationResponse where
  valid := !items.any (·.isBlocked)
  priceContext := context.priceContext
  items := items
  totalCents :=
    if items.any (·.priceHidden) then none
    else some (((items.filter fun item => !item.isBlocked).filterMap (·.lineTotalCents)).sum)
  warnings := (items.flatMap raisedBy).foldl
    (fun held code => if code ∈ held then held else held ++ [code]) []

def executeForContext (catalog : Catalog) (tenant : PublicTenant)
    (context : ResolvedPublicCatalogContext) (lines : List CartLine) :
    Except CatalogError CartValidationResponse :=
  if !context.isOf tenant then .error .notFound
  else
    let candidates := findPublicCartCandidates catalog tenant.id context
      (lines.map (·.productId)).dedup (lines.filterMap (·.variantId)).dedup
    .ok (response context (lines.map (reconcile context candidates)))

end ValidatePublicCart

end Houndfe.PublicCatalog
