import Houndfe.PublicCatalog.Catalog

/-! The public reads of the repository: which rows of a tenant are public in a price context, and
what the list, the detail and the cart load of them. -/

namespace Houndfe.PublicCatalog

open CatalogEditorial

/-! ### Publication -/

/-- `PUBLICATION_SURVIVORSHIP`. -/
def ProductRow.survives (product : ProductRow) : Bool :=
  !product.hasVariants || product.variants.rows.any fun variant => variant.catalogPublishMode ≠ .off

/-- What the coverage of the publications leaves. -/
structure EditorialScope where
  products : ProductRow → Bool
  variants : String → VariantRow → Bool

def editorialScope (coverage : List (String × PublishedCoverage)) : EditorialScope :=
  let simple := (coverage.filter fun (_, covering) => covering.covers none).map Prod.fst
  let unrecorded := (coverage.filter fun (_, covering) => covering.subjects = none).map Prod.fst
  let covered := coverage.flatMap fun (_, covering) => (covering.subjects.getD []).filterMap id
  { products := fun product =>
      (!product.hasVariants && product.id ∈ simple) ||
        (product.hasVariants && product.id ∈ coverage.map Prod.fst)
    variants := fun productId variant => productId ∈ unrecorded || variant.id ∈ covered }

section

variable (tenantId : String) (scope : Option EditorialScope)

/-- Variants of the tenant that are not off, narrowed to the covered ones. -/
def publicVariantWhere (productId : String) (variant : VariantRow) : Bool :=
  variant.tenantId = tenantId && variant.catalogPublishMode ≠ .off &&
    match scope with
    | none => true
    | some scope => scope.variants productId variant

def publicVariants (product : ProductRow) : List VariantRow :=
  product.variants.rows.filter (publicVariantWhere tenantId scope product.id)

def survivesForTenant (product : ProductRow) : Bool :=
  !product.hasVariants || product.variants.rows.any (publicVariantWhere tenantId scope product.id)

def inScope (product : ProductRow) : Bool :=
  match scope with
  | none => true
  | some scope => scope.products product

end

/-! ### Prices -/

section

variable (tenantId globalPriceListId : String)

def priceListWhere (row : PriceListRow) : Bool :=
  row.tenantId = tenantId && row.globalPriceListId = globalPriceListId && 0 < row.priceCents

def variantPriceWhere (row : VariantPriceRow) : Bool :=
  row.tenantId = tenantId && row.listTenantId = tenantId &&
    row.globalPriceListId = globalPriceListId && 0 < row.priceCents

/-- The price of a product in the selected list, when it is positive. -/
def ProductRow.priceIn (product : ProductRow) : Option Int :=
  (product.priceLists.find? (priceListWhere tenantId globalPriceListId)).map (·.priceCents)

def VariantRow.priceIn (variant : VariantRow) : Option Int :=
  (variant.variantPrices.find? (variantPriceWhere tenantId globalPriceListId)).map (·.priceCents)

/-- No row allows every list. -/
def allowedIn (product : ProductRow) : Bool :=
  !product.catalogPriceLists.any (fun row => row.tenantId = tenantId) ||
    product.catalogPriceLists.any fun row =>
      row.tenantId = tenantId && row.globalPriceListId = globalPriceListId

/-- A variant product needs both a price of its own and one of a public variant. -/
def pricedIn (scope : Option EditorialScope) (product : ProductRow) : Bool :=
  (!product.hasVariants &&
      product.priceLists.any (priceListWhere tenantId globalPriceListId)) ||
    (product.hasVariants && product.priceLists.any (priceListWhere tenantId globalPriceListId) &&
      product.variants.rows.any fun variant =>
        publicVariantWhere tenantId scope product.id variant &&
          variant.variantPrices.any (variantPriceWhere tenantId globalPriceListId))

/-- A hidden price goes before the allowed lists and the prices. -/
def offeredIn (scope : Option EditorialScope) (product : ProductRow) : Bool :=
  (product.hidePriceInOnlineCatalog || product.requiresPrescription) ||
    (!product.hidePriceInOnlineCatalog && !product.requiresPrescription &&
      allowedIn tenantId globalPriceListId product &&
      pricedIn tenantId globalPriceListId scope product)

end

/-! ### Projections -/

structure ProjectedVariant where
  id : String
  name : String
  option : Option String
  value : Option String
  stock : VariantOperationalStock
  catalogPublishMode : CatalogPublishMode
  presentation : StockPresentationSource
  image : Option String
  priceCents : Option Int
  deriving DecidableEq, Repr

/-- A product with what a query includes of it. -/
structure ProductProjection where
  id : String
  name : String
  description : Option String
  hasVariants : Bool
  useStock : Bool
  stock : VariantOperationalStock
  hidePriceInOnlineCatalog : Bool
  requiresPrescription : Bool
  presentation : StockPresentationSource
  category : Option Category
  brand : Option String
  images : List ImageRow
  priceCents : Option Int
  variants : List ProjectedVariant
  publishedDocument : Option JsonValue
  stockPresentationParticipants : List VariantOperationalStock

def ProductProjection.isEffectivelyPriceHidden (product : ProductProjection) : Bool :=
  product.hidePriceInOnlineCatalog || product.requiresPrescription

/-- `orderBy: [{ isMain: 'desc' }, { sortOrder: 'asc' }]`. -/
def imageLe (a b : ImageRow) : Bool :=
  (a.isMain && !b.isMain) || (a.isMain = b.isMain && a.sortOrder ≤ b.sortOrder)

def sortImages (images : List ImageRow) : List ImageRow :=
  images.insertionSort fun a b => imageLe a b = true

section

variable (tenantId globalPriceListId : String)

def projectVariant (variant : VariantRow) : ProjectedVariant where
  id := variant.id
  name := variant.name
  option := variant.option
  value := variant.value
  stock := ⟨variant.quantity, variant.minQuantity⟩
  catalogPublishMode := variant.catalogPublishMode
  presentation := variant.presentation
  image := (sortImages variant.images).head?.map (·.url)
  priceCents := variant.priceIn tenantId globalPriceListId

/-- Every public variant takes part in the stock that is shown, priced or not. -/
def participantsOf (hasVariants : Bool) (variants : List ProjectedVariant) :
    List VariantOperationalStock :=
  if hasVariants then variants.map (·.stock) else []

def project (scope : Option EditorialScope) (product : ProductRow) : ProductProjection :=
  let variants := (publicVariants tenantId scope product).map
    (projectVariant tenantId globalPriceListId)
  { id := product.id
    name := product.name
    description := product.description
    hasVariants := product.hasVariants
    useStock := product.useStock
    stock := ⟨product.quantity, product.minQuantity⟩
    hidePriceInOnlineCatalog := product.hidePriceInOnlineCatalog
    requiresPrescription := product.requiresPrescription
    presentation := product.presentation
    category := product.category
    brand := product.brand
    images := sortImages product.images
    priceCents := product.priceIn tenantId globalPriceListId
    variants := variants
    publishedDocument := scope.bind fun _ => product.published.map (·.publishedDocument)
    stockPresentationParticipants := participantsOf product.hasVariants variants }

end

/-- `withEditorial`: what has no readable publication is dropped. -/
def withEditorial (runtime : Runtime) (bindings : List EditorialBinding)
    (items : List ProductProjection) : List (ProductProjection × Option PublicProjection) :=
  let families := items.filterMap fun item =>
    item.publishedDocument.bind fun document => tokenOf (document.get? "familyCode")
  let vocabulary := readEditorialPublicVocabulary bindings families
  items.filterMap fun item =>
    match item.publishedDocument with
    | none => none
    | some document =>
        match projectPublishedEditorial runtime.numberText vocabulary document with
        | .ok editorial => some (item, some editorial)
        | .error _ => none

/-! ### The list -/

/-- The current publications of a tenant. -/
def Catalog.publications (catalog : Catalog) (tenantId : String) : List (String × Publication) :=
  (catalog.products.rows.filter (·.tenantId = tenantId)).filterMap fun product =>
    product.published.map fun publication => (product.id, publication)

/-- `readEditorialTenantPublishedFacetSourcesV2`. -/
def readTenantFacetSources (catalog : Catalog) (tenantId : String) :
    Except FacetSourceError (List (String × FacetSource)) := do
  let rows ← (catalog.publications tenantId).mapM fun (productId, publication) => do
    let source ← readFacetSource publication
    return source.map fun source => (productId, source)
  return rows.filterMap id

/-- The sources are read only when the tenant requires a publication. -/
def readSources (catalog : Catalog) (tenantId : String)
    (context : ResolvedPublicCatalogContext) :
    Except CatalogError (Option (List (String × FacetSource))) :=
  if context.requiresPublishedEditorial then
    match readTenantFacetSources catalog tenantId with
    | .ok sources => .ok (some sources)
    | .error error => .error (.facetSource error)
  else .ok none

def scopeOfSources (sources : List (String × FacetSource)) : EditorialScope :=
  editorialScope (sources.map fun (productId, source) => (productId, source.coverage))

section

variable (runtime : Runtime)

def documentContains (document : JsonValue) (field q : String) : Bool :=
  match tokenOf (document.get? field) with
  | some text => runtime.contains text q
  | none => false

/-- The search runs over the publication when one is required, and over the product otherwise. -/
def searchWhere (tenantId : String) (scope : Option EditorialScope) (q : String)
    (product : ProductRow) : Bool :=
  match scope with
  | some _ =>
      match product.published with
      | none => false
      | some publication =>
          documentContains runtime publication.publishedDocument "commercialTitle" q ||
            documentContains runtime publication.publishedDocument "description" q
  | none =>
      runtime.contains product.name q ||
        product.brand.any (runtime.contains · q) ||
        product.variants.rows.any fun variant =>
          publicVariantWhere tenantId none product.id variant &&
            (runtime.contains variant.name q || variant.option.any (runtime.contains · q) ||
              variant.value.any (runtime.contains · q))

/-- The category and the search of the list. -/
def matchesFilters (tenantId : String) (scope : Option EditorialScope)
    (filters : ListProductsInput) (product : ProductRow) : Bool :=
  (match truthy filters.categoryId with
    | none => true
    | some categoryId => product.category.any (·.id = categoryId)) &&
  (match truthy filters.q with
    | none => true
    | some q => searchWhere runtime tenantId scope q product)

/-- The gates of the list. -/
def gatesWhere (tenantId : String) (scope : Option EditorialScope) (filters : ListProductsInput)
    (product : ProductRow) : Bool :=
  product.survives && survivesForTenant tenantId scope product && inScope scope product &&
    matchesFilters runtime tenantId scope filters product

def baseWhere (tenantId : String) (scope : Option EditorialScope) (filters : ListProductsInput)
    (product : ProductRow) : Bool :=
  product.tenantId = tenantId && product.includeInOnlineCatalog && product.type = .product &&
    gatesWhere runtime tenantId scope filters product

/-- The values of the subjects of a row, empty where nothing is published. -/
def candidateOf (tenantId : String) (scope : Option EditorialScope)
    (vocabulary : PublicFacetVocabulary) (sources : List (String × FacetSource))
    (product : ProductRow) : FacetCandidate :=
  let values : Option String → FacetValues :=
    match mapGet? sources product.id with
    | some source => facetValuesBySubject source vocabulary
    | none => fun _ => []
  { id := product.id
    subjects :=
      if product.hasVariants then
        (publicVariants tenantId scope product).map fun variant => values (some variant.id)
      else [values none] }

/-- What the facets of a read are, and the products that the selection leaves. -/
structure FacetRead where
  attributes : Option (List PublicCatalogAttributeFacet)
  matched : Option (List String)
  deriving DecidableEq, Repr

def readFacets (catalog : Catalog) (tenantId : String)
    (sources : Option (List (String × FacetSource))) (filters : ListProductsInput)
    (base eligible : List ProductRow) : Except CatalogError FacetRead :=
  match sources with
  | none => .ok ⟨none, none⟩
  | some sources =>
      let vocabulary := readEditorialPublicFacetVocabulary catalog.bindings
      let selection := toFacetSelection filters.attributeFacets
      let candidate := candidateOf tenantId (some (scopeOfSources sources)) vocabulary sources
      match unknownFacetSelection selection vocabulary.definitions with
      | some unknown => .error (.facetNotAvailable unknown)
      | none => .ok {
          attributes := some (countFacets runtime (eligible.map candidate) selection
            vocabulary.definitions)
          matched :=
            if selection = [] then none
            else some (matchFacetSelection (base.map candidate) selection) }

structure PublicCatalogCategoryFacet where
  id : String
  name : String
  count : Nat
  deriving DecidableEq, Repr

def toCategoryFacets (categories : List Category) (rows : List ProductRow) :
    List PublicCatalogCategoryFacet :=
  let groups : Tally := (rows.filterMap fun product => product.category.map (·.id)).foldl
    Tally.bump []
  let names := categories.map fun category => (category.id, category.name)
  (groups.filterMap fun (id, count) => (mapGet? names id).map fun name =>
    ({ id, name, count } : PublicCatalogCategoryFacet)).insertionSort
      fun a b => runtime.nameLe a.name b.name = true

/-- `resolveOrderBy`: newest first, whatever the sort. -/
def newestFirst (rows : List ProductRow) : List ProductRow :=
  rows.insertionSort fun a b => b.createdAt ≤ a.createdAt

/-- The comparison of `sortByPriceIfNeeded`, not positive. -/
def priceLe (descending : Bool) (a b : ProductProjection) : Bool :=
  match a.priceCents, b.priceCents with
  | none, none => true
  | none, some _ => descending
  | some _, none => !descending
  | some priceA, some priceB =>
      if priceA = priceB then runtime.nameLe a.name b.name
      else if descending then priceB < priceA
      else priceA < priceB

def sortByPriceIfNeeded (sort : ProductSort) (items : List ProductProjection) :
    List ProductProjection :=
  match sort with
  | .priceAsc => items.insertionSort fun a b => priceLe runtime false a b = true
  | .priceDesc => items.insertionSort fun a b => priceLe runtime true a b = true
  | .relevance | .newest | .ratingDesc => items

structure ProductListing where
  items : List (ProductProjection × Option PublicProjection)
  total : Nat
  excludedCount : Int
  categories : List PublicCatalogCategoryFacet
  attributes : Option (List PublicCatalogAttributeFacet)

/-- The page of the eligible rows, newest first. -/
def pageOf (filters : ListProductsInput) (rows : List ProductRow) : List ProductRow :=
  ((newestFirst rows).drop ((filters.page - 1) * filters.limit)).take filters.limit

def withEditorialIf (bindings : List EditorialBinding) (scope : Option EditorialScope)
    (items : List ProductProjection) : List (ProductProjection × Option PublicProjection) :=
  match scope with
  | none => items.map fun item => (item, none)
  | some _ => withEditorial runtime bindings items

/-- The listing of the rows that the gates and the selection leave. -/
def listingOf (catalog : Catalog) (tenantId : String) (context : ResolvedPublicCatalogContext)
    (scope : Option EditorialScope) (filters : ListProductsInput) (base : List ProductRow)
    (attributes : Option (List PublicCatalogAttributeFacet)) : ProductListing :=
  let eligible := base.filter (offeredIn tenantId context.globalPriceListId scope)
  let items := (pageOf filters eligible).map (project tenantId context.globalPriceListId scope)
  { items := withEditorialIf runtime catalog.bindings scope
      (sortByPriceIfNeeded runtime filters.sort items)
    total := eligible.length
    excludedCount := base.length - eligible.length
    categories := toCategoryFacets runtime catalog.categories eligible
    attributes := attributes }

def selectMatched (matched : Option (List String)) (base : List ProductRow) : List ProductRow :=
  match matched with
  | none => base
  | some ids => base.filter fun product => product.id ∈ ids

def listPublicProducts (catalog : Catalog) (tenantId : String)
    (context : ResolvedPublicCatalogContext) (filters : ListProductsInput) :
    Except CatalogError ProductListing := do
  let sources ← readSources catalog tenantId context
  let scope := sources.map scopeOfSources
  let base := catalog.products.rows.filter (baseWhere runtime tenantId scope filters)
  let eligible := base.filter (offeredIn tenantId context.globalPriceListId scope)
  let facets ← readFacets runtime catalog tenantId sources filters base eligible
  return listingOf runtime catalog tenantId context scope filters
    (selectMatched facets.matched base) facets.attributes

end

/-! ### The detail -/

/-- `readEditorialPublishedCoverageV2`. -/
def readPublishedCoverages (catalog : Catalog) (tenantId : String) (productIds : List String) :
    List (String × PublishedCoverage) :=
  (catalog.publications tenantId).filterMap fun (productId, publication) =>
    if productId ∈ productIds then
      (readPublishedCoverage publication).map fun coverage => (productId, coverage)
    else none

def detailWhere (tenantId globalPriceListId productId : String) (scope : Option EditorialScope)
    (product : ProductRow) : Bool :=
  product.id = productId && product.tenantId = tenantId && product.includeInOnlineCatalog &&
    product.type = .product && survivesForTenant tenantId scope product && inScope scope product &&
    offeredIn tenantId globalPriceListId scope product

def coveredVariants (coverage : Option PublishedCoverage) (variants : List ProjectedVariant) :
    List ProjectedVariant :=
  match coverage with
  | none => variants
  | some coverage => variants.filter fun variant => coverage.covers (some variant.id)

/-- Only covered variants stay, then only what the price context shows of their prices. -/
def narrowDetail (coverage : Option PublishedCoverage) (product : ProductProjection) :
    ProductProjection :=
  let covered := coveredVariants coverage product.variants
  let shown := { product with
    stockPresentationParticipants := participantsOf product.hasVariants covered }
  if product.hidePriceInOnlineCatalog || product.requiresPrescription then
    { shown with
      priceCents := none
      variants := covered.map fun variant => { variant with priceCents := none } }
  else { shown with variants := covered.filter fun variant => variant.priceCents.isSome }

def detailEditorial (runtime : Runtime) (bindings : List EditorialBinding)
    (scope : Option EditorialScope) (projection : ProductProjection) :
    Option (ProductProjection × Option PublicProjection) :=
  match scope with
  | none => some (projection, none)
  | some _ => (withEditorial runtime bindings [projection]).head?

/-- The detail under a coverage, which is there exactly when the tenant requires a publication. -/
def detailUnder (runtime : Runtime) (catalog : Catalog) (tenantId productId : String)
    (context : ResolvedPublicCatalogContext) (coverage : Option PublishedCoverage) :
    Option (ProductProjection × Option PublicProjection) := do
  let scope := coverage.map fun coverage => editorialScope [(productId, coverage)]
  let product ← catalog.products.rows.find?
    (detailWhere tenantId context.globalPriceListId productId scope)
  let projection := narrowDetail coverage (project tenantId context.globalPriceListId scope product)
  detailEditorial runtime catalog.bindings scope projection

def getPublicProductDetail (runtime : Runtime) (catalog : Catalog) (tenantId productId : String)
    (context : ResolvedPublicCatalogContext) :
    Option (ProductProjection × Option PublicProjection) :=
  if tenantId ≠ context.tenantId then none
  else if context.requiresPublishedEditorial then
    match mapGet? (readPublishedCoverages catalog tenantId [productId]) productId with
    | none => none
    | some coverage => detailUnder runtime catalog tenantId productId context (some coverage)
  else detailUnder runtime catalog tenantId productId context none

/-! ### The cart -/

structure CartVariant where
  id : String
  name : String
  catalogPublishMode : CatalogPublishMode
  stock : VariantOperationalStock
  priceCents : Option Int
  deriving DecidableEq, Repr

/-- What the cart loads of a product: nothing is decided here. -/
structure PublicCartCandidate where
  id : String
  name : String
  type : ProductType
  includeInOnlineCatalog : Bool
  hasVariants : Bool
  useStock : Bool
  stock : VariantOperationalStock
  hidePriceInOnlineCatalog : Bool
  requiresPrescription : Bool
  image : Option String
  catalogPriceLists : List String
  priceCents : Option Int
  publishedCoverage : Option PublishedCoverage
  variants : List CartVariant
  deriving DecidableEq, Repr

def PublicCartCandidate.isEffectivelyPriceHidden (candidate : PublicCartCandidate) : Bool :=
  candidate.hidePriceInOnlineCatalog || candidate.requiresPrescription

def cartCandidate (tenantId globalPriceListId : String) (variantIds : List String)
    (coverage : Option PublishedCoverage) (product : ProductRow) : PublicCartCandidate where
  id := product.id
  name := product.name
  type := product.type
  includeInOnlineCatalog := product.includeInOnlineCatalog
  hasVariants := product.hasVariants
  useStock := product.useStock
  stock := ⟨product.quantity, product.minQuantity⟩
  hidePriceInOnlineCatalog := product.hidePriceInOnlineCatalog
  requiresPrescription := product.requiresPrescription
  image := (product.images.find? (·.isMain)).map (·.url)
  catalogPriceLists := (product.catalogPriceLists.filter (·.tenantId = tenantId)).map
    (·.globalPriceListId)
  priceCents := product.priceIn tenantId globalPriceListId
  publishedCoverage := coverage
  variants := (product.variants.rows.filter fun variant =>
      variant.tenantId = tenantId ∧ variant.id ∈ variantIds).map fun variant =>
    { id := variant.id
      name := variant.name
      catalogPublishMode := variant.catalogPublishMode
      stock := ⟨variant.quantity, variant.minQuantity⟩
      priceCents := variant.priceIn tenantId globalPriceListId }

def findPublicCartCandidates (catalog : Catalog) (tenantId : String)
    (context : ResolvedPublicCatalogContext) (productIds variantIds : List String) :
    List PublicCartCandidate :=
  if tenantId ≠ context.tenantId then []
  else
    let rows := catalog.products.rows.filter fun product =>
      product.tenantId = tenantId ∧ product.id ∈ productIds
    let coverage :=
      if context.requiresPublishedEditorial then
        readPublishedCoverages catalog tenantId (rows.map (·.id))
      else []
    rows.map fun product =>
      cartCandidate tenantId context.globalPriceListId variantIds (mapGet? coverage product.id)
        product

end Houndfe.PublicCatalog
