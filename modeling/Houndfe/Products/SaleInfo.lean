import Houndfe.Shared.DomainError
import Mathlib.Data.List.Sort

/-! Prices of products and variants on price lists, with their quantity tiers; and what a sale
reads of a product: whether it may be sold, its names and its default price. -/

namespace Houndfe.Products

structure TierPrice where
  minQuantity : Int
  priceCents : Int
  deriving DecidableEq, Repr

/-- A row of `PriceList`: the price of a product on a global list. -/
structure ProductRow where
  productId : String
  id : String
  globalPriceListId : String
  priceCents : Int
  tierPrices : List TierPrice
  deriving DecidableEq, Repr

/-- A row of `VariantPrice`, with the global list of its price list. -/
structure VariantRow where
  variantId : String
  priceListId : String
  globalPriceListId : String
  priceCents : Int
  tierPrices : List TierPrice
  deriving DecidableEq, Repr

structure PriceCatalog where
  priceLists : List ProductRow
  variantPrices : List VariantRow
  deriving DecidableEq, Repr

/-- The reached tier with the highest quantity, else the base price; a tier without a price
is ignored. -/
def selectEffectivePrice (basePriceCents : Int) (tiers : List TierPrice) (quantity : Int) : Int :=
  let reached := tiers.filter fun tier => tier.minQuantity ≤ quantity ∧ 0 < tier.priceCents
  match reached.insertionSort fun a b => b.minQuantity ≤ a.minQuantity with
  | [] => basePriceCents
  | tier :: _ => tier.priceCents

namespace PriceCatalog

/-- `batchResolvePriceMap` for one line. The list is the price list of the row or the global
list behind it, and the row that is read last counts. -/
def resolvePrice (catalog : PriceCatalog) (productId : String) (variantId : Option String)
    (priceListId : String) (quantity : Int) : Option Int :=
  match variantId with
  | some variantId =>
      (catalog.variantPrices.reverse.find? fun row => row.variantId = variantId &&
        (row.priceListId = priceListId || row.globalPriceListId = priceListId)).map fun row =>
          selectEffectivePrice row.priceCents row.tierPrices quantity
  | none =>
      (catalog.priceLists.reverse.find? fun row => row.productId = productId &&
        (row.id = priceListId || row.globalPriceListId = priceListId)).map fun row =>
          selectEffectivePrice row.priceCents row.tierPrices quantity

/-- `getApplicablePrices`, then the entry of one list. -/
def findApplicablePrice (catalog : PriceCatalog) (productId : String) (variantId : Option String)
    (priceListId : String) (quantity : Int) : Option Int :=
  match variantId with
  | some variantId =>
      (catalog.variantPrices.find? fun row =>
        row.variantId = variantId && row.priceListId = priceListId).map fun row =>
          selectEffectivePrice row.priceCents row.tierPrices quantity
  | none =>
      (catalog.priceLists.find? fun row =>
        row.productId = productId && row.id = priceListId).map fun row =>
          selectEffectivePrice row.priceCents row.tierPrices quantity

/-- `resolvePriceListGlobalIds` for one list. -/
def globalIdOf (catalog : PriceCatalog) (priceListId : String) : Option String :=
  (catalog.priceLists.reverse.find? fun row => row.id = priceListId).map
    ProductRow.globalPriceListId

/-- The keys of the two tables, and ids that are drawn apart from each other. -/
structure UniqueRows (catalog : PriceCatalog) : Prop where
  lists : ∀ row ∈ catalog.priceLists, ∀ other ∈ catalog.priceLists, other.id = row.id → other = row
  variants : ∀ row ∈ catalog.variantPrices, ∀ other ∈ catalog.variantPrices,
    other.variantId = row.variantId → other.priceListId = row.priceListId → other = row
  listsApart : ∀ row ∈ catalog.priceLists, ∀ other ∈ catalog.priceLists,
    other.globalPriceListId ≠ row.id
  variantsApart : ∀ row ∈ catalog.variantPrices, ∀ other ∈ catalog.variantPrices,
    other.globalPriceListId ≠ row.priceListId

end PriceCatalog

end Houndfe.Products

/-! ### What a sale reads -/

namespace Houndfe.Products

structure ProductListing where
  id : String
  name : String
  sellInPos : Bool
  hasVariants : Bool
  deriving DecidableEq, Repr

structure VariantListing where
  id : String
  productId : String
  name : String
  deriving DecidableEq, Repr

/-- The catalog as a request of the register reads it, prices included. At most one global
price list is the default. -/
structure ProductCatalog where
  products : List ProductListing
  variants : List VariantListing
  prices : PriceCatalog
  defaultGlobalPriceListId : Option String
  imageUrl : String → Option String → Option String

structure SaleProductInfo where
  productId : String
  productName : String
  variantId : Option String
  variantName : Option String
  unitPriceCents : Int
  imageUrl : Option String
  deriving DecidableEq, Repr

namespace PriceCatalog

/-- The price of a product on the default list, before any tier. -/
def defaultProductPrice (catalog : PriceCatalog) (defaultId : Option String)
    (productId : String) : Option Int :=
  (catalog.priceLists.find? fun row =>
    row.productId = productId && some row.globalPriceListId = defaultId).map ProductRow.priceCents

def defaultVariantPrice (catalog : PriceCatalog) (defaultId : Option String)
    (variantId : String) : Option Int :=
  (catalog.variantPrices.find? fun row =>
    row.variantId = variantId && some row.globalPriceListId = defaultId).map VariantRow.priceCents

/-- The price of a line on the list named by its row. -/
def resolveListPrice (catalog : PriceCatalog) (priceListId productId : String)
    (variantId : Option String) (quantity : Int) : Except DomainError Int :=
  match catalog.findApplicablePrice productId variantId priceListId quantity with
  | none => .error (ruleCode "INVALID_PRICE_LIST_FOR_ITEM")
  | some resolved => .ok resolved

/-- The default price of what a line sells; a price that is missing counts as zero. -/
def defaultPrice (catalog : PriceCatalog) (defaultId : Option String) (productId : String)
    (variantId : Option String) : Int :=
  match variantId with
  | some variantId => (catalog.defaultVariantPrice defaultId variantId).getD 0
  | none => (catalog.defaultProductPrice defaultId productId).getD 0

end PriceCatalog

namespace ProductCatalog

/-- The name of the variant of a product. -/
def variantNameFor (catalog : ProductCatalog) (productId : String) (variantId : Option String) :
    Except DomainError (Option String) :=
  match variantId with
  | none => .ok none
  | some variantId =>
      match catalog.variants.find? fun variant =>
        variant.id = variantId && variant.productId = productId with
      | none => .error (entityNotFoundError "Variant" variantId)
      | some variant => .ok (some variant.name)

/-- The product with its variant named when, and only when, it has variants. -/
def getProductInfoForSale (catalog : ProductCatalog) (productId : String)
    (variantId : Option String) : Except DomainError SaleProductInfo := do
  match catalog.products.find? fun product => product.id = productId with
  | none => throw (entityNotFoundError "Product" productId)
  | some product =>
      throwIf (product.sellInPos = false) (businessRuleViolationError
        ("Product " ++ productId ++ " is not enabled for POS sales") "BUSINESS_RULE_VIOLATION")
      throwIf (product.hasVariants ∧ variantId = none) (businessRuleViolationError
        ("Product " ++ productId ++ " has variants, you must specify a variant")
        "BUSINESS_RULE_VIOLATION")
      throwIf (product.hasVariants = false ∧ variantId ≠ none) (businessRuleViolationError
        ("Product " ++ productId ++ " does not have variants") "BUSINESS_RULE_VIOLATION")
      let variantName ← catalog.variantNameFor productId variantId
      return {
        productId := productId
        productName := product.name
        variantId := variantId
        variantName := variantName
        unitPriceCents := catalog.prices.defaultPrice catalog.defaultGlobalPriceListId productId
          variantId
        imageUrl := catalog.imageUrl productId variantId }

/-- A product of the register, with one of its variants when, and only when, it has them. -/
structure Sells (catalog : ProductCatalog) (productId : String) (variantId : Option String) :
    Prop where
  product : ∃ product, catalog.products.find? (fun product => product.id = productId) =
    some product ∧ product.sellInPos = true ∧ product.hasVariants = variantId.isSome
  variant : ∃ name, catalog.variantNameFor productId variantId = .ok name

/-- The register sells exactly these, at the price of the default list. -/
theorem getProductInfoForSale_eq_ok {catalog : ProductCatalog} {productId : String}
    {variantId : Option String} {priceCents : Int} :
    (∃ info, catalog.getProductInfoForSale productId variantId = .ok info ∧
        info.unitPriceCents = priceCents) ↔
      catalog.Sells productId variantId ∧
        catalog.prices.defaultPrice catalog.defaultGlobalPriceListId productId variantId =
          priceCents := by
  unfold getProductInfoForSale
  constructor
  · rintro ⟨info, h, hPrice⟩
    split at h
    · cases h
    next product hProduct =>
    obtain ⟨_, hPos, h⟩ := bind_eq_ok.mp h
    obtain ⟨_, hHas, h⟩ := bind_eq_ok.mp h
    obtain ⟨_, hHasNot, h⟩ := bind_eq_ok.mp h
    obtain ⟨name, hName, h⟩ := bind_eq_ok.mp h
    cases pure_eq_ok.mp h
    rw [throwIf_eq_ok] at hPos hHas hHasNot
    refine ⟨⟨⟨product, hProduct, by simpa using hPos, ?_⟩, name, hName⟩, hPrice⟩
    cases variantId <;> simp_all
  · rintro ⟨⟨⟨product, hProduct, hPos, hHas⟩, name, hName⟩, hPrice⟩
    simp only [hProduct]
    refine ⟨_, bind_eq_ok.mpr ⟨(), throwIf_eq_ok.mpr (by simp [hPos]), bind_eq_ok.mpr ⟨(),
      throwIf_eq_ok.mpr ?_, bind_eq_ok.mpr ⟨(), throwIf_eq_ok.mpr ?_, bind_eq_ok.mpr ⟨name, hName,
        rfl⟩⟩⟩⟩, hPrice⟩
    · cases variantId <;> simp [hHas]
    · cases variantId <;> simp [hHas]

end ProductCatalog

end Houndfe.Products
