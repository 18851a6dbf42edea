import Mathlib.Data.List.Infix
import Houndfe.PublicCatalog.UnreadablePublications

/-! When an unreadable publication harms nothing else: exactly when every rejected document is
confined. -/

namespace Houndfe.PublicCatalog

open CatalogEditorial

/-- The first page of everything. -/
def everything : ListProductsInput where
  q := none
  categoryId := none
  sort := .newest
  page := 1
  limit := 1
  attributeFacets := none
  page_pos := by decide
  limit_pos := by decide

section

variable {runtime : Runtime} {catalog : Catalog} {tenant : PublicTenant}
  {context : ResolvedPublicCatalogContext} {product : ProductRow}

variable (runtime) in
theorem executeList_everything (hTenant : context.isOf tenant = true)
    (hRequired : context.requiresPublishedEditorial = true)
    (hChoices : catalog.choicesRead tenant.id) :
    ∃ list, ListPublicProducts.executeForContext runtime catalog tenant context everything =
        .ok list ∧
      list.total = (catalog.products.rows.filter fun product =>
        isEligible tenant.id context.globalPriceListId (.under product.testedCoverage)
          product).length := by
  have hStanding : ∀ own, context.standing own = .under own := fun own => if_pos hRequired
  have hSources := readSources_eq_ok.mpr (Or.inr ⟨hRequired, hChoices, rfl⟩)
  obtain ⟨_, _, list, hList, _, hTotal, _⟩ := executeList_unfiltered runtime hTenant hSources
    (⟨rfl, rfl, rfl⟩ : everything.IsUnfiltered)
  simp only [hStanding] at hTotal
  exact ⟨list, hList, hTotal⟩

/-- An eligible product that is taken away is one less in the total. -/
theorem length_withdrawn {tenantId globalPriceListId : String}
    (hMem : product ∈ catalog.products.rows)
    (hEligible : isEligible tenantId globalPriceListId (.under product.testedCoverage) product =
      true) :
    ((catalog.unpublish product.id).products.rows.filter fun row =>
        isEligible tenantId globalPriceListId (.under row.testedCoverage) row).length <
      (catalog.products.rows.filter fun row =>
        isEligible tenantId globalPriceListId (.under row.testedCoverage) row).length := by
  have hRows : ∀ row ∈ catalog.products.rows,
      isEligible tenantId globalPriceListId
          (.under (withdrawn product.id row).testedCoverage) (withdrawn product.id row) =
        (decide (row.id ≠ product.id) &&
          isEligible tenantId globalPriceListId (.under row.testedCoverage) row) := by
    intro row _
    by_cases hId : row.id = product.id
    · have hGone : (withdrawn product.id row).testedCoverage = none := by
        rw [withdrawn, if_pos hId]
        rfl
      simp [hId, hGone, isEligible, isShown, Standing.isPresent]
    · rw [withdrawn_of_ne hId]
      simp [hId]
  have hLength : ((catalog.unpublish product.id).products.rows.filter fun row =>
      isEligible tenantId globalPriceListId (.under row.testedCoverage) row) =
      (((catalog.products.rows.filter fun row =>
        isEligible tenantId globalPriceListId (.under row.testedCoverage) row)).filter
          fun row => row.id ≠ product.id).map (withdrawn product.id) := by
    rw [List.filter_filter]
    exact filter_map_of hRows
  rw [hLength, List.length_map, List.length_filter_lt_length_iff_exists]
  exact ⟨product, List.mem_filter.mpr ⟨hMem, hEligible⟩, by simp⟩

/-- Unreadable publications count as not published exactly when they are confined, or when none is
required or the request is refused anyway. -/
theorem countsAsNotPublished_iff (runtime : Runtime) (catalog : Catalog) (tenant : PublicTenant)
    (context : ResolvedPublicCatalogContext) :
    CountsAsNotPublished runtime catalog tenant context ↔
      (context.isOf tenant = true → context.requiresPublishedEditorial = true →
        catalog.Confined tenant.id context.globalPriceListId) := by
  constructor
  · intro h hTenant hRequired product hMem hOwn publication hPublished hRejected hTest
    have hChoices : catalog.choicesRead tenant.id := by
      by_contra hUnread
      obtain ⟨error, hError⟩ := executeList_of_unread runtime everything hTenant hRequired
        hUnread
      exact h.neverFails everything error hError
    refine ⟨?_, ?_⟩
    · have hIn := (mem_publications_of hMem hOwn).mpr hPublished
      have hRead : ChoicesRead publication := hChoices (product.id, publication) hIn
      rw [choicesRead_iff] at hRead
      exact hRead hTest
    · by_contra hNot
      have hCovered : product.testedCoverage = some publication.coverage := by
        rw [ProductRow.testedCoverage, hPublished, Option.bind_some, if_pos hTest]
      have hEligible : isEligible tenant.id context.globalPriceListId
          (.under product.testedCoverage) product = true := by
        rw [hCovered]
        exact eq_true_of_ne_false hNot
      obtain ⟨list, hList, hTotal⟩ := executeList_everything runtime hTenant hRequired
        hChoices
      obtain ⟨list', hList', hTotal'⟩ := executeList_everything runtime hTenant
        hRequired (choicesRead_unpublish product.id hChoices)
      have hSame := h.list product hMem hOwn ⟨publication, hPublished, hRejected⟩ everything
      rw [hList, hList'] at hSame
      have hUncounted : list.uncounted = list'.uncounted := Except.ok.inj hSame
      have hShown : list.uncounted.total = list'.uncounted.total := by rw [hUncounted]
      have hTotals : list.total = list'.total := hShown
      have hLess := length_withdrawn hMem hEligible
      rw [← hTotal, ← hTotal', hTotals] at hLess
      exact Nat.lt_irrefl _ hLess
  · intro h
    have hKeyed : ∀ product ∈ catalog.products.rows, product.IsUnreadable →
        ∀ other ∈ catalog.products.rows, other.id = product.id → other.IsUnreadable := by
      intro product hMem hUnreadable other hOther hId
      rw [Keyed.Rows.eq_of_key hOther hMem hId]
      exact hUnreadable
    have hSources : context.isOf tenant = true →
        ∃ sources, readSources catalog tenant.id context = .ok sources := by
      intro hTenant
      cases hRequired : context.requiresPublishedEditorial with
      | false => exact ⟨none, readSources_eq_ok.mpr (Or.inl ⟨hRequired, rfl⟩)⟩
      | true =>
          have hChoices := choicesRead_of_confined (h hTenant hRequired)
          exact ⟨_, readSources_eq_ok.mpr (Or.inr ⟨hRequired, hChoices, rfl⟩)⟩
    refine ⟨fun _ _ hParsed => publishedDocumentV2Sql_of_parse hParsed, ?_, ?_, ?_, ?_⟩
    · intro filters error
      cases hTenant : context.isOf tenant with
      | false => simp [ListPublicProducts.executeForContext, hTenant]
      | true =>
          obtain ⟨sources, hRead⟩ := hSources hTenant
          exact executeList_ne_facetSource hRead error
    · intro product hMem hOwn hUnreadable filters
      cases hTenant : context.isOf tenant with
      | false => simp [ListPublicProducts.executeForContext, hTenant]
      | true =>
          apply executeList_uncounted
          symm
          cases hRequired : context.requiresPublishedEditorial with
          | false =>
              exact corresponds_free.listPublicProducts
                (readSources_eq_ok.mpr (Or.inl ⟨hRequired, rfl⟩))
                (readSources_eq_ok.mpr (Or.inl ⟨hRequired, rfl⟩))
          | true =>
              have hConfined := h hTenant hRequired
              have hChoices := choicesRead_of_confined hConfined
              refine (corresponds_required hRequired hChoices ?_).listPublicProducts
                (readSources_eq_ok.mpr (Or.inr ⟨hRequired, hChoices, rfl⟩))
                (readSources_eq_ok.mpr
                  (Or.inr ⟨hRequired, choicesRead_unpublish _ hChoices, rfl⟩))
              intro other hOther hOtherTenant hId
              exact not_eligible_of_confined hConfined hOther hOtherTenant
                (hKeyed product hMem hUnreadable other hOther hId)
    · intro product hMem _ hUnreadable productId
      exact (executeDetail_unpublish (hKeyed product hMem hUnreadable)).symm
    · intro product hMem _ hUnreadable lines
      exact (executeCart_unpublish (hKeyed product hMem hUnreadable)).symm

end

/-! ### A document that only the database accepts -/

/-- A runtime that compares texts as they are. -/
def plainRuntime : Runtime where
  contains text q := decide (q.toList <:+: text.toList)
  nameLe a b := decide (a ≤ b)
  labelLe a b := decide (a ≤ b)
  numberText := toString
  nameLe_total a b := by simpa using le_total a b
  nameLe_trans := by
    intro a b c hab hbc
    simp only [decide_eq_true_eq] at hab hbc ⊢
    exact le_trans hab hbc

/-- A known single choice whose value is a number. -/
def numericChoice : JsonValue :=
  .object [("schemaVersion", .number 2), ("commercialTitle", .string "Croquetas"),
    ("description", .null), ("familyCode", .string "food"),
    ("values", .array [.object [("code", .string "animal.target"), ("owner", .string "product"),
      ("variantId", .null), ("state", .string "known"),
      ("payload", .object [("type", .string "single"), ("value", .number 5)]),
      ("evidence", .null)]]),
    ("facts", .array []), ("mediaRefs", .array [])]

def simpleRow : ProductRow where
  id := "product"
  tenantId := "tenant"
  name := "Croquetas"
  description := none
  type := .product
  includeInOnlineCatalog := true
  hasVariants := false
  useStock := false
  quantity := 0
  minQuantity := 0
  hidePriceInOnlineCatalog := false
  requiresPrescription := false
  presentation := ⟨none, none⟩
  category := none
  brand := none
  images := []
  catalogPriceLists := []
  priceLists := [⟨"tenant", "list", 100⟩]
  variants := .empty VariantRow.id
  createdAt := 0
  published := none

def sampleTenant : PublicTenant := ⟨"tenant", "tienda", "Tienda"⟩

def sampleContext : ResolvedPublicCatalogContext where
  tenantId := "tenant"
  tenantSlug := "tienda"
  globalPriceListId := "list"
  name := "Público"
  isCatalogDefault := true
  stockPresentationDefaults := ⟨some .systemStatus, none⟩
  requiresPublishedEditorial := true

/-- The catalog of a single product. -/
def Catalog.single (product : ProductRow) : Catalog where
  products := ⟨[product], by simp⟩
  categories := []
  bindings := []
  ownSubjects := by
    intro first hFirst second hSecond hNe
    rw [List.mem_singleton.mp hFirst, List.mem_singleton.mp hSecond] at hNe
    exact absurd rfl hNe

theorem list_fails_on_numeric_choice :
    ¬ CountsAsNotPublished plainRuntime
      (.single { simpleRow with published := some ⟨1, some [none], numericChoice⟩ })
      sampleTenant sampleContext := by
  intro h
  exact h.neverFails everything invalidFacetSource rfl

end Houndfe.PublicCatalog
