import Houndfe.PublicCatalog.UnreadablePublications

/-! A public request is answered from the products of its own tenant: whatever the others store,
sell or publish, the list, the detail and the cart are the same without them. -/

namespace Houndfe.PublicCatalog

open CatalogEditorial

/-- The catalog with the products of one tenant. -/
def Catalog.ofTenant (catalog : Catalog) (tenantId : String) : Catalog where
  products := ⟨catalog.products.rows.filter (·.tenantId = tenantId),
    catalog.products.distinct.sublist (List.filter_sublist.map _)⟩
  categories := catalog.categories
  bindings := catalog.bindings
  ownSubjects := fun product hProduct other hOther =>
    catalog.ownSubjects product (List.mem_of_mem_filter hProduct) other
      (List.mem_of_mem_filter hOther)

section

variable {catalog : Catalog} {tenantId : String} {context : ResolvedPublicCatalogContext}

theorem row_ofTenant {asked : String} :
    (catalog.ofTenant tenantId).row tenantId asked = catalog.row tenantId asked := by
  apply Option.ext
  intro row
  simp only [row_eq_some, Catalog.ofTenant, List.mem_filter, decide_eq_true_eq]
  exact ⟨fun h => ⟨h.1.1, h.2⟩, fun h => ⟨⟨h.1, h.2.1⟩, h.2⟩⟩

theorem readSources_ofTenant :
    readSources (catalog.ofTenant tenantId) tenantId context =
      readSources catalog tenantId context := by
  simp only [readSources, readTenantFacetSources, Catalog.publications, Catalog.ofTenant,
    List.filter_filter, Bool.and_self]

theorem filter_ofTenant {runtime : Runtime} {scope : Option EditorialScope}
    {filters : ListProductsInput} :
    (catalog.ofTenant tenantId).products.rows.filter (baseWhere runtime tenantId scope filters) =
      catalog.products.rows.filter (baseWhere runtime tenantId scope filters) := by
  simp only [Catalog.ofTenant, List.filter_filter]
  refine List.filter_congr fun product _ => ?_
  by_cases hTenant : product.tenantId = tenantId
  · simp [hTenant]
  · simp [baseWhere_of_other hTenant]

end

/-- What the other tenants have stored reaches no answer. -/
theorem reads_own_tenant (runtime : Runtime) (catalog : Catalog) (tenant : PublicTenant)
    (context : ResolvedPublicCatalogContext) :
    (∀ filters, ListPublicProducts.executeForContext runtime (catalog.ofTenant context.tenantId)
        tenant context filters =
      ListPublicProducts.executeForContext runtime catalog tenant context filters) ∧
    (∀ asked, GetPublicProductDetail.executeForContext runtime
        (catalog.ofTenant context.tenantId) tenant context asked =
      GetPublicProductDetail.executeForContext runtime catalog tenant context asked) ∧
    ∀ lines, ValidatePublicCart.executeForContext (catalog.ofTenant context.tenantId) tenant
        context lines =
      ValidatePublicCart.executeForContext catalog tenant context lines := by
  refine ⟨fun filters => ?_, fun asked => ?_, fun lines => ?_⟩
  · unfold ListPublicProducts.executeForContext
    cases hTenant : context.isOf tenant with
    | false => rfl
    | true =>
        rw [(isOf_iff.mp hTenant).1]
        simp only [listPublicProducts, readSources_ofTenant, filter_ofTenant]
        rfl
  · exact executeDetail_congr rfl (by rw [row_ofTenant])
  · exact executeCart_congr fun line _ variantIds => by rw [row_ofTenant]

end Houndfe.PublicCatalog
