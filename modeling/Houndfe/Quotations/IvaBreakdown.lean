import Houndfe.Quotations.DraftEdits
import Houndfe.Quotations.QuotationResponse
import Houndfe.Quotations.StoredTotals
import Mathlib.Data.Rat.Floor

/-! The tax of a quotation. Every request that touches a line settles its base last, so the bases
and the included taxes of the response add up to its total. -/

namespace Houndfe.Quotations

open Keyed Transition Traverse

/-! ### The base of a line -/

/-- The rate that is charged, in percent. -/
def QuotationItem.effectiveRatePercent (item : QuotationItem) : Int :=
  match item.ivaRateClassification, item.chargeProductTaxesSnapshot with
  | some rate, some true => rate.ratePercent
  | _, _ => 0

/-- The nearest integer, a half going up. -/
def halfUp (amount : Rat) : Int :=
  ⌊amount + 1 / 2⌋

/-- The base is what is left of the line's amount without the tax, to the nearest cent. -/
structure BaseSettled (item : QuotationItem) : Prop where
  base : item.taxableBaseCents =
    some (halfUp (item.subtotalCents / (1 + item.effectiveRatePercent / 100)))
  bounds : ∀ taxableBaseCents, item.taxableBaseCents = some taxableBaseCents →
    0 ≤ taxableBaseCents ∧ taxableBaseCents ≤ item.subtotalCents

/-- The integer division of the source, for a rate of whole even percents. -/
theorem halfUp_eq_div {amountCents half : Int} (hHalf : 0 < half) :
    halfUp (amountCents / (1 + (2 * half - 100 : Int) / 100)) =
      (amountCents * 100 + half) / (2 * half) := by
  have hExact : (amountCents : Rat) / (1 + (2 * half - 100 : Int) / 100) + 1 / 2 =
      ((amountCents * 100 + half : Int) : Rat) / ((2 * half).toNat : Rat) := by
    have hCast : ((2 * half).toNat : Rat) = 2 * half := by
      have hNat : ((2 * half).toNat : Int) = 2 * half := Int.toNat_of_nonneg (by omega)
      exact_mod_cast hNat
    have hPos : (0 : Rat) < half := by exact_mod_cast hHalf
    rw [hCast]
    push_cast
    field_simp
    ring
  rw [halfUp, hExact, Rat.floor_intCast_div_natCast, Int.toNat_of_nonneg (by omega)]

theorem base_bounds {amountCents half : Int} (hAmount : 0 ≤ amountCents) (hHalf : 50 ≤ half) :
    0 ≤ (amountCents * 100 + half) / (2 * half) ∧
      (amountCents * 100 + half) / (2 * half) ≤ amountCents := by
  constructor
  · exact Int.ediv_nonneg (by omega) (by omega)
  · rw [← Int.lt_add_one_iff, Int.ediv_lt_iff_lt_mul (by omega)]
    nlinarith

theorem effectiveRatePercent_even (item : QuotationItem) :
    ∃ half, 50 ≤ half ∧ item.effectiveRatePercent = 2 * half - 100 := by
  unfold QuotationItem.effectiveRatePercent
  split
  · next rate _ _ =>
      cases rate with
      | iva16 => exact ⟨58, by decide, rfl⟩
      | iva8 => exact ⟨54, by decide, rfl⟩
      | iva0 | ivaExento => exact ⟨50, by decide, rfl⟩
  · exact ⟨50, by decide, rfl⟩

/-- A base is settled by what the source stores. -/
theorem BaseSettled.of_stored {item : QuotationItem} {divisor : Int}
    (hDivisor : divisor = 100 + item.effectiveRatePercent) (hAmount : 0 ≤ item.subtotalCents)
    (hBase : item.taxableBaseCents =
      some ((item.subtotalCents * 100 + divisor / 2) / divisor)) : BaseSettled item := by
  obtain ⟨half, hHalf, hPercent⟩ := effectiveRatePercent_even item
  have hDouble : divisor = 2 * half := by omega
  have hOneHalf : divisor / 2 = half := by omega
  rw [hOneHalf, hDouble] at hBase
  constructor
  · rw [hPercent, halfUp_eq_div (by omega)]
    exact hBase
  · intro taxableBaseCents hStored
    cases hBase.symm.trans hStored
    exact base_bounds hAmount hHalf

theorem settleTaxableBase_settled {item line : QuotationItem}
    (h : settleTaxableBase item = .ok line) (hComplete : line.hasCompleteTaxSnapshot = true) :
    BaseSettled line := by
  unfold settleTaxableBase QuotationItem.recomputeTaxableBase at h
  split at h
  · next hMissing =>
      cases h
      rcases hMissing with hRate | hCharge
      · simp [QuotationItem.hasCompleteTaxSnapshot, hRate] at hComplete
      · simp [QuotationItem.hasCompleteTaxSnapshot, hCharge] at hComplete
  · split at h
    · next rate chargeProductTaxes hRate hCharge =>
        obtain ⟨_, hAmount, h⟩ := bind_eq_ok.mp h
        cases pure_eq_ok.mp h
        have hNonneg := Int.not_lt.mp (throwIf_eq_ok.mp hAmount)
        refine BaseSettled.of_stored ?_ hNonneg rfl
        cases chargeProductTaxes <;> simp [QuotationItem.effectiveRatePercent, hRate, hCharge]
    · cases h

/-- Every line with a complete snapshot has its base settled. -/
def SettledLines (items : List QuotationItem) : Prop :=
  ∀ item ∈ items, item.hasCompleteTaxSnapshot = true → BaseSettled item

/-- A recompute settles every line, whatever it found. -/
theorem recompute_settled {env : QuotationEnvironment} {draft recomputed : Quotation}
    (h : recomputePricingAndPromotions env draft = .ok recomputed) :
    SettledLines recomputed.items := by
  obtain ⟨applied, items, _, hItems, _, rfl⟩ := recompute_lines h
  intro line hLine hComplete
  obtain ⟨item, _, hSettled⟩ := mem_mapM hItems hLine
  exact settleTaxableBase_settled hSettled hComplete

theorem Saves.settled {env : QuotationEnvironment} {target : QuotationStatus}
    {draft saved : Quotation} (h : Saves env target draft saved) (hDraft : SettledLines draft.items) :
    SettledLines saved.items := by
  cases h with
  | recomputed _ _ hSaved => exact recompute_settled hSaved
  | annotated _ | sent _ => exact hDraft
  | cancelled =>
      unfold Quotation.cancel
      split <;> exact hDraft

/-- The title of a discount has no part in the tax. -/
theorem SettledLines.reloaded {saved loaded : Quotation} (h : Reloaded saved loaded)
    (hSaved : SettledLines saved.items) : SettledLines loaded.items := by
  intro item hItem hComplete
  obtain ⟨before, hBefore, rfl⟩ := List.mem_map.mp (h.items.symm.subset hItem)
  have hSettled := hSaved before hBefore hComplete
  exact ⟨hSettled.base, hSettled.bounds⟩

theorem settled_of_runs {initial table : List Quotation}
    {operations : List (ServiceEnvironment × QuotationOperation)}
    (hRun : Runs QuotationStep initial operations table)
    (hInitial : ∀ quotation ∈ initial, SettledLines quotation.items) :
    ∀ quotation ∈ table, SettledLines quotation.items := by
  refine rows_of_runs ?_ ?_ hInitial hRun
  · intro env id sellerUserId customerId globalPriceListId draft hDraft
    obtain ⟨_, _, _, rfl⟩ := openDraft_eq_ok hDraft
    exact fun item hItem => absurd hItem List.not_mem_nil
  · intro env request stored loaded saved hStored hLoaded hSaved
    exact (serve_saves hSaved).settled (SettledLines.reloaded hLoaded hStored)

/-! ### The breakdown -/

section

variable {items : List QuotationItem}

/-- A complete line has a base, a classification and an included tax. -/
theorem ivaEntry_of_complete {item : QuotationItem} (h : item.hasCompleteTaxSnapshot = true) :
    ∃ taxableBaseCents classification, item.taxableBaseCents = some taxableBaseCents ∧
      item.effectiveIvaClassification = some classification ∧
      item.ivaEntry = some ⟨classification, item.subtotalCents - taxableBaseCents⟩ := by
  have hIncluded : item.includedIvaCents =
      item.taxableBaseCents.map fun taxableBaseCents => item.subtotalCents - taxableBaseCents :=
    if_pos h
  simp only [QuotationItem.hasCompleteTaxSnapshot, Bool.and_eq_true] at h
  obtain ⟨⟨hBase, hRate⟩, hCharge⟩ := h
  obtain ⟨taxableBaseCents, hBase⟩ := Option.isSome_iff_exists.mp hBase
  obtain ⟨rate, hRate⟩ := Option.isSome_iff_exists.mp hRate
  obtain ⟨chargeProductTaxes, hCharge⟩ := Option.isSome_iff_exists.mp hCharge
  have hClassification : item.effectiveIvaClassification =
      some (if chargeProductTaxes then rate.toClassification else .notTaxable) := by
    rw [QuotationItem.effectiveIvaClassification, hRate, hCharge]
  refine ⟨taxableBaseCents, _, hBase, hClassification, ?_⟩
  rw [QuotationItem.ivaEntry, hClassification, hIncluded, hBase]
  rfl

/-- What the lines hold beyond their bases. -/
def includedCents (items : List QuotationItem) : Int :=
  (items.map fun item => item.subtotalCents - item.taxableBaseCents.getD 0).sum

theorem sum_ivaEntries (hComplete : ∀ item ∈ items, item.hasCompleteTaxSnapshot = true) :
    ((items.filterMap QuotationItem.ivaEntry).map QuotationIvaBreakdownEntry.amountCents).sum =
      includedCents items := by
  induction items with
  | nil => rfl
  | cons item rest ih =>
      obtain ⟨hItem, hRest⟩ := List.forall_mem_cons.mp hComplete
      obtain ⟨base, classification, hBase, _, hEntry⟩ := ivaEntry_of_complete hItem
      have hTail := ih hRest
      unfold includedCents at hTail ⊢
      rw [List.filterMap_cons_some hEntry, List.map_cons, List.sum_cons, hTail, List.map_cons,
        List.sum_cons, hBase]
      rfl

/-- The entries of a classification are made of the lines of it. -/
theorem filter_ivaEntries (hComplete : ∀ item ∈ items, item.hasCompleteTaxSnapshot = true)
    (classification : QuotationIvaClassification) :
    (items.filterMap QuotationItem.ivaEntry).filter
        (fun entry => entry.classification = classification) =
      (items.filter fun item => item.effectiveIvaClassification = some classification).filterMap
        QuotationItem.ivaEntry := by
  induction items with
  | nil => rfl
  | cons item rest ih =>
      obtain ⟨hItem, hRest⟩ := List.forall_mem_cons.mp hComplete
      obtain ⟨base, found, _, hFound, hEntry⟩ := ivaEntry_of_complete hItem
      rw [List.filterMap_cons_some hEntry]
      by_cases hSame : found = classification
      · rw [List.filter_cons_of_pos (by simpa using hSame), ih hRest,
          List.filter_cons_of_pos (by simpa [hFound] using hSame),
          List.filterMap_cons_some hEntry]
      · rw [List.filter_cons_of_neg (by simpa using hSame), ih hRest,
          List.filter_cons_of_neg (by simpa [hFound] using hSame)]

theorem sum_ivaEntries_filter
    (hComplete : ∀ item ∈ items, item.hasCompleteTaxSnapshot = true)
    (classification : QuotationIvaClassification) :
    (((items.filterMap QuotationItem.ivaEntry).filter fun entry =>
        entry.classification = classification).map
          QuotationIvaBreakdownEntry.amountCents).sum =
      includedCents (items.filter fun item =>
        item.effectiveIvaClassification = some classification) := by
  rw [filter_ivaEntries hComplete]
  exact sum_ivaEntries fun item hItem => hComplete item (List.mem_of_mem_filter hItem)

/-- The bases of the lines. -/
def baseCents (items : List QuotationItem) : Int :=
  (items.map fun item => item.taxableBaseCents.getD 0).sum

theorem base_add_included (items : List QuotationItem) :
    baseCents items + includedCents items = Quotation.netCents items := by
  unfold baseCents includedCents Quotation.netCents
  induction items with
  | nil => rfl
  | cons item rest ih =>
      simp only [List.map_cons, List.sum_cons, QuotationItem.subtotalCents] at ih ⊢
      omega

end

section

variable {quotation : Quotation}

theorem computeIvaBreakdown_of_complete
    (hComplete : ∀ item ∈ quotation.items, item.hasCompleteTaxSnapshot = true) :
    quotation.computeIvaBreakdown = ivaClassificationBucketOrder.filterMap
      (lookup QuotationIvaBreakdownEntry.classification
        (Quotation.ivaBuckets quotation.items)) := by
  unfold Quotation.computeIvaBreakdown
  split
  · next hEmpty => rw [hEmpty]; rfl
  · have hAll : (quotation.items.any fun item => !item.hasCompleteTaxSnapshot) = false := by
      rw [List.any_eq_false]
      intro item hItem
      simp [hComplete item hItem]
    rw [hAll]
    rfl

/-- The breakdown is the buckets in their fixed order. -/
theorem computeIvaBreakdown_perm_buckets
    (hComplete : ∀ item ∈ quotation.items, item.hasCompleteTaxSnapshot = true) :
    quotation.computeIvaBreakdown.Perm (Quotation.ivaBuckets quotation.items) := by
  rw [computeIvaBreakdown_of_complete hComplete]
  have hKey : ∀ classification entry, lookup QuotationIvaBreakdownEntry.classification
      (Quotation.ivaBuckets quotation.items) classification = some entry →
        entry.classification = id classification := by
    intro classification entry hEntry
    exact (lookup_eq_some hEntry).2
  have hOrder : (ivaClassificationBucketOrder.map id).Nodup := by decide
  apply perm_of_lookup_eq (nodup_filterMap hKey hOrder) (nodup_groupRows _)
  funext classification
  rw [lookup_filterMap hKey hOrder]
  cases classification <;> rfl

theorem nodup_computeIvaBreakdown
    (hComplete : ∀ item ∈ quotation.items, item.hasCompleteTaxSnapshot = true) :
    (quotation.computeIvaBreakdown.map QuotationIvaBreakdownEntry.classification).Nodup := by
  have hPerm := (computeIvaBreakdown_perm_buckets hComplete).map
    QuotationIvaBreakdownEntry.classification
  exact hPerm.nodup_iff.mpr (nodup_groupRows _)

theorem mem_computeIvaBreakdown {entry : QuotationIvaBreakdownEntry}
    (hComplete : ∀ item ∈ quotation.items, item.hasCompleteTaxSnapshot = true) :
    entry ∈ quotation.computeIvaBreakdown ↔ lookup QuotationIvaBreakdownEntry.classification
      (Quotation.ivaBuckets quotation.items) entry.classification = some entry := by
  rw [(computeIvaBreakdown_perm_buckets hComplete).mem_iff]
  constructor
  · exact lookup_of_mem (nodup_groupRows _)
  · exact fun h => (lookup_eq_some h).1

theorem total_of_complete
    (hComplete : ∀ item ∈ quotation.items, item.hasCompleteTaxSnapshot = true) :
    baseCents quotation.items +
        (quotation.computeIvaBreakdown.map QuotationIvaBreakdownEntry.amountCents).sum =
      Quotation.netCents quotation.items := by
  have hBuckets : (quotation.computeIvaBreakdown.map
      QuotationIvaBreakdownEntry.amountCents).sum =
      ((Quotation.ivaBuckets quotation.items).map QuotationIvaBreakdownEntry.amountCents).sum :=
    ((computeIvaBreakdown_perm_buckets hComplete).map _).sum_eq
  have hRows : ((Quotation.ivaBuckets quotation.items).map
      QuotationIvaBreakdownEntry.amountCents).sum =
      ((quotation.items.filterMap QuotationItem.ivaEntry).map
        QuotationIvaBreakdownEntry.amountCents).sum :=
    sum_groupRows (fun _ _ => rfl) add_classification _
  rw [hBuckets, hRows, sum_ivaEntries hComplete, base_add_included]

theorem counted_of_complete
    (hComplete : ∀ item ∈ quotation.items, item.hasCompleteTaxSnapshot = true)
    {item : QuotationItem} (hItem : item ∈ quotation.items) :
    ∃! entry, entry ∈ quotation.computeIvaBreakdown ∧
      item.effectiveIvaClassification = some entry.classification := by
  obtain ⟨base, classification, _, hClassification, hEntry⟩ :=
    ivaEntry_of_complete (hComplete item hItem)
  have hRow : (⟨classification, item.subtotalCents - base⟩ : QuotationIvaBreakdownEntry) ∈
      quotation.items.filterMap QuotationItem.ivaEntry :=
    List.mem_filterMap.mpr ⟨item, hItem, hEntry⟩
  obtain ⟨entry, hGroup⟩ := exists_group add_classification hRow
  have hSame : entry.classification = classification := (lookup_eq_some hGroup).2
  have hMem : entry ∈ quotation.computeIvaBreakdown := by
    rw [mem_computeIvaBreakdown hComplete, hSame]
    exact hGroup
  refine ⟨entry, ⟨hMem, hSame ▸ hClassification⟩, ?_⟩
  rintro other ⟨hOther, hOtherClassification⟩
  have hEqual : other.classification = entry.classification := by
    rw [hSame]
    exact Option.some.inj (hOtherClassification.symm.trans hClassification)
  exact List.inj_on_of_nodup_map (nodup_computeIvaBreakdown hComplete) hOther hMem hEqual

theorem amounts_of_complete
    (hComplete : ∀ item ∈ quotation.items, item.hasCompleteTaxSnapshot = true)
    {entry : QuotationIvaBreakdownEntry} (hEntry : entry ∈ quotation.computeIvaBreakdown) :
    entry.amountCents = includedCents (quotation.items.filter fun item =>
      item.effectiveIvaClassification = some entry.classification) := by
  have hGroup := (mem_computeIvaBreakdown hComplete).mp hEntry
  unfold Quotation.ivaBuckets at hGroup
  rw [lookup_groupRows add_classification] at hGroup
  have hAdd : ∀ kept entry : QuotationIvaBreakdownEntry,
      (kept.add entry).amountCents = kept.amountCents + entry.amountCents := fun _ _ => rfl
  rw [sum_foldl_mergeInto hAdd hGroup, Option.elim_none, Int.zero_add,
    sum_ivaEntries_filter hComplete]

end

/-- What the response says of the tax. A line without its snapshot leaves no breakdown. Otherwise
the bases and the entries make up the total, each line belongs to one entry, and each entry holds
what its lines hold beyond their bases. -/
structure IvaConserved (quotation : Quotation) : Prop where
  settled : SettledLines quotation.items
  incomplete : (∃ item ∈ quotation.items, item.hasCompleteTaxSnapshot = false) →
    quotation.toResponse.ivaBreakdown = []
  total : (∀ item ∈ quotation.items, item.hasCompleteTaxSnapshot = true) →
    baseCents quotation.items +
        (quotation.toResponse.ivaBreakdown.map QuotationIvaBreakdownEntry.amountCents).sum =
      quotation.toResponse.totals.totalCents
  counted : (∀ item ∈ quotation.items, item.hasCompleteTaxSnapshot = true) →
    ∀ item ∈ quotation.items, ∃! entry, entry ∈ quotation.toResponse.ivaBreakdown ∧
      item.effectiveIvaClassification = some entry.classification
  amounts : ∀ entry ∈ quotation.toResponse.ivaBreakdown,
    entry.amountCents = includedCents (quotation.items.filter fun item =>
      item.effectiveIvaClassification = some entry.classification)

theorem breakdown_of_incomplete {quotation : Quotation}
    (h : ∃ item ∈ quotation.items, item.hasCompleteTaxSnapshot = false) :
    quotation.computeIvaBreakdown = [] := by
  obtain ⟨item, hItem, hIncomplete⟩ := h
  unfold Quotation.computeIvaBreakdown
  have hAny : (quotation.items.any fun item => !item.hasCompleteTaxSnapshot) = true :=
    List.any_eq_true.mpr ⟨item, hItem, by simp [hIncomplete]⟩
  rw [hAny, if_neg (List.ne_nil_of_mem hItem), if_pos rfl]

theorem ivaConserved_of_settled {quotation : Quotation} (h : SettledLines quotation.items) :
    IvaConserved quotation := by
  refine ⟨h, breakdown_of_incomplete, total_of_complete,
    fun hComplete item hItem => counted_of_complete hComplete hItem, fun entry hEntry => ?_⟩
  by_cases hComplete : ∀ item ∈ quotation.items, item.hasCompleteTaxSnapshot = true
  · exact amounts_of_complete hComplete hEntry
  · simp only [not_forall, Bool.not_eq_true] at hComplete
    obtain ⟨item, hItem, hIncomplete⟩ := hComplete
    have hNone : quotation.toResponse.ivaBreakdown = [] :=
      breakdown_of_incomplete ⟨item, hItem, hIncomplete⟩
    rw [hNone] at hEntry
    cases hEntry

/-- Whatever requests came, on new quotations and on lines from before there were bases. -/
theorem iva_conserved {initial table : List Quotation}
    {operations : List (ServiceEnvironment × QuotationOperation)}
    (hLegacy : ∀ quotation ∈ initial, ∀ item ∈ quotation.items, item.taxableBaseCents = none)
    (hRun : Runs QuotationStep initial operations table) :
    ∀ quotation ∈ table, IvaConserved quotation := by
  have hInitial : ∀ quotation ∈ initial, SettledLines quotation.items := by
    intro quotation hIn item hItem hComplete
    simp [QuotationItem.hasCompleteTaxSnapshot, hLegacy quotation hIn item hItem] at hComplete
  intro quotation hIn
  exact ivaConserved_of_settled (settled_of_runs hRun hInitial quotation hIn)

/-! ### A line from before the bases -/

def legacyQuotation : Quotation :=
  { emptyQuotation with items :=
      [{ quotedLine with
          taxableBaseCents := none
          ivaRateClassification := none
          chargeProductTaxesSnapshot := none }] }

/-- Two units, at twice a hundred pesos with the tax in it. -/
def twoUnitsQuotation : Quotation :=
  { emptyQuotation with items :=
      [{ quotedLine with quantity := Sales.Quantity.two, taxableBaseCents := some 17241 }] }

theorem iva_conserved_of_legacy : IvaConserved twoUnitsQuotation := by
  have hChanged : QuotationsService.serve oneProduct legacyQuotation
      (.updateItemQuantity "i" 2) = .ok twoUnitsQuotation := rfl
  have hReloaded : Reloaded legacyQuotation legacyQuotation := ⟨.refl _, .refl _, .refl _, rfl⟩
  have hLegacy : ∀ quotation ∈ [legacyQuotation], ∀ item ∈ quotation.items,
      item.taxableBaseCents = none := by decide
  have hStep : QuotationStep [legacyQuotation]
      (oneProduct, .change "q" (.updateItemQuantity "i" 2)) [twoUnitsQuotation] :=
    .changed rfl hReloaded hChanged
  exact iva_conserved hLegacy (Runs.single hStep) twoUnitsQuotation List.mem_cons_self

end Houndfe.Quotations
