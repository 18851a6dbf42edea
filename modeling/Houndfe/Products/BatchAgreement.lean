import Houndfe.Products.BatchPrices

/-! Every line of a batch gets the price of its own row: rows that the tables keep, keys that
tell lines apart, and the agreement with prices resolved one by one. -/

namespace Houndfe.Products

/-! ### Stored rows -/

namespace PriceCatalog

/-- What the tables keep besides `UniqueRows`: plain ids, one list of a product for a global list,
price lists of a variant that belong to its product, and distinct thresholds of the tiers. -/
structure Stored (catalog : PriceCatalog) : Prop extends UniqueRows catalog where
  plainProducts : ∀ row ∈ catalog.priceLists, PlainId row.productId
  plainVariants : ∀ row ∈ catalog.variantPrices, PlainId row.variantId
  globals : ∀ row ∈ catalog.priceLists, ∀ other ∈ catalog.priceLists,
    other.productId = row.productId → other.globalPriceListId = row.globalPriceListId → other = row
  owned : ∃ productOf : String → String, ∀ row ∈ catalog.variantPrices,
    ∃ list ∈ catalog.priceLists, list.id = row.priceListId ∧
      list.globalPriceListId = row.globalPriceListId ∧ list.productId = productOf row.variantId
  productTiers : ∀ row ∈ catalog.priceLists, (row.tierPrices.map TierPrice.minQuantity).Nodup
  variantTiers : ∀ row ∈ catalog.variantPrices, (row.tierPrices.map TierPrice.minQuantity).Nodup

/-- The rows that price a product or a variant. -/
def rowsFor (catalog : PriceCatalog) (variantId : Option String) : List OwnedRow :=
  match variantId with
  | some _ => catalog.variantPrices.map VariantRow.owned
  | none => catalog.priceLists.map ProductRow.owned

/-- The row that prices a line on the list it names. -/
def Prices (catalog : PriceCatalog) (input : PriceInput) (row : OwnedRow) : Prop :=
  ∃ priceListId, input.priceListId = some priceListId ∧ row ∈ catalog.rowsFor input.variantId ∧
    row.On (input.variantId.getD input.productId) priceListId

/-- What the two queries of a batch find, in any order. -/
structure Found (catalog : PriceCatalog) (inputs : List PriceInput)
    (variantRows : List VariantRow) (productRows : List ProductRow) : Prop where
  variants : variantRows.Perm
    (catalog.variantPrices.filter fun row => row.owned.Wanted (variantInputs inputs))
  products : productRows.Perm
    (catalog.priceLists.filter fun row => row.owned.Wanted (productInputs inputs))

section

variable {catalog : PriceCatalog}

/-- Two price lists of one variant do not stand for one global list. -/
theorem Stored.variantGlobals (h : catalog.Stored) {row other : VariantRow}
    (hRow : row ∈ catalog.variantPrices) (hOther : other ∈ catalog.variantPrices)
    (hVariant : other.variantId = row.variantId)
    (hGlobal : other.globalPriceListId = row.globalPriceListId) : other = row := by
  obtain ⟨productOf, hOwned⟩ := h.owned
  obtain ⟨list, hList, hId, hListGlobal, hProduct⟩ := hOwned row hRow
  obtain ⟨list', hList', hId', hListGlobal', hProduct'⟩ := hOwned other hOther
  have hSame : list' = list := by
    apply h.globals list hList list' hList'
    · rw [hProduct', hProduct, hVariant]
    · rw [hListGlobal', hListGlobal, hGlobal]
  exact h.variants row hRow other hOther hVariant (by rw [← hId', ← hId, hSame])

theorem Stored.oneForEach (h : catalog.Stored) (variantId : Option String) :
    OneForEach (catalog.rowsFor variantId) := by
  cases variantId with
  | none =>
      constructor
      · intro row hRow
        obtain ⟨stored, hStored, rfl⟩ := List.mem_map.mp hRow
        exact h.plainProducts stored hStored
      · intro row hRow other hOther ownerId priceListId hOn hOtherOn
        obtain ⟨stored, hStored, rfl⟩ := List.mem_map.mp hRow
        obtain ⟨stored', hStored', rfl⟩ := List.mem_map.mp hOther
        have hOwner : stored'.productId = stored.productId := hOtherOn.1.trans hOn.1.symm
        rcases hOn.2 with hId | hGlobal <;> rcases hOtherOn.2 with hId' | hGlobal'
        · rw [h.lists stored hStored stored' hStored' (hId'.trans hId.symm)]
        · exact absurd (hGlobal'.trans hId.symm) (h.listsApart stored hStored stored' hStored')
        · exact absurd (hGlobal.trans hId'.symm) (h.listsApart stored' hStored' stored hStored)
        · rw [h.globals stored hStored stored' hStored' hOwner (hGlobal'.trans hGlobal.symm)]
  | some variantId =>
      constructor
      · intro row hRow
        obtain ⟨stored, hStored, rfl⟩ := List.mem_map.mp hRow
        exact h.plainVariants stored hStored
      · intro row hRow other hOther ownerId priceListId hOn hOtherOn
        obtain ⟨stored, hStored, rfl⟩ := List.mem_map.mp hRow
        obtain ⟨stored', hStored', rfl⟩ := List.mem_map.mp hOther
        have hOwner : stored'.variantId = stored.variantId := hOtherOn.1.trans hOn.1.symm
        rcases hOn.2 with hId | hGlobal <;> rcases hOtherOn.2 with hId' | hGlobal'
        · rw [h.variants stored hStored stored' hStored' hOwner (hId'.trans hId.symm)]
        · exact absurd (hGlobal'.trans hId.symm)
            (h.variantsApart stored hStored stored' hStored')
        · exact absurd (hGlobal.trans hId'.symm)
            (h.variantsApart stored' hStored' stored hStored)
        · rw [h.variantGlobals hStored hStored' hOwner (hGlobal'.trans hGlobal.symm)]

theorem Stored.tiers (h : catalog.Stored) {variantId : Option String} {row : OwnedRow}
    (hRow : row ∈ catalog.rowsFor variantId) :
    (row.tierPrices.map TierPrice.minQuantity).Nodup := by
  cases variantId with
  | none =>
      obtain ⟨stored, hStored, rfl⟩ := List.mem_map.mp hRow
      exact h.productTiers stored hStored
  | some variantId =>
      obtain ⟨stored, hStored, rfl⟩ := List.mem_map.mp hRow
      exact h.variantTiers stored hStored

theorem Stored.resolveListPrice_of_row (h : catalog.Stored) {productId : String}
    {variantId : Option String} {row : OwnedRow} (hRow : row ∈ catalog.rowsFor variantId)
    (hOwner : row.ownerId = variantId.getD productId) (quantity : Int) :
    catalog.resolveListPrice row.priceListId productId variantId quantity =
      .ok (selectEffectivePrice row.priceCents row.tierPrices quantity) := by
  cases variantId with
  | none =>
      obtain ⟨stored, hStored, rfl⟩ := List.mem_map.mp hRow
      obtain ⟨other, hFind⟩ : ∃ other, catalog.priceLists.find? (fun other =>
          other.productId = productId && other.id = stored.id) = some other := by
        rw [← Option.isSome_iff_exists, List.find?_isSome]
        have hOwn : stored.productId = productId := hOwner
        exact ⟨stored, hStored, by simp [hOwn]⟩
      have hKey := List.find?_some hFind
      simp only [Bool.and_eq_true, decide_eq_true_eq] at hKey
      obtain rfl := h.lists stored hStored other (List.mem_of_find?_eq_some hFind) hKey.2
      have hApplicable : catalog.findApplicablePrice productId none other.id quantity =
          some (selectEffectivePrice other.priceCents other.tierPrices quantity) := by
        rw [findApplicablePrice, hFind]
        rfl
      show catalog.resolveListPrice other.id productId none quantity = _
      rw [PriceCatalog.resolveListPrice, hApplicable]
      rfl
  | some variantId =>
      obtain ⟨stored, hStored, rfl⟩ := List.mem_map.mp hRow
      obtain ⟨other, hFind⟩ : ∃ other, catalog.variantPrices.find? (fun other =>
          other.variantId = variantId && other.priceListId = stored.priceListId) =
            some other := by
        rw [← Option.isSome_iff_exists, List.find?_isSome]
        have hOwn : stored.variantId = variantId := hOwner
        exact ⟨stored, hStored, by simp [hOwn]⟩
      have hKey := List.find?_some hFind
      simp only [Bool.and_eq_true, decide_eq_true_eq] at hKey
      obtain rfl := h.variants stored hStored other (List.mem_of_find?_eq_some hFind)
        (hKey.1.trans hOwner.symm) hKey.2
      have hApplicable : catalog.findApplicablePrice productId (some variantId)
          other.priceListId quantity =
          some (selectEffectivePrice other.priceCents other.tierPrices quantity) := by
        rw [findApplicablePrice, hFind]
        rfl
      show catalog.resolveListPrice other.priceListId productId (some variantId) quantity = _
      rw [PriceCatalog.resolveListPrice, hApplicable]
      rfl

/-- A price of the one-by-one path is that of a row with this price list. -/
theorem row_of_resolveListPrice {priceListId productId : String} {variantId : Option String}
    {quantity cents : Int}
    (h : catalog.resolveListPrice priceListId productId variantId quantity = .ok cents) :
    ∃ row ∈ catalog.rowsFor variantId, row.ownerId = variantId.getD productId ∧
      row.priceListId = priceListId := by
  rw [PriceCatalog.resolveListPrice] at h
  cases hApplicable : catalog.findApplicablePrice productId variantId priceListId quantity with
  | none =>
      rw [hApplicable] at h
      cases h
  | some resolved =>
      cases variantId with
      | none =>
          obtain ⟨row, hFind, _⟩ := Option.map_eq_some_iff.mp hApplicable
          have hKey := List.find?_some hFind
          simp only [Bool.and_eq_true, decide_eq_true_eq] at hKey
          exact ⟨row.owned, List.mem_map_of_mem (List.mem_of_find?_eq_some hFind), hKey.1, hKey.2⟩
      | some variantId =>
          obtain ⟨row, hFind, _⟩ := Option.map_eq_some_iff.mp hApplicable
          have hKey := List.find?_some hFind
          simp only [Bool.and_eq_true, decide_eq_true_eq] at hKey
          exact ⟨row.owned, List.mem_map_of_mem (List.mem_of_find?_eq_some hFind), hKey.1, hKey.2⟩

end

end PriceCatalog

/-! ### Every line gets its own price -/

/-- The line as its part of the batch sees it. -/
def PriceInput.listed (input : PriceInput) : Option ListedInput :=
  input.priceListId.map fun priceListId =>
    ⟨input.productId, input.variantId, input.variantId.getD input.productId, priceListId,
      input.quantity⟩

theorem mem_variantInputs {inputs : List PriceInput} {listed : ListedInput} :
    listed ∈ variantInputs inputs ↔
      ∃ input ∈ inputs, input.variantId ≠ none ∧ input.listed = some listed := by
  simp only [variantInputs, List.mem_filterMap]
  refine exists_congr fun input => and_congr_right fun _ => ?_
  cases hVariant : input.variantId <;> cases hList : input.priceListId <;>
    simp [PriceInput.listed, hVariant, hList]

theorem mem_productInputs {inputs : List PriceInput} {listed : ListedInput} :
    listed ∈ productInputs inputs ↔
      ∃ input ∈ inputs, input.variantId = none ∧ input.listed = some listed := by
  simp only [productInputs, List.mem_filterMap]
  refine exists_congr fun input => and_congr_right fun _ => ?_
  cases hVariant : input.variantId <;> cases hList : input.priceListId <;>
    simp [PriceInput.listed, hVariant, hList]

theorem PriceInput.owner_plain (input : PriceInput) :
    PlainId (input.variantId.getD input.productId) := by
  cases hVariant : input.variantId with
  | none => exact input.product_plain
  | some variantId => exact input.variant_plain variantId hVariant

/-- The key of a line tells its product, its variant and its list. -/
theorem outerKey_inj {input other : PriceInput} {priceListId priceListId' : String}
    (h : outerKey input.productId input.variantId priceListId =
      outerKey other.productId other.variantId priceListId') :
    input.productId = other.productId ∧ input.variantId = other.variantId ∧
      priceListId = priceListId' := by
  have hSplit : ∀ (input : PriceInput) (list : String),
      outerKey input.productId input.variantId list =
        input.productId ++ "::" ++ (input.variantId.getD "" ++ "::" ++ list) := by
    intro input list
    simp only [outerKey, String.append_assoc]
  have hColon : ∀ input : PriceInput, ':' ∉ (input.variantId.getD "").toList := by
    intro input
    cases hVariant : input.variantId with
    | none => simp
    | some variantId => exact (input.variant_plain variantId hVariant).2
  rw [hSplit, hSplit] at h
  obtain ⟨hProduct, hRest⟩ :=
    Dictionary.joined_inj input.product_plain.2 other.product_plain.2 h
  obtain ⟨hVariant, hList⟩ := Dictionary.joined_inj (hColon input) (hColon other) hRest
  refine ⟨hProduct, ?_, hList⟩
  cases hInput : input.variantId with
  | none =>
      cases hOther : other.variantId with
      | none => rfl
      | some variantId =>
          rw [hInput, hOther] at hVariant
          exact absurd hVariant.symm (other.variant_plain variantId hOther).1
  | some variantId =>
      cases hOther : other.variantId with
      | none =>
          rw [hInput, hOther] at hVariant
          exact absurd hVariant (input.variant_plain variantId hInput).1
      | some variantId' =>
          rw [hInput, hOther] at hVariant
          exact congrArg some hVariant

section

variable {catalog : PriceCatalog} {inputs : List PriceInput} {variantRows : List VariantRow}
  {productRows : List ProductRow}

/-- What a part of the batch writes: for each of its lines the price of the row of that line. -/
theorem mem_partEntries {rows found : List OwnedRow} {listed : List ListedInput}
    (hRows : OneForEach rows) (hPlain : ∀ input ∈ listed, PlainId input.ownerId)
    (hFound : ∀ row, row ∈ found ↔ row ∈ rows ∧ row.Wanted listed)
    {entry : (String × Int) × Int} :
    entry ∈ partEntries found listed ↔
      ∃ input ∈ listed, ∃ row ∈ rows, row.On input.ownerId input.priceListId ∧
        entry = input.entry row := by
  have hFoundRows : OneForEach found := by
    constructor
    · exact fun row hRow => hRows.plain row ((hFound row).mp hRow).1
    · exact fun row hRow other hOther =>
        hRows.one row ((hFound row).mp hRow).1 other ((hFound other).mp hOther).1
  simp only [partEntries, List.mem_filterMap, Option.map_eq_some_iff]
  refine exists_congr fun input => and_congr_right fun hInput => ?_
  have hOwner := hPlain input hInput
  constructor
  · rintro ⟨row, hGet, rfl⟩
    obtain ⟨hRow, hOn⟩ := (get_rowMap hFoundRows hOwner).mp hGet
    exact ⟨row, ((hFound row).mp hRow).1, hOn, rfl⟩
  · rintro ⟨row, hRow, hOn, rfl⟩
    exact ⟨row, (get_rowMap hFoundRows hOwner).mpr
      ⟨(hFound row).mpr ⟨hRow, wanted_of_on hPlain hInput hOn⟩, hOn⟩, rfl⟩

theorem plain_of_listed {listed : ListedInput} {input : PriceInput}
    (h : input.listed = some listed) : PlainId listed.ownerId := by
  obtain ⟨priceListId, _, rfl⟩ := Option.map_eq_some_iff.mp h
  exact input.owner_plain

/-- What the two loops write, one after the other. -/
def batchEntries (variantRows : List VariantRow) (productRows : List ProductRow)
    (inputs : List PriceInput) : List ((String × Int) × Int) :=
  partEntries (variantRows.map VariantRow.owned) (variantInputs inputs) ++
    partEntries (productRows.map ProductRow.owned) (productInputs inputs)

theorem batchResolvePriceMap_eq_foldl (variantRows : List VariantRow)
    (productRows : List ProductRow) (inputs : List PriceInput) :
    batchResolvePriceMap variantRows productRows inputs =
      (batchEntries variantRows productRows inputs).foldl PriceMap.put [] := by
  rw [batchEntries, List.foldl_append, batchResolvePriceMap]
  split
  · next hEmpty =>
      rw [List.isEmpty_iff.mp hEmpty]
      rfl
  · simp only [resolveInputs_eq_foldl]

/-- The entries of the batch are those of its lines, each with the row that prices it. -/
theorem mem_batchEntries (hStored : catalog.Stored)
    (hFound : catalog.Found inputs variantRows productRows) {entry : (String × Int) × Int} :
    entry ∈ batchEntries variantRows productRows inputs ↔
      ∃ input ∈ inputs, ∃ listed row, input.listed = some listed ∧ catalog.Prices input row ∧
        entry = listed.entry row := by
  have hVariants : ∀ row, row ∈ variantRows.map VariantRow.owned ↔
      row ∈ catalog.variantPrices.map VariantRow.owned ∧ row.Wanted (variantInputs inputs) := by
    intro row
    rw [(hFound.variants.map _).mem_iff]
    simp only [List.mem_map, List.mem_filter, decide_eq_true_eq]
    constructor
    · rintro ⟨stored, ⟨hIn, hWanted⟩, rfl⟩
      exact ⟨⟨stored, hIn, rfl⟩, hWanted⟩
    · rintro ⟨⟨stored, hIn, rfl⟩, hWanted⟩
      exact ⟨stored, ⟨hIn, hWanted⟩, rfl⟩
  have hProducts : ∀ row, row ∈ productRows.map ProductRow.owned ↔
      row ∈ catalog.priceLists.map ProductRow.owned ∧ row.Wanted (productInputs inputs) := by
    intro row
    rw [(hFound.products.map _).mem_iff]
    simp only [List.mem_map, List.mem_filter, decide_eq_true_eq]
    constructor
    · rintro ⟨stored, ⟨hIn, hWanted⟩, rfl⟩
      exact ⟨⟨stored, hIn, rfl⟩, hWanted⟩
    · rintro ⟨⟨stored, hIn, rfl⟩, hWanted⟩
      exact ⟨stored, ⟨hIn, hWanted⟩, rfl⟩
  have hVariantPlain : ∀ listed ∈ variantInputs inputs, PlainId listed.ownerId := by
    intro listed hListed
    obtain ⟨_, _, _, hOf⟩ := mem_variantInputs.mp hListed
    exact plain_of_listed hOf
  have hProductPlain : ∀ listed ∈ productInputs inputs, PlainId listed.ownerId := by
    intro listed hListed
    obtain ⟨_, _, _, hOf⟩ := mem_productInputs.mp hListed
    exact plain_of_listed hOf
  rw [batchEntries, List.mem_append,
    mem_partEntries (hStored.oneForEach (some "")) hVariantPlain hVariants,
    mem_partEntries (hStored.oneForEach none) hProductPlain hProducts]
  constructor
  · rintro (⟨listed, hListed, row, hRow, hOn, rfl⟩ | ⟨listed, hListed, row, hRow, hOn, rfl⟩)
    · obtain ⟨input, hInput, hVariant, hOf⟩ := mem_variantInputs.mp hListed
      obtain ⟨variantId, hVariant⟩ := Option.ne_none_iff_exists'.mp hVariant
      obtain ⟨priceListId, hList, rfl⟩ := Option.map_eq_some_iff.mp hOf
      refine ⟨input, hInput, _, row, hOf, ⟨priceListId, hList, ?_, hOn⟩, rfl⟩
      rw [hVariant]
      exact hRow
    · obtain ⟨input, hInput, hVariant, hOf⟩ := mem_productInputs.mp hListed
      obtain ⟨priceListId, hList, rfl⟩ := Option.map_eq_some_iff.mp hOf
      refine ⟨input, hInput, _, row, hOf, ⟨priceListId, hList, ?_, hOn⟩, rfl⟩
      rw [hVariant]
      exact hRow
  · rintro ⟨input, hInput, listed, row, hOf, ⟨priceListId, hList, hRow, hOn⟩, rfl⟩
    obtain ⟨priceListId', hList', rfl⟩ := Option.map_eq_some_iff.mp hOf
    obtain rfl := Option.some.inj (hList.symm.trans hList')
    by_cases hVariant : input.variantId = none
    · rw [hVariant] at hRow
      exact .inr ⟨_, mem_productInputs.mpr ⟨input, hInput, hVariant, hOf⟩, row, hRow, hOn, rfl⟩
    · obtain ⟨variantId, hSome⟩ := Option.ne_none_iff_exists'.mp hVariant
      rw [hSome] at hRow
      exact .inl ⟨_, mem_variantInputs.mpr ⟨input, hInput, hVariant, hOf⟩, row, hRow, hOn, rfl⟩

theorem prices_of_same_key (hStored : catalog.Stored) {input other : PriceInput}
    {priceListId priceListId' : String} {row row' : OwnedRow}
    (hList : input.priceListId = some priceListId)
    (hList' : other.priceListId = some priceListId')
    (hKey : outerKey input.productId input.variantId priceListId =
      outerKey other.productId other.variantId priceListId')
    (hRow : catalog.Prices input row) (hRow' : catalog.Prices other row') : row = row' := by
  obtain ⟨hProduct, hVariant, rfl⟩ := outerKey_inj hKey
  obtain ⟨list, hNamed, hIn, hOn⟩ := hRow
  obtain ⟨list', hNamed', hIn', hOn'⟩ := hRow'
  obtain rfl := Option.some.inj (hList.symm.trans hNamed)
  obtain rfl := Option.some.inj (hList'.symm.trans hNamed')
  rw [← hVariant] at hIn' hOn'
  rw [← hProduct] at hOn'
  exact (hStored.oneForEach input.variantId).one row hIn row' hIn' _ _ hOn hOn'

/-- The batch never writes two prices under one key and quantity. -/
theorem batchEntries_agree (hStored : catalog.Stored)
    (hFound : catalog.Found inputs variantRows productRows) :
    ∀ entry ∈ batchEntries variantRows productRows inputs,
      ∀ other ∈ batchEntries variantRows productRows inputs,
        entry.1 = other.1 → entry.2 = other.2 := by
  intro entry hEntry other hOther hSame
  obtain ⟨input, _, _, row, hOf, hPrices, rfl⟩ := (mem_batchEntries hStored hFound).mp hEntry
  obtain ⟨input', _, _, row', hOf', hPrices', rfl⟩ := (mem_batchEntries hStored hFound).mp hOther
  obtain ⟨priceListId, hList, rfl⟩ := Option.map_eq_some_iff.mp hOf
  obtain ⟨priceListId', hList', rfl⟩ := Option.map_eq_some_iff.mp hOf'
  obtain ⟨hKey, hQuantity⟩ := Prod.mk.inj hSame
  have hRow := prices_of_same_key hStored hList hList' hKey hPrices hPrices'
  show selectEffectivePrice row.priceCents row.tierPrices input.quantity =
    selectEffectivePrice row'.priceCents row'.tierPrices input'.quantity
  rw [hRow]
  exact congrArg _ hQuantity

/-- The price that the batch gives a line is that of the row that prices it. -/
theorem priceOf_batch_iff (hStored : catalog.Stored)
    (hFound : catalog.Found inputs variantRows productRows) {input : PriceInput}
    (hInput : input ∈ inputs) {cents : Int} :
    (batchResolvePriceMap variantRows productRows inputs).priceOf input = some cents ↔
      ∃ row, catalog.Prices input row ∧
        cents = selectEffectivePrice row.priceCents row.tierPrices input.quantity := by
  rw [PriceMap.priceOf, Option.bind_eq_some_iff, batchResolvePriceMap_eq_foldl]
  constructor
  · rintro ⟨priceListId, hList, hRead⟩
    rw [Dictionary.read_foldl_iff PriceMap.find_put (batchEntries_agree hStored hFound)
      (fun _ => rfl), mem_batchEntries hStored hFound] at hRead
    obtain ⟨other, _, _, row, hOf, hPrices, hEntry⟩ := hRead
    obtain ⟨priceListId', hList', rfl⟩ := Option.map_eq_some_iff.mp hOf
    obtain ⟨hSame, hCents⟩ := Prod.mk.inj hEntry
    obtain ⟨hKey, hQuantity⟩ := Prod.mk.inj hSame
    obtain ⟨hProduct, hVariant, rfl⟩ := outerKey_inj hKey
    obtain ⟨list, hNamed, hIn, hOn⟩ := hPrices
    obtain rfl := Option.some.inj (hList'.symm.trans hNamed)
    rw [← hVariant] at hIn hOn
    rw [← hProduct] at hOn
    refine ⟨row, ⟨priceListId, hList, hIn, hOn⟩, ?_⟩
    rw [hCents, hQuantity]
  · rintro ⟨row, hPrices, rfl⟩
    obtain ⟨priceListId, hList, _⟩ := id hPrices
    refine ⟨priceListId, hList, ?_⟩
    rw [Dictionary.read_foldl_iff PriceMap.find_put (batchEntries_agree hStored hFound)
      (fun _ => rfl), mem_batchEntries hStored hFound]
    let listed : ListedInput := ⟨input.productId, input.variantId,
      input.variantId.getD input.productId, priceListId, input.quantity⟩
    have hListed : input.listed = some listed := by
      rw [PriceInput.listed, hList]
      rfl
    exact ⟨input, hInput, listed, row, hListed, hPrices, rfl⟩

/-- A line that names a price list itself gets what the one-by-one path gives. -/
theorem priceOf_batch_eq_resolveListPrice (hStored : catalog.Stored)
    (hFound : catalog.Found inputs variantRows productRows) {input : PriceInput}
    (hInput : input ∈ inputs) {priceListId : String} (hList : input.priceListId = some priceListId)
    (hOwn : ∀ row ∈ catalog.rowsFor input.variantId, row.globalPriceListId ≠ priceListId)
    {cents : Int} :
    (batchResolvePriceMap variantRows productRows inputs).priceOf input = some cents ↔
      catalog.resolveListPrice priceListId input.productId input.variantId input.quantity =
        .ok cents := by
  rw [priceOf_batch_iff hStored hFound hInput]
  constructor
  · rintro ⟨row, ⟨list, hNamed, hIn, hOwner, hOn⟩, rfl⟩
    obtain rfl := Option.some.inj (hList.symm.trans hNamed)
    have hSame : row.priceListId = priceListId := hOn.resolve_right (hOwn row hIn)
    rw [← hSame]
    exact hStored.resolveListPrice_of_row hIn hOwner input.quantity
  · intro hOk
    obtain ⟨row, hIn, hOwner, hSame⟩ := PriceCatalog.row_of_resolveListPrice hOk
    refine ⟨row, ⟨priceListId, hList, hIn, hOwner, .inl hSame⟩, ?_⟩
    rw [← hSame, hStored.resolveListPrice_of_row hIn hOwner] at hOk
    exact (Except.ok.inj hOk).symm

/-- The price of a line in a batch is the one that its list gives the item at that quantity by
the one-by-one path: that of the highest tier that is reached, else the base price. A line without
a price is one whose item has no row for the list, under the id of the row's price list or under
that of the global list behind it. -/
theorem batchResolvePriceMap_spec (hStored : catalog.Stored)
    (hFound : catalog.Found inputs variantRows productRows) {input : PriceInput}
    (hInput : input ∈ inputs) :
    (∀ cents, (batchResolvePriceMap variantRows productRows inputs).priceOf input = some cents ↔
      ∃ row, catalog.Prices input row ∧ row.Costs input.quantity cents ∧
        catalog.resolveListPrice row.priceListId input.productId input.variantId input.quantity =
          .ok cents) ∧
    ((batchResolvePriceMap variantRows productRows inputs).priceOf input = none ↔
      ∀ row, ¬ catalog.Prices input row) ∧
    ∀ priceListId, input.priceListId = some priceListId →
      (∀ row ∈ catalog.rowsFor input.variantId, row.globalPriceListId ≠ priceListId) →
      ∀ cents, (batchResolvePriceMap variantRows productRows inputs).priceOf input = some cents ↔
        catalog.resolveListPrice priceListId input.productId input.variantId input.quantity =
          .ok cents := by
  refine ⟨fun cents => ?_, ⟨fun hNone row hPrices => ?_, fun hAbsent => ?_⟩,
    fun priceListId hList hOwn cents =>
      priceOf_batch_eq_resolveListPrice hStored hFound hInput hList hOwn⟩
  · rw [priceOf_batch_iff hStored hFound hInput]
    refine exists_congr fun row => and_congr_right fun hPrices => ?_
    obtain ⟨_, _, hIn, hOn⟩ := hPrices
    constructor
    · rintro rfl
      exact ⟨selectEffectivePrice_costs row input.quantity,
        hStored.resolveListPrice_of_row hIn hOn.1 input.quantity⟩
    · rintro ⟨hCosts, _⟩
      exact hCosts.unique (hStored.tiers hIn) (selectEffectivePrice_costs row input.quantity)
  · have hSome := (priceOf_batch_iff hStored hFound hInput).mpr ⟨row, hPrices, rfl⟩
    rw [hNone] at hSome
    cases hSome
  · rw [Option.eq_none_iff_forall_ne_some]
    intro cents hSome
    obtain ⟨row, hPrices, _⟩ := (priceOf_batch_iff hStored hFound hInput).mp hSome
    exact hAbsent row hPrices

end

/-- Shirts on two lists, by the dozen cheaper on the first, and a variant of the caps. -/
def storedPrices : PriceCatalog where
  priceLists := [
    ⟨"shirt", "shirt-public", "public", 100, [⟨12, 80⟩, ⟨50, 0⟩]⟩,
    ⟨"shirt", "shirt-trade", "trade", 90, []⟩,
    ⟨"cap", "cap-public", "public", 70, []⟩]
  variantPrices := [⟨"cap-red", "cap-public", "public", 75, [⟨2, 60⟩]⟩]

theorem storedPrices_stored : storedPrices.Stored where
  lists := by decide
  variants := by decide
  listsApart := by decide
  variantsApart := by decide
  plainProducts := by decide
  plainVariants := by decide
  globals := by decide
  owned := ⟨fun _ => "cap", by decide⟩
  productTiers := by decide
  variantTiers := by decide

/-- A line of the samples. -/
def pricedLine (productId : String) (variantId : Option String) (priceListId : String)
    (quantity : Int) (product_plain : PlainId productId)
    (variant_plain : ∀ id ∈ variantId, PlainId id) (list_plain : PlainId priceListId) :
    PriceInput where
  productId := productId
  variantId := variantId
  priceListId := some priceListId
  quantity := quantity
  product_plain := product_plain
  variant_plain := fun id hId => variant_plain id hId
  list_plain := fun _ hId => Option.some.inj hId ▸ list_plain

/-- Shirts at three quantities, on a list of their own and on global ones, and a red cap. -/
def pricedLines : List PriceInput := [
  pricedLine "shirt" none "shirt-public" 11 (by decide) (by decide) (by decide),
  pricedLine "shirt" none "public" 60 (by decide) (by decide) (by decide),
  pricedLine "shirt" none "trade" 60 (by decide) (by decide) (by decide),
  pricedLine "cap" (some "cap-red") "public" 2 (by decide) (by decide) (by decide),
  pricedLine "cap" (some "cap-red") "trade" 2 (by decide) (by decide) (by decide)]

/-- Sixty shirts on the public list cost what the tier of the dozen gives, as one by one. -/
theorem batchResolvePriceMap_spec_of_lines :
    (batchResolvePriceMap storedPrices.variantPrices storedPrices.priceLists.dropLast
      pricedLines).priceOf
        (pricedLine "shirt" none "public" 60 (by decide) (by decide) (by decide)) = some 80 ∧
    ∃ row : OwnedRow, storedPrices.resolveListPrice row.priceListId "shirt" none 60 = .ok 80 ∧
      row.Costs 60 80 := by
  have hFound : storedPrices.Found pricedLines storedPrices.variantPrices
      storedPrices.priceLists.dropLast := by
    constructor
    · exact List.Perm.of_eq (by decide +kernel)
    · exact List.Perm.of_eq (by decide +kernel)
  have hPrice : (batchResolvePriceMap storedPrices.variantPrices
      storedPrices.priceLists.dropLast pricedLines).priceOf
        (pricedLine "shirt" none "public" 60 (by decide) (by decide) (by decide)) = some 80 := by
    decide +kernel
  obtain ⟨row, _, hCosts, hOneByOne⟩ := ((batchResolvePriceMap_spec storedPrices_stored hFound
    (List.mem_cons_of_mem _ List.mem_cons_self)).1 80).mp hPrice
  exact ⟨hPrice, row, hOneByOne, hCosts⟩

end Houndfe.Products
