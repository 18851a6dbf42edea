import Houndfe.Base.Keyed
import Houndfe.Products.SaleInfo

/-! Prices resolved in a batch: rows of both tables are read once for all lines, kept under
string keys and handed out again. -/

namespace Houndfe.Products

/-! ### The batch -/

/-- An id of the catalog; of the text of a uuid the keys need that it holds no colon. -/
def PlainId (id : String) : Prop :=
  id ≠ "" ∧ ':' ∉ id.toList

instance (id : String) : Decidable (PlainId id) :=
  inferInstanceAs (Decidable (_ ∧ _))

/-- A line to price. The ids are those of rows of the catalog. -/
structure PriceInput where
  productId : String
  variantId : Option String
  priceListId : Option String
  quantity : Int
  product_plain : PlainId productId
  variant_plain : ∀ id, variantId = some id → PlainId id
  list_plain : ∀ id, priceListId = some id → PlainId id

/-- What the two queries select of a row: the variant or the product it prices, the price list and
the global list behind it. -/
structure OwnedRow where
  ownerId : String
  priceListId : String
  globalPriceListId : String
  priceCents : Int
  tierPrices : List TierPrice
  deriving DecidableEq, Repr

def VariantRow.owned (row : VariantRow) : OwnedRow :=
  ⟨row.variantId, row.priceListId, row.globalPriceListId, row.priceCents, row.tierPrices⟩

def ProductRow.owned (row : ProductRow) : OwnedRow :=
  ⟨row.productId, row.id, row.globalPriceListId, row.priceCents, row.tierPrices⟩

/-- A line of one of the two parts: what it prices, and on which list. -/
structure ListedInput where
  productId : String
  variantId : Option String
  ownerId : String
  priceListId : String
  quantity : Int
  deriving DecidableEq, Repr

/-- `variantInputs`. -/
def variantInputs (inputs : List PriceInput) : List ListedInput :=
  inputs.filterMap fun input =>
    match input.variantId, input.priceListId with
    | some variantId, some priceListId =>
        some ⟨input.productId, some variantId, variantId, priceListId, input.quantity⟩
    | _, _ => none

/-- `productInputs`. -/
def productInputs (inputs : List PriceInput) : List ListedInput :=
  inputs.filterMap fun input =>
    match input.variantId, input.priceListId with
    | none, some priceListId =>
        some ⟨input.productId, none, input.productId, priceListId, input.quantity⟩
    | _, _ => none

/-- The key of an owner on a list, for the pairs to ask for and for the rows. -/
def rowKey (ownerId priceListId : String) : String :=
  ownerId ++ "::" ++ priceListId

/-- The distinct pairs of an owner and a list that the lines ask for. -/
def pairKeys (inputs : List ListedInput) : List (String × String × String) :=
  inputs.foldl (fun keys input =>
    match Dictionary.get keys (rowKey input.ownerId input.priceListId) with
    | some _ => keys
    | none => Dictionary.set keys (rowKey input.ownerId input.priceListId)
        (input.ownerId, input.priceListId)) []

/-- The `OR` of the query: the list may be the price list itself or the global list behind it. -/
def OwnedRow.Wanted (inputs : List ListedInput) (row : OwnedRow) : Prop :=
  ∃ entry ∈ pairKeys inputs, row.ownerId = entry.2.1 ∧
    (row.priceListId = entry.2.2 ∨ row.globalPriceListId = entry.2.2)

instance (inputs : List ListedInput) (row : OwnedRow) : Decidable (row.Wanted inputs) :=
  inferInstanceAs (Decidable (∃ entry ∈ _, _))

/-- The rows under the keys of both their lists. -/
def rowMap (rows : List OwnedRow) : List (String × OwnedRow) :=
  rows.foldl (fun map row =>
    Dictionary.set (Dictionary.set map (rowKey row.ownerId row.priceListId) row)
      (rowKey row.ownerId row.globalPriceListId) row) []

/-- Resolved prices, by the key of a line and by its quantity. -/
abbrev PriceMap := List (String × List (Int × Int))

/-- The key of a line in the result. -/
def outerKey (productId : String) (variantId : Option String) (priceListId : String) : String :=
  productId ++ "::" ++ variantId.getD "" ++ "::" ++ priceListId

/-- `outer.get(key) ?? new Map()`, with one more quantity. -/
def PriceMap.put (outer : PriceMap) (entry : (String × Int) × Int) : PriceMap :=
  let inner := (Dictionary.get outer entry.1.1).getD []
  Dictionary.set outer entry.1.1 (Dictionary.set inner entry.1.2 entry.2)

/-- `outer.get(key)?.get(quantity)`. -/
def PriceMap.find (outer : PriceMap) (key : String × Int) : Option Int :=
  (Dictionary.get outer key.1).bind fun inner => Dictionary.get inner key.2

/-- The loop over the lines of one part. -/
def resolveInputs (rows : List OwnedRow) (outer : PriceMap) (inputs : List ListedInput) :
    PriceMap :=
  let map := rowMap rows
  inputs.foldl (fun outer input =>
    match Dictionary.get map (rowKey input.ownerId input.priceListId) with
    | none => outer
    | some row => outer.put
        ((outerKey input.productId input.variantId input.priceListId, input.quantity),
          selectEffectivePrice row.priceCents row.tierPrices input.quantity)) outer

/-- `variantRows` and `productRows` are what the two queries found. -/
def batchResolvePriceMap (variantRows : List VariantRow) (productRows : List ProductRow)
    (inputs : List PriceInput) : PriceMap :=
  if inputs.isEmpty then []
  else
    let outer := resolveInputs (variantRows.map VariantRow.owned) [] (variantInputs inputs)
    resolveInputs (productRows.map ProductRow.owned) outer (productInputs inputs)

/-- What a caller reads of the result for one line. -/
def PriceMap.priceOf (outer : PriceMap) (input : PriceInput) : Option Int :=
  input.priceListId.bind fun priceListId =>
    outer.find (outerKey input.productId input.variantId priceListId, input.quantity)

/-! ### The price of one item -/

namespace PriceCatalog

end PriceCatalog

/-! ### The price of a row -/

/-- The price of a row at a quantity: that of the highest tier that is reached and has a price,
else the price of the list. -/
inductive OwnedRow.Costs (row : OwnedRow) (quantity : Int) : Int → Prop where
  | tier {tier : TierPrice} (member : tier ∈ row.tierPrices)
      (reached : tier.minQuantity ≤ quantity) (priced : 0 < tier.priceCents)
      (highest : ∀ other ∈ row.tierPrices, other.minQuantity ≤ quantity → 0 < other.priceCents →
        other.minQuantity ≤ tier.minQuantity) : Costs row quantity tier.priceCents
  | base (unreached : ∀ tier ∈ row.tierPrices, tier.minQuantity ≤ quantity →
      ¬ 0 < tier.priceCents) : Costs row quantity row.priceCents

theorem selectEffectivePrice_costs (row : OwnedRow) (quantity : Int) :
    row.Costs quantity (selectEffectivePrice row.priceCents row.tierPrices quantity) := by
  have hMem : ∀ tier, tier ∈ (row.tierPrices.filter fun tier =>
      tier.minQuantity ≤ quantity ∧ 0 < tier.priceCents).insertionSort
        (fun a b => b.minQuantity ≤ a.minQuantity) ↔
      tier ∈ row.tierPrices ∧ tier.minQuantity ≤ quantity ∧ 0 < tier.priceCents := by
    intro tier
    rw [List.mem_insertionSort, List.mem_filter, decide_eq_true_eq]
  have hSorted := List.pairwise_insertionSort
    (fun a b : TierPrice => b.minQuantity ≤ a.minQuantity) (row.tierPrices.filter fun tier =>
      tier.minQuantity ≤ quantity ∧ 0 < tier.priceCents)
  unfold selectEffectivePrice
  dsimp only
  split
  · next hNone =>
      rw [hNone] at hMem
      exact .base fun tier hTier hReached hPriced =>
        absurd ((hMem tier).mpr ⟨hTier, hReached, hPriced⟩) (List.not_mem_nil)
  · next tier rest hFirst =>
      rw [hFirst] at hMem hSorted
      obtain ⟨hTier, hReached, hPriced⟩ := (hMem tier).mp List.mem_cons_self
      refine .tier hTier hReached hPriced fun other hOther hOtherReached hOtherPriced => ?_
      rcases List.mem_cons.mp ((hMem other).mpr ⟨hOther, hOtherReached, hOtherPriced⟩) with
        rfl | hRest
      · exact le_refl _
      · exact (List.pairwise_cons.mp hSorted).1 other hRest

/-- Tiers with distinct thresholds leave one price. -/
theorem OwnedRow.Costs.unique {row : OwnedRow} {quantity cents cents' : Int}
    (hTiers : (row.tierPrices.map TierPrice.minQuantity).Nodup) (h : row.Costs quantity cents)
    (h' : row.Costs quantity cents') : cents = cents' := by
  cases h with
  | @tier tier hTier hReached hPriced hHighest =>
      cases h' with
      | @tier tier' hTier' hReached' hPriced' hHighest' =>
          have hSame := le_antisymm (hHighest' tier hTier hReached hPriced)
            (hHighest tier' hTier' hReached' hPriced')
          rw [List.inj_on_of_nodup_map hTiers hTier hTier' hSame]
      | base hUnreached => exact absurd hPriced (hUnreached tier hTier hReached)
  | base hUnreached =>
      cases h' with
      | @tier tier' hTier' hReached' hPriced' _ =>
          exact absurd hPriced' (hUnreached tier' hTier' hReached')
      | base _ => rfl

/-! ### The rows that were found -/

/-- A row that prices this owner on this list, which is its own or the global one behind it. -/
def OwnedRow.On (row : OwnedRow) (ownerId priceListId : String) : Prop :=
  row.ownerId = ownerId ∧ (row.priceListId = priceListId ∨ row.globalPriceListId = priceListId)

/-- Rows with plain ids, one for an owner and a list. -/
structure OneForEach (rows : List OwnedRow) : Prop where
  plain : ∀ row ∈ rows, PlainId row.ownerId
  one : ∀ row ∈ rows, ∀ other ∈ rows, ∀ ownerId priceListId,
    row.On ownerId priceListId → other.On ownerId priceListId → row = other

theorem rowKey_inj {ownerId ownerId' priceListId priceListId' : String}
    (hOwner : PlainId ownerId) (hOwner' : PlainId ownerId')
    (h : rowKey ownerId priceListId = rowKey ownerId' priceListId') :
    ownerId = ownerId' ∧ priceListId = priceListId' :=
  Dictionary.joined_inj hOwner.2 hOwner'.2 h

/-- The rows are found under the keys of their two lists, and under no other. -/
theorem get_rowMap {rows : List OwnedRow} (hRows : OneForEach rows) {ownerId priceListId : String}
    (hOwner : PlainId ownerId) {row : OwnedRow} :
    Dictionary.get (rowMap rows) (rowKey ownerId priceListId) = some row ↔
      row ∈ rows ∧ row.On ownerId priceListId := by
  -- a row writes two entries, one after the other
  have hFold : rowMap rows = (rows.flatMap fun row =>
      [(rowKey row.ownerId row.priceListId, row),
        (rowKey row.ownerId row.globalPriceListId, row)]).foldl
      (fun map entry => Dictionary.set map entry.1 entry.2) [] := by
    rw [List.foldl_flatMap]
    rfl
  have hEntry : ∀ entry : String × OwnedRow, (entry ∈ rows.flatMap fun row =>
      [(rowKey row.ownerId row.priceListId, row),
        (rowKey row.ownerId row.globalPriceListId, row)]) ↔
      entry.2 ∈ rows ∧ (entry.1 = rowKey entry.2.ownerId entry.2.priceListId ∨
        entry.1 = rowKey entry.2.ownerId entry.2.globalPriceListId) := by
    rintro ⟨key, row⟩
    simp only [List.mem_flatMap, List.mem_cons, List.not_mem_nil, or_false, Prod.mk.injEq]
    constructor
    · rintro ⟨_, hRow, ⟨rfl, rfl⟩ | ⟨rfl, rfl⟩⟩
      · exact ⟨hRow, .inl rfl⟩
      · exact ⟨hRow, .inr rfl⟩
    · rintro ⟨hRow, rfl | rfl⟩
      · exact ⟨row, hRow, .inl ⟨rfl, rfl⟩⟩
      · exact ⟨row, hRow, .inr ⟨rfl, rfl⟩⟩
  -- under one key there is one owner on one list
  have hOn : ∀ row ∈ rows, ∀ ownerId priceListId, PlainId ownerId →
      ((rowKey ownerId priceListId = rowKey row.ownerId row.priceListId ∨
        rowKey ownerId priceListId = rowKey row.ownerId row.globalPriceListId) ↔
        row.On ownerId priceListId) := by
    intro row hRow ownerId priceListId hPlain
    constructor
    · rintro (hKey | hKey)
      · obtain ⟨rfl, rfl⟩ := rowKey_inj hPlain (hRows.plain row hRow) hKey
        exact ⟨rfl, .inl rfl⟩
      · obtain ⟨rfl, rfl⟩ := rowKey_inj hPlain (hRows.plain row hRow) hKey
        exact ⟨rfl, .inr rfl⟩
    · rintro ⟨rfl, rfl | rfl⟩
      · exact .inl rfl
      · exact .inr rfl
  have hAgree : ∀ entry ∈ rows.flatMap (fun row =>
      [(rowKey row.ownerId row.priceListId, row), (rowKey row.ownerId row.globalPriceListId, row)]),
      ∀ other ∈ rows.flatMap (fun row => [(rowKey row.ownerId row.priceListId, row),
        (rowKey row.ownerId row.globalPriceListId, row)]),
      entry.1 = other.1 → entry.2 = other.2 := by
    intro entry hIn other hOther hSame
    obtain ⟨hRow, hKey⟩ := (hEntry entry).mp hIn
    obtain ⟨hOtherRow, hOtherKey⟩ := (hEntry other).mp hOther
    have hPlain := hRows.plain _ hRow
    rcases hKey with hKey | hKey
    · exact hRows.one _ hRow _ hOtherRow _ _ ⟨rfl, .inl rfl⟩
        ((hOn _ hOtherRow _ _ hPlain).mp (hKey ▸ hSame ▸ hOtherKey))
    · exact hRows.one _ hRow _ hOtherRow _ _ ⟨rfl, .inr rfl⟩
        ((hOn _ hOtherRow _ _ hPlain).mp (hKey ▸ hSame ▸ hOtherKey))
  rw [hFold, Dictionary.read_foldl_iff (fun map entry k => Dictionary.get_set) hAgree
    (fun _ => rfl), hEntry]
  exact and_congr_right fun hRow => hOn row hRow ownerId priceListId hOwner

theorem get_pairKeys {inputs : List ListedInput} (hPlain : ∀ input ∈ inputs, PlainId input.ownerId)
    {input : ListedInput} (hInput : input ∈ inputs) :
    Dictionary.get (pairKeys inputs) (rowKey input.ownerId input.priceListId) =
      some (input.ownerId, input.priceListId) := by
  have hKept : (∀ key pair, Dictionary.get (pairKeys inputs) key = some pair →
      key = rowKey pair.1 pair.2 ∧ PlainId pair.1) ∧ ∀ input ∈ inputs,
      Dictionary.get (pairKeys inputs) (rowKey input.ownerId input.priceListId) =
        some (input.ownerId, input.priceListId) := by
    clear hInput
    induction inputs using List.reverseRecOn with
    | nil => simp [pairKeys]
    | append_singleton inputs last ih =>
        obtain ⟨hKeys, hAsked⟩ := ih fun input hIn => hPlain input (List.mem_append_left _ hIn)
        have hLast := hPlain last (by simp)
        have hStep : pairKeys (inputs ++ [last]) =
            match Dictionary.get (pairKeys inputs) (rowKey last.ownerId last.priceListId) with
            | some _ => pairKeys inputs
            | none => Dictionary.set (pairKeys inputs) (rowKey last.ownerId last.priceListId)
                (last.ownerId, last.priceListId) := by
          simp only [pairKeys, List.foldl_append, List.foldl_cons, List.foldl_nil]
        rw [hStep]
        cases hGet : Dictionary.get (pairKeys inputs) (rowKey last.ownerId last.priceListId) with
        | some pair =>
            refine ⟨hKeys, fun input hIn => ?_⟩
            rcases List.mem_append.mp hIn with hIn | hIn
            · exact hAsked input hIn
            · obtain rfl := List.mem_singleton.mp hIn
              obtain ⟨hKey, hPair⟩ := hKeys _ _ hGet
              obtain ⟨hOwner, hList⟩ := rowKey_inj hLast hPair hKey
              rw [hGet, hOwner, hList]
        | none =>
            dsimp only
            refine ⟨fun key pair hFound => ?_, fun input hIn => ?_⟩
            · rw [Dictionary.get_set] at hFound
              split at hFound
              · next hKey =>
                  cases hFound
                  exact ⟨hKey.symm, hLast⟩
              · exact hKeys key pair hFound
            · rw [Dictionary.get_set]
              rcases List.mem_append.mp hIn with hIn | hIn
              · rw [if_neg, hAsked input hIn]
                intro hKey
                rw [hKey, hAsked input hIn] at hGet
                cases hGet
              · rw [List.mem_singleton.mp hIn, if_pos rfl]
  exact hKept.2 input hInput

theorem wanted_of_on {inputs : List ListedInput} (hPlain : ∀ input ∈ inputs, PlainId input.ownerId)
    {input : ListedInput} (hInput : input ∈ inputs) {row : OwnedRow}
    (hOn : row.On input.ownerId input.priceListId) : row.Wanted inputs := by
  obtain ⟨entry, hEntry, hPair⟩ := Option.map_eq_some_iff.mp (get_pairKeys hPlain hInput)
  obtain ⟨hIn, _⟩ := Keyed.lookup_eq_some hEntry
  refine ⟨entry, hIn, ?_⟩
  rw [hPair]
  exact hOn

/-! ### The prices of the batch -/

theorem PriceMap.find_put (outer : PriceMap) (entry : (String × Int) × Int) (key : String × Int) :
    (outer.put entry).find key = if entry.1 = key then some entry.2 else outer.find key := by
  obtain ⟨⟨outerKey, quantity⟩, cents⟩ := entry
  obtain ⟨outerKey', quantity'⟩ := key
  simp only [PriceMap.put, PriceMap.find, Dictionary.get_set, Prod.mk.injEq]
  by_cases hKey : outerKey = outerKey'
  · subst hKey
    rw [if_pos rfl, Option.bind_some, Dictionary.get_set]
    by_cases hQuantity : quantity = quantity'
    · rw [if_pos hQuantity, if_pos ⟨rfl, hQuantity⟩]
    · rw [if_neg hQuantity, if_neg fun h => hQuantity h.2]
      cases Dictionary.get outer outerKey <;> rfl
  · rw [if_neg hKey, if_neg fun h => hKey h.1]

/-- What the loop writes for a line. -/
def ListedInput.entry (input : ListedInput) (row : OwnedRow) : (String × Int) × Int :=
  ((outerKey input.productId input.variantId input.priceListId, input.quantity),
    selectEffectivePrice row.priceCents row.tierPrices input.quantity)

/-- What the loop over one part writes. -/
def partEntries (rows : List OwnedRow) (inputs : List ListedInput) :
    List ((String × Int) × Int) :=
  inputs.filterMap fun input =>
    (Dictionary.get (rowMap rows) (rowKey input.ownerId input.priceListId)).map input.entry

theorem resolveInputs_eq_foldl (rows : List OwnedRow) (outer : PriceMap)
    (inputs : List ListedInput) :
    resolveInputs rows outer inputs = (partEntries rows inputs).foldl PriceMap.put outer := by
  rw [resolveInputs, partEntries, List.foldl_filterMap]
  congr 1
  funext outer input
  cases Dictionary.get (rowMap rows) (rowKey input.ownerId input.priceListId) <;> rfl

end Houndfe.Products
