import Houndfe.Base.KeyedTable
import Houndfe.Shipping.QuoteService

/-! A stored quote and the checkout that presents it: the row keeps the lines and the place as
JSON, and what is read back is compared with the customer, the lines and the address of the sale. -/

namespace Houndfe.Shipping

/-! ### The table of quotes -/

/-- A row of `shipping_quotes`; its columns of the zone, the option and the box are not read. -/
structure ShippingQuoteRow where
  id : String
  tenantId : String
  tokenHash : String
  phoneCountryCode : String
  phone : String
  lines : Json
  destination : Json
  charge : ShippingCharge
  currency : String
  expiresAt : Int

def PricedQuoteLine.json (line : PricedQuoteLine) : Json :=
  .object [("productId", .string line.line.productId),
    ("variantId", textOrNull line.line.variantId), ("quantity", .number line.line.quantity),
    ("finalPriceCents", .number line.finalPriceCents)]

def QuoteDestinationSnapshot.json (destination : QuoteDestinationSnapshot) : Json :=
  .object [
    ("source", .string (if destination.shippingAddressId.isSome then "ADDRESS" else "INPUT")),
    ("shippingAddressId", textOrNull destination.shippingAddressId),
    ("zipCode", .string destination.place.zipCode), ("state", textOrNull destination.place.state),
    ("municipality", textOrNull destination.place.municipality),
    ("neighborhood", textOrNull destination.place.neighborhood)]

/-- The table draws the id of a new row. -/
def create (id : String) (stored : NewShippingQuote) : ShippingQuoteRow where
  id
  tenantId := stored.tenantId
  tokenHash := stored.tokenHash
  phoneCountryCode := stored.phoneCountryCode
  phone := stored.phone
  lines := .array (stored.lines.map PricedQuoteLine.json)
  destination := stored.destination.json
  charge := stored.charge
  currency := "MXN"
  expiresAt := stored.expiresAt

def property (key : String) : Json → Option Json
  | .object entries => entries.lookup key
  | _ => none

def readText : Json → Option String
  | .string value => some value
  | _ => none

def readNullableText : Json → Option (Option String)
  | .string value => some (some value)
  | .null => some none
  | _ => none

def readNumber : Json → Option Int
  | .number value => some value
  | _ => none

def readLine (line : Json) : Option QuoteLine := do
  let productId ← (property "productId" line).bind readText
  let variantId ← (property "variantId" line).bind readNullableText
  let quantity ← (property "quantity" line).bind readNumber
  return ⟨productId, variantId, quantity⟩

def readLines : Json → Option (List QuoteLine)
  | .array lines => lines.mapM readLine
  | _ => none

def readDestination (destination : Json) : Option QuoteDestination := do
  let zipCode ← (property "zipCode" destination).bind readText
  let state ← (property "state" destination).bind readNullableText
  let municipality ← (property "municipality" destination).bind readNullableText
  let neighborhood ← (property "neighborhood" destination).bind readNullableText
  return ⟨zipCode, state, municipality, neighborhood⟩

def toStored (row : ShippingQuoteRow) : Option StoredQuoteBinding := do
  let lines ← readLines row.lines
  let destination ← readDestination row.destination
  return {
    id := row.id
    tenantId := row.tenantId
    phoneCountryCode := row.phoneCountryCode
    phone := row.phone
    lines
    destination
    costCents := row.charge.costCents
    creditCents := row.charge.creditCents
    customerChargeCents := row.charge.customerChargeCents
    currency := row.currency
    expiresAt := row.expiresAt }

/-- The hash of a token is unique, and rows are never updated. -/
abbrev QuoteTable := Keyed.Rows ShippingQuoteRow.tokenHash

def findByTokenHash (quotes : QuoteTable) (tenantId tokenHash : String) :
    Option StoredQuoteBinding :=
  (quotes.rows.find? fun row =>
    decide (row.tokenHash = tokenHash) && row.tenantId = tenantId).bind toStored

section

variable (base : Char → List Char) (lower : String → String)

/-- `ShippingQuoteVerifier.verify` of a token with this hash. -/
def verify (quotes : QuoteTable) (tokenHash : String) (request : VerifyQuoteRequest) (now : Int) :
    VerifyQuoteResult :=
  verifyShippingQuote base lower (findByTokenHash quotes request.tenantId tokenHash) request now

end

/-! ### The address of the checkout -/

/-- `normalizedAddress`: a new address keeps the fields as they were given. -/
def savedAddress (id : String) (destination : DestinationInput) : CustomerAddress :=
  ⟨id, destination.zipCode, destination.state, destination.municipality, destination.neighborhood⟩

/-- The place of the address that the checkout sells to. -/
def checkoutDestination (address : CustomerAddress) : QuoteDestination :=
  ⟨address.zipCode.getD "", address.state, address.municipality, address.neighborhood⟩

/-- The place a quote is asked for: a saved address, or the one the checkout would save. -/
def givenPlace (branch : Branch) (customerId : Option String) (destination : DestinationInput) :
    Option QuoteDestination :=
  match destination.shippingAddressId with
  | some addressId => (customerId.bind (branch.findAddress addressId)).map checkoutDestination
  | none => some (checkoutDestination (savedAddress "" destination))

/-! ### Reading back -/

theorem readLine_json (line : PricedQuoteLine) : readLine line.json = some line.line := by
  obtain ⟨⟨productId, variantId, quantity⟩, finalPriceCents⟩ := line
  cases variantId <;> rfl

theorem readLines_json (lines : List PricedQuoteLine) :
    readLines (.array (lines.map PricedQuoteLine.json)) =
      some (lines.map PricedQuoteLine.line) := by
  rw [readLines]
  induction lines with
  | nil => rfl
  | cons line rest ih => simp [List.mapM_cons, readLine_json, ih]

theorem readDestination_json (destination : QuoteDestinationSnapshot) :
    readDestination destination.json = some destination.place := by
  obtain ⟨addressId, zipCode, state, municipality, neighborhood⟩ := destination
  cases state <;> cases municipality <;> cases neighborhood <;> rfl

/-- What a stored quote is bound to, and what it charges. -/
def NewShippingQuote.binding (stored : NewShippingQuote) (id : String) : StoredQuoteBinding where
  id
  tenantId := stored.tenantId
  phoneCountryCode := stored.phoneCountryCode
  phone := stored.phone
  lines := stored.lines.map PricedQuoteLine.line
  destination := stored.destination.place
  costCents := stored.charge.costCents
  creditCents := stored.charge.creditCents
  customerChargeCents := stored.charge.customerChargeCents
  currency := "MXN"
  expiresAt := stored.expiresAt

theorem toStored_create (id : String) (stored : NewShippingQuote) :
    toStored (create id stored) = some (stored.binding id) := by
  simp [toStored, create, readLines_json, readDestination_json, NewShippingQuote.binding]

theorem findByTokenHash_create {quotes : QuoteTable} {id : String} {stored : NewShippingQuote}
    (hRow : create id stored ∈ quotes.rows) :
    findByTokenHash quotes stored.tenantId stored.tokenHash = some (stored.binding id) := by
  have hFind : quotes.find stored.tokenHash = some (create id stored) :=
    Keyed.Rows.find_of_mem hRow
  have hTenant : (create id stored).tenantId = stored.tenantId := rfl
  rw [findByTokenHash, Keyed.Rows.find?_key_and, hFind, Option.filter_some]
  simp [hTenant, toStored_create]

/-! ### Places -/

section

variable {base : Char → List Char} {lower : String → String}

theorem SamePlace.symm {left right : QuoteDestination} (h : SamePlace base lower left right) :
    SamePlace base lower right left :=
  ⟨h.zipCode.symm, h.state.symm, h.municipality.symm, h.neighborhood.symm⟩

theorem SamePlace.trans {left middle right : QuoteDestination}
    (h : SamePlace base lower left middle) (h' : SamePlace base lower middle right) :
    SamePlace base lower left right :=
  ⟨h.zipCode.trans h'.zipCode, h.state.trans h'.state, h.municipality.trans h'.municipality,
    h.neighborhood.trans h'.neighborhood⟩

/-- White space decomposes into white space. -/
def KeepsWhiteSpace (base : Char → List Char) : Prop :=
  ∀ c, Text.isWhiteSpace c = true → ∀ d ∈ base c, Text.isWhiteSpace d = true

theorem labelForm_trimmedOrNull (hBase : KeepsWhiteSpace base) (label : Option String) :
    labelForm base lower (trimmedOrNull label) = labelForm base lower label := by
  cases label with
  | none => rfl
  | some label =>
      rw [← labelForm_trim hBase label, trimmedOrNull, Option.map_some]
      by_cases hBlank : Text.trim label = "" <;> simp [Option.filter, hBlank, labelForm]

/-- The place that is stored agrees with the one that was asked for. -/
theorem resolveDestination_eq_ok (hBase : KeepsWhiteSpace base) {branch : Branch}
    {customerId : Option String} {destination : DestinationInput}
    {snapshot : QuoteDestinationSnapshot}
    (h : resolveDestination branch customerId destination = .ok snapshot) :
    ∃ place, givenPlace branch customerId destination = some place ∧
      SamePlace base lower snapshot.place place := by
  unfold resolveDestination at h
  split at h
  · split at h
    · cases h
    · next address hAddress =>
        dsimp only at h
        split at h
        · obtain rfl := Except.ok.inj h
          refine ⟨checkoutDestination address, by simp [givenPlace, hAddress], ?_⟩
          exact ⟨Text.trim_trim _, labelForm_trimmedOrNull hBase _,
            labelForm_trimmedOrNull hBase _, labelForm_trimmedOrNull hBase _⟩
        · cases h
  · obtain rfl := Except.ok.inj h
    exact ⟨_, rfl, rfl, labelForm_trim hBase _, labelForm_trim hBase _, labelForm_trim hBase _⟩
  · cases h

/-! ### Answers -/

/-- How a quote that was issued for a request answers others of its sucursal. -/
structure Binds (base : Char → List Char) (lower : String → String) (issued : VerifyQuoteRequest)
    (quote : VerifiedQuote) (answer : VerifyQuoteRequest → VerifyQuoteResult) : Prop where
  ok : ∀ request, request.tenantId = issued.tenantId →
    (answer request = .ok quote ↔ ∀ part, Agrees base lower issued request part)
  mismatch : ∀ request, request.tenantId = issued.tenantId →
    (¬ ∀ part, Agrees base lower issued request part) → ∃ parts, answer request = .mismatch parts ∧
      parts.Sublist [.customer, .lines, .destination] ∧
        ∀ part, part ∈ parts ↔ ¬ Agrees base lower issued request part
  order : ∀ request lines, request.tenantId = issued.tenantId → request.lines.Perm lines →
    answer { request with lines } = answer request

theorem agrees_trans_iff {first second third : VerifyQuoteRequest}
    (h : ∀ part, Agrees base lower first second part) (part : QuoteMismatch) :
    Agrees base lower first third part ↔ Agrees base lower second third part := by
  have hPart := h part
  cases part with
  | customer =>
      simp only [Agrees] at hPart ⊢
      rw [hPart.1, hPart.2]
  | lines => exact hPart.congr_left third.lines
  | destination => exact ⟨fun hThird => hPart.symm.trans hThird, fun hThird => hPart.trans hThird⟩

theorem mismatches_perm {stored : StoredQuoteBinding} {request : VerifyQuoteRequest}
    {lines : List QuoteLine} (hApart : Apart stored.lines) (hPerm : request.lines.Perm lines) :
    mismatches base lower stored { request with lines } = mismatches base lower stored request := by
  have hLines : linesKey stored.lines = linesKey lines ↔
      linesKey stored.lines = linesKey request.lines := by
    rw [linesKey_eq_iff hApart, linesKey_eq_iff hApart]
    exact ⟨fun h => h.trans hPerm.symm, fun h => h.trans hPerm⟩
  simp only [mismatches, ne_eq, hLines]

/-- The rules of a binding whose lines are apart. -/
theorem StoredQuoteBinding.binds {stored : StoredQuoteBinding} {now : Int}
    (hApart : Apart stored.lines) (hNow : now < stored.expiresAt) :
    Binds base lower stored.request stored.verified
      (verifyShippingQuote base lower (some stored) · now) := by
  have hOpen : ¬ stored.expiresAt ≤ now := by omega
  have hAnswer : ∀ request, request.tenantId = stored.tenantId →
      verifyShippingQuote base lower (some stored) request now =
        if 0 < (mismatches base lower stored request).length then
          .mismatch (mismatches base lower stored request)
        else .ok stored.verified := by
    intro request hTenant
    simp [verifyShippingQuote, hTenant, hOpen]
  have hNone : ∀ request, (mismatches base lower stored request).length = 0 ↔
      ∀ part, Agrees base lower stored.request request part := by
    intro request
    rw [List.length_eq_zero_iff, List.eq_nil_iff_forall_not_mem]
    simp only [mem_mismatches hApart, not_not]
  constructor
  case ok =>
    intro request hTenant
    rw [hAnswer request hTenant, ← hNone]
    split
    · simp only [reduceCtorEq, false_iff]
      omega
    · simp only [true_iff]
      omega
  case mismatch =>
    intro request hTenant hParts
    rw [← hNone] at hParts
    rw [hAnswer request hTenant, if_pos (Nat.pos_of_ne_zero hParts)]
    exact ⟨_, rfl, mismatches_sublist stored request, mem_mismatches hApart⟩
  case order =>
    intro request lines hTenant hPerm
    have hThere := hAnswer { request with lines } hTenant
    rw [hThere, hAnswer request hTenant, mismatches_perm hApart hPerm]

theorem Binds.of_agrees {issued issued' : VerifyQuoteRequest} {quote : VerifiedQuote}
    {answer : VerifyQuoteRequest → VerifyQuoteResult} (h : Binds base lower issued quote answer)
    (hTenant : issued'.tenantId = issued.tenantId)
    (hAgrees : ∀ part, Agrees base lower issued issued' part) :
    Binds base lower issued' quote answer := by
  constructor
  case ok =>
    intro request hSame
    rw [h.ok request (hSame.trans hTenant)]
    exact forall_congr' (agrees_trans_iff hAgrees)
  case mismatch =>
    intro request hSame hParts
    rw [← forall_congr' (agrees_trans_iff hAgrees)] at hParts
    obtain ⟨parts, hAnswer, hOrder, hMem⟩ := h.mismatch request (hSame.trans hTenant) hParts
    refine ⟨parts, hAnswer, hOrder, fun part => ?_⟩
    rw [hMem part, agrees_trans_iff hAgrees part]
  case order =>
    intro request lines hSame hPerm
    exact h.order request lines (hSame.trans hTenant) hPerm

end

variable {κ : Type} [LinearOrder κ] {collate : String → κ} {tenantId tokenHash : String}
  {config : ShippingQuotesConfig} {branch : Branch} {run : FanOut} {input : ShippingQuoteInput}
  {stored : NewShippingQuote}

theorem Apart.perm {lines lines' : List QuoteLine} (h : Apart lines) (hPerm : lines.Perm lines') :
    Apart lines' :=
  (hPerm.map _).nodup_iff.mp h

theorem quote_perm {items : List QuoteLine} (hApart : Apart input.items)
    (hPerm : input.items.Perm items) :
    quote collate tenantId tokenHash config branch run { input with items } =
      quote collate tenantId tokenHash config branch run input := by
  have hLines : normalizeLines items = normalizeLines input.items :=
    (Keyed.sortByKey_eq_of_perm hApart.nodup_lineRank hPerm).symm
  simp only [quote, hLines, quoteServed, resolveCustomer]

/-- A stored quote answers, until it expires, the requests of its sucursal that agree with the one
it was made for in customer, lines and place, and names the parts in which another differs; the
order in which the lines were given then or now does not matter. -/
theorem quote_binding {base : Char → List Char} {lower : String → String}
    (hBase : KeepsWhiteSpace base)
    (hQuote : quote collate tenantId tokenHash config branch run input = .ok (.quoted stored)) :
    (∃ place, givenPlace branch stored.customerId input.destination = some place ∧
      ∀ id (quotes : QuoteTable), create id stored ∈ quotes.rows → ∀ now < stored.expiresAt,
        Binds base lower
          ⟨tenantId, input.phoneCountryCode, input.phone, input.items, place⟩
          (stored.binding id).verified
          fun request => verify base lower quotes stored.tokenHash request now) ∧
    ∀ items, input.items.Perm items →
      quote collate tenantId tokenHash config branch run { input with items } =
        .ok (.quoted stored) := by
  obtain ⟨customerId, destination, zone, hApart, hDestination, _, _, hServed⟩ := quote_eq_ok hQuote
  obtain ⟨_, _, _, _, _, _, _, ⟨hTenant, hCustomer, hCountry, hPhone⟩, hLines, hPlace⟩ :=
    quoteServed_eq_ok hServed
  have hSorted : (normalizeLines input.items).Perm input.items := Keyed.sortByKey_perm _ _
  obtain ⟨place, hGiven, hSame⟩ :=
    @resolveDestination_eq_ok base lower hBase _ _ _ _ hDestination
  refine ⟨⟨place, hCustomer ▸ hGiven, fun id quotes hRow now hNow => ?_⟩, fun items hPerm => ?_⟩
  · have hBinds : Binds base lower (stored.binding id).request (stored.binding id).verified
        (verifyShippingQuote base lower (some (stored.binding id)) · now) :=
      StoredQuoteBinding.binds (by rw [NewShippingQuote.binding, hLines]; exact hApart) hNow
    have hAgrees : ∀ part, Agrees base lower (stored.binding id).request
        ⟨tenantId, input.phoneCountryCode, input.phone, input.items, place⟩ part := by
      intro part
      cases part with
      | customer => simp [Agrees, StoredQuoteBinding.request, NewShippingQuote.binding, *]
      | lines =>
          rw [Agrees, StoredQuoteBinding.request, NewShippingQuote.binding, hLines]
          exact hSorted
      | destination =>
          rw [Agrees, StoredQuoteBinding.request, NewShippingQuote.binding, hPlace]
          exact hSame
    have hIssued := hBinds.of_agrees hTenant.symm hAgrees
    have hFound : ∀ request : VerifyQuoteRequest, request.tenantId = tenantId →
        verify base lower quotes stored.tokenHash request now =
          verifyShippingQuote base lower (some (stored.binding id)) request now := by
      intro request hOwn
      rw [verify, hOwn, ← hTenant, findByTokenHash_create hRow]
    constructor
    case ok =>
      intro request hOwn
      rw [hFound request hOwn]
      exact hIssued.ok request hOwn
    case mismatch =>
      intro request hOwn
      rw [hFound request hOwn]
      exact hIssued.mismatch request hOwn
    case order =>
      intro request lines hOwn hPerm
      rw [hFound request hOwn, hFound { request with lines } hOwn]
      exact hIssued.order request lines hOwn hPerm
  · rw [quote_perm (hApart.perm hSorted) hPerm, hQuote]

/-! ### A mug at the checkout -/

namespace QuoteRoundTrip

open QuoteService

def unaccented (c : Char) : List Char :=
  if c = 'ó' then ['o'] else [c]

def lowered (s : String) : String :=
  String.ofList (s.toList.map Char.toLower)

def quotes : QuoteTable := ⟨[create "q" mugQuote], by simp⟩

/-- The sale of the quoted mug, with the phone and the place spelled in another way. -/
def mugSale : VerifyQuoteRequest where
  tenantId := "t"
  phoneCountryCode := "52"
  phone := "(81) 1234-5678"
  lines := [⟨"mug", none, 1⟩]
  destination := ⟨"64000 ", some "nuevo  leon", some "MONTERREY", some "Centro "⟩

end QuoteRoundTrip

open QuoteService QuoteRoundTrip in
/-- The sale of the quoted mug is accepted just before the rate ends. -/
theorem quote_binding_of_mug :
    verify unaccented lowered quotes "h" mugSale 99999 = .ok (mugQuote.binding "q").verified := by
  have hBase : KeepsWhiteSpace unaccented := by
    intro c hWhite d hIn
    rcases eq_or_ne c 'ó' with rfl | hOther
    · exact absurd hWhite (by decide)
    · obtain rfl : d = c := by simpa [unaccented, hOther] using hIn
      exact hWhite
  have hQuote : quote id "t" "h" halfHour (monterrey carrierZone) lateRace mugInput =
      .ok (.quoted mugQuote) := by
    decide +kernel
  obtain ⟨⟨place, hPlace, hBinds⟩, _⟩ :=
    @quote_binding _ _ _ _ _ _ _ _ _ _ unaccented lowered hBase hQuote
  obtain rfl := Option.some.inj hPlace
  refine ((hBinds "q" quotes (by simp [quotes]) 99999 (by decide)).ok mugSale rfl).mpr ?_
  intro part
  cases part with
  | customer => exact ⟨by decide +kernel, by decide +kernel⟩
  | lines => exact List.Perm.refl _
  | destination =>
      exact ⟨by decide +kernel, by decide +kernel, by decide +kernel, by decide +kernel⟩

end Houndfe.Shipping
