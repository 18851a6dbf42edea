import Houndfe.Shipping.CarrierQuotes
import Houndfe.Shipping.OrderPackage
import Houndfe.Shipping.QuoteBinding

/-! The shipping quote of the bot: the lines and the place are checked, the zone decides who
delivers, the cheapest rate or the zone's price is charged less the credit, and the quote is stored
with what it is bound to. -/

namespace Houndfe.Shipping

/-- `ShippingQuoteError`, an error of the package, a domain error, or a failure of the database. -/
inductive QuoteFailure where
  | quote (code message : String)
  | package (error : PackageError)
  | domain (error : DomainError)
  | unexpected
  deriving DecidableEq

/-- `readShippingQuotesConfig` keeps both amounts at zero or above. -/
structure ShippingCreditRule where
  perUnitCreditCents : Nat
  unitPriceThresholdCents : Nat
  appliesToSurcharge : Bool

/-- The time a quote lives is at least a minute. -/
structure ShippingQuotesConfig where
  ttlMinutes : Nat
  ttlPositive : 0 < ttlMinutes
  credit : ShippingCreditRule

structure PricedItem where
  productId : String
  variantId : Option String
  quantity : Nat
  finalPriceCents : Int

inductive DeliveryZoneType where
  | free
  | surcharge
  | carrierOnly
  | denied
  deriving DecidableEq

/-- The checks of the table: what a zone charges is positive, and a zone with a surcharge has
one. -/
structure DeliveryZone where
  id : String
  zipCode : String
  type : DeliveryZoneType
  surchargeCents : Option Int
  etaDays : Option Int
  isActive : Bool
  positive : ∀ cents ∈ surchargeCents, 1 ≤ cents
  shape : type = .surcharge → surchargeCents.isSome = true

structure CustomerAddress where
  id : String
  zipCode : Option String
  state : Option String
  municipality : Option String
  neighborhood : Option String

structure DestinationInput where
  shippingAddressId : Option String
  zipCode : Option String
  state : Option String
  municipality : Option String
  neighborhood : Option String

structure ShippingQuoteInput where
  phoneCountryCode : String
  phone : String
  items : List QuoteLine
  destination : DestinationInput

/-- What the reads of one request return, of the sucursal of the request only. -/
structure Branch where
  products : List String
  variants : List (String × String)
  customersByPhone : String → String → List String
  findAddress : String → String → Option CustomerAddress
  findZone : String → Option DeliveryZone
  evaluateCart : List QuoteLine → Except DomainError (List PricedItem)
  lacksSellableStock : List QuoteLine → Bool
  packageItems : List QuoteLine → List PackageItem
  activeBoxes : List StandardBox
  hasOrigin : Bool

/-- The registry, what happens to its carriers in what order, and the two readings of the clock:
when the rate is chosen, and after the rest of the request. -/
structure FanOut where
  carriers : List String
  distinct : carriers.Nodup
  events : List Settlement
  chosenAt : Int
  now : Int

/-! ### Amounts -/

def computeShippingCredit (lines : List PricedItem) (rule : ShippingCreditRule) : Int :=
  lines.foldl (fun sum line =>
    if (rule.unitPriceThresholdCents * line.quantity : Int) < line.finalPriceCents then
      sum + rule.perUnitCreditCents * line.quantity
    else sum) 0

structure ShippingCharge where
  costCents : Int
  creditCents : Int
  customerChargeCents : Int
  deriving DecidableEq

def applyShippingCredit (costCents earnedCents : Int) (applies : Bool) : ShippingCharge :=
  let creditCents := if applies then min earnedCents costCents else 0
  ⟨costCents, creditCents, costCents - creditCents⟩

/-- An invalid date makes an invalid one. -/
def computeQuoteExpiry (now : Int) (ttlMinutes : Nat) (carrierValidUntil : Option (Option Int)) :
    Option Int :=
  match carrierValidUntil with
  | none => some (now + ttlMinutes * 60000)
  | some date => date.map fun validUntil => min (now + ttlMinutes * 60000) validUntil

/-! ### Reads -/

/-- One line for each product and variant. -/
def assertOneLinePerItem (lines : List QuoteLine) : Except QuoteFailure Unit :=
  if (lines.map fun line => line.productId ++ "::" ++ line.variantId.getD "").Nodup then .ok ()
  else .error (.domain (invalidArgumentWithCode
    "Each product/variant must appear in only one cart line" "DUPLICATE_CART_LINE"))

def requireCatalogItem (branch : Branch) (line : QuoteLine) : Except QuoteFailure Unit :=
  if line.productId ∉ branch.products then
    .error (.quote "PRODUCT_NOT_FOUND" ("Product " ++ line.productId ++ " not found"))
  else
    match line.variantId with
    | none => .ok ()
    | some variantId =>
        if variantId ≠ "" ∧ ¬ branch.variants.contains (variantId, line.productId) then
          .error (.quote "VARIANT_NOT_FOUND"
            ("Variant " ++ variantId ++ " not found for product " ++ line.productId))
        else .ok ()

def resolveCustomer (branch : Branch) (input : ShippingQuoteInput) :
    Except QuoteFailure (Option String) :=
  let customers := branch.customersByPhone input.phoneCountryCode input.phone
  if 1 < customers.length then
    .error (.quote "CUSTOMER_PHONE_AMBIGUOUS" "More than one customer has this phone")
  else .ok customers.head?

/-- `/^\d{5}$/`. -/
def isZipCode (zipCode : String) : Bool :=
  zipCode.toList.length = 5 && zipCode.toList.all Char.isDigit

/-- `value?.trim() || null`. -/
def trimmedOrNull (value : Option String) : Option String :=
  (value.map Text.trim).filter (· ≠ "")

/-- The place, and the saved address it was taken from; without one its source is the input. -/
structure QuoteDestinationSnapshot where
  shippingAddressId : Option String
  place : QuoteDestination
  deriving DecidableEq

def invalidDestination : QuoteFailure :=
  .quote "INVALID_SHIPPING_DESTINATION" ("destination must be either shippingAddressId or " ++
    "zipCode, state, municipality and neighborhood")

def resolveDestination (branch : Branch) (customerId : Option String)
    (destination : DestinationInput) : Except QuoteFailure QuoteDestinationSnapshot :=
  match destination with
  | ⟨some addressId, none, none, none, none⟩ =>
      match customerId.bind (branch.findAddress addressId) with
      | none => .error (.quote "SHIPPING_ADDRESS_NOT_FOUND"
          "Shipping address not found for this customer")
      | some address =>
          let zipCode := Text.trim (address.zipCode.getD "")
          if isZipCode zipCode then
            .ok ⟨some address.id, ⟨zipCode, trimmedOrNull address.state,
              trimmedOrNull address.municipality, trimmedOrNull address.neighborhood⟩⟩
          else .error (.quote "SHIPPING_ADDRESS_INCOMPLETE"
            "The saved address has no valid 5-digit postal code")
  | ⟨none, some zipCode, some state, some municipality, some neighborhood⟩ =>
      .ok ⟨none, ⟨zipCode, some (Text.trim state), some (Text.trim municipality),
        some (Text.trim neighborhood)⟩⟩
  | _ => .error invalidDestination

/-! ### The quote -/

structure QuoteCarrierOption where
  carrier : String
  service : String
  etaDays : Option Number
  rateId : Option String
  validUntil : Option (Option Int)
  deriving DecidableEq

def CarrierRateOption.kept (option : CarrierRateOption) : QuoteCarrierOption :=
  ⟨option.carrier, option.service, option.etaDays, option.rateId, option.validUntil⟩

structure QuoteBoxSnapshot where
  box : StandardBox
  contentWeightG : ℚ
  totalWeightG : ℚ
  deriving DecidableEq

structure CarrierQuote where
  totalCents : Number
  option : QuoteCarrierOption
  box : QuoteBoxSnapshot

/-- What the zone or the carriers make of a place, before the credit. -/
structure ZonePrice where
  costCents : Int
  creditApplies : Bool
  baseEtaDays : Option Number
  option : Option QuoteCarrierOption
  box : Option QuoteBoxSnapshot
  chosenAt : Option Int

/-- The cents of a usable rate, which are a safe integer. -/
def cents (total : Number) : Int :=
  total.safeInteger.getD 0

section

variable {κ : Type} [LinearOrder κ] (collate : String → κ)

def quoteByCarrier (branch : Branch) (lines : List QuoteLine) (run : FanOut) :
    Except QuoteFailure CarrierQuote := do
  let orderPackage ← (buildOrderPackage collate (branch.packageItems lines)
    branch.activeBoxes).mapError QuoteFailure.package
  if branch.hasOrigin then
    let best ← (quoteCheapest run.carriers run.events run.chosenAt).mapError QuoteFailure.domain
    return ⟨best.option.totalCents, best.option.kept,
      orderPackage.box, orderPackage.contentWeightG, orderPackage.totalWeightG⟩
  else .error (.quote "SHIPPING_ORIGIN_NOT_CONFIGURED"
    "The sucursal has no shipping origin; set it before quoting by carrier")

def priceZone (branch : Branch) (rule : ShippingCreditRule) (zone : DeliveryZone)
    (lines : List QuoteLine) (run : FanOut) : Except QuoteFailure ZonePrice :=
  match zone.type with
  | .carrierOnly => (quoteByCarrier collate branch lines run).map fun carrier =>
      ⟨cents carrier.totalCents, true, carrier.option.etaDays, some carrier.option,
        some carrier.box, some run.chosenAt⟩
  | .free => .ok ⟨0, rule.appliesToSurcharge, zone.etaDays.map Number.ofInt, none, none, none⟩
  | _ => .ok ⟨zone.surchargeCents.getD 0, rule.appliesToSurcharge,
      zone.etaDays.map Number.ofInt, none, none, none⟩

end

structure PricedQuoteLine where
  line : QuoteLine
  finalPriceCents : Int
  deriving DecidableEq

structure QuoteZoneSnapshot where
  zoneId : String
  zipCode : String
  type : DeliveryZoneType
  surchargeCents : Option Int
  etaDays : Option Int
  deriving DecidableEq

/-- A quote as it is stored; `stockPending` is its reason for having no days. -/
structure NewShippingQuote where
  tenantId : String
  tokenHash : String
  customerId : Option String
  phoneCountryCode : String
  phone : String
  lines : List PricedQuoteLine
  destination : QuoteDestinationSnapshot
  zone : QuoteZoneSnapshot
  option : Option QuoteCarrierOption
  box : Option QuoteBoxSnapshot
  etaDays : Option Number
  stockPending : Bool
  charge : ShippingCharge
  expiresAt : Int
  createdAt : Int
  deriving DecidableEq

/-- No quote: nothing is priced or stored. -/
inductive QuoteOutcome where
  | pending
  | denied
  | quoted (stored : NewShippingQuote)
  deriving DecidableEq

def finalPrice (items : List PricedItem) (line : QuoteLine) : Int :=
  ((items.find? fun item =>
    item.productId = line.productId ∧ item.variantId = line.variantId).map
      PricedItem.finalPriceCents).getD 0

section

variable {κ : Type} [LinearOrder κ] (collate : String → κ) (tenantId tokenHash : String)
  (config : ShippingQuotesConfig) (branch : Branch) (run : FanOut)

/-- What is stored for a zone that is served. -/
def quoteServed (input : ShippingQuoteInput) (lines : List QuoteLine) (customerId : Option String)
    (destination : QuoteDestinationSnapshot) (zone : DeliveryZone) :
    Except QuoteFailure QuoteOutcome := do
  let items ← (branch.evaluateCart lines).mapError QuoteFailure.domain
  let stockPending := branch.lacksSellableStock lines
  let price ← priceZone collate branch config.credit zone lines run
  let now := price.chosenAt.getD run.now
  match computeQuoteExpiry now config.ttlMinutes
      (price.option.bind QuoteCarrierOption.validUntil) with
  | none => .error .unexpected
  | some expiresAt =>
      .ok (.quoted {
        tenantId, tokenHash, customerId
        phoneCountryCode := input.phoneCountryCode
        phone := input.phone
        lines := lines.map fun line => ⟨line, finalPrice items line⟩
        destination
        zone := ⟨zone.id, zone.zipCode, zone.type, zone.surchargeCents, zone.etaDays⟩
        option := price.option
        box := price.box
        etaDays := if stockPending then none else price.baseEtaDays
        stockPending
        charge := applyShippingCredit price.costCents
          (computeShippingCredit items config.credit) price.creditApplies
        expiresAt
        createdAt := now })

/-- Lines, customer and place are settled before the zone is looked up. -/
def quote (input : ShippingQuoteInput) : Except QuoteFailure QuoteOutcome := do
  let lines := normalizeLines input.items
  assertOneLinePerItem lines
  lines.forM (requireCatalogItem branch)
  let customerId ← resolveCustomer branch input
  let destination ← resolveDestination branch customerId input.destination
  match branch.findZone destination.place.zipCode with
  | none => .ok .pending
  | some zone =>
      if zone.isActive = false then .ok .pending
      else if zone.type = .denied then .ok .denied
      else
        quoteServed collate tenantId tokenHash config branch run input lines customerId
          destination zone

/-! ### Steps -/

theorem mapError_eq_ok {ε ε' α : Type} {x : Except ε α} {f : ε → ε'} {a : α} :
    x.mapError f = .ok a ↔ x = .ok a := by
  cases x <;> simp [Except.mapError]

theorem map_eq_ok {ε α β : Type} {x : Except ε α} {f : α → β} {b : β} :
    x.map f = .ok b ↔ ∃ a, x = .ok a ∧ f a = b := by
  cases x <;> simp [Except.map]

theorem assertOneLinePerItem_eq_ok {lines : List QuoteLine}
    (h : assertOneLinePerItem lines = .ok ()) : Apart lines := by
  unfold assertOneLinePerItem at h
  split at h
  · next hKeys =>
      refine List.Nodup.of_map (fun pair : String × String => pair.1 ++ "::" ++ pair.2) ?_
      rw [List.map_map]
      exact hKeys
  · cases h

variable {collate tenantId tokenHash config branch run} {input : ShippingQuoteInput}
  {stored : NewShippingQuote}

/-- What a stored quote went through before the zone was looked up. -/
theorem quote_eq_ok
    (h : quote collate tenantId tokenHash config branch run input = .ok (.quoted stored)) :
    ∃ customerId destination zone, Apart (normalizeLines input.items) ∧
      resolveDestination branch customerId input.destination = .ok destination ∧
      branch.findZone destination.place.zipCode = some zone ∧
      (zone.isActive = true ∧ zone.type ≠ .denied) ∧
      quoteServed collate tenantId tokenHash config branch run input (normalizeLines input.items)
        customerId destination zone = .ok (.quoted stored) := by
  obtain ⟨_, hApart, h⟩ := bind_eq_ok.mp h
  replace h := past h
  obtain ⟨customerId, _, h⟩ := bind_eq_ok.mp h
  obtain ⟨destination, hDestination, h⟩ := bind_eq_ok.mp h
  refine ⟨customerId, destination, ?_⟩
  split at h
  · simp at h
  · next zone hZone =>
      split at h
      · simp at h
      · next hActive =>
          split at h
          · simp at h
          · next hDenied =>
              exact ⟨zone, assertOneLinePerItem_eq_ok hApart, hDestination, hZone,
                ⟨by simpa using hActive, hDenied⟩, h⟩

/-- What is stored for a zone that is served. -/
theorem quoteServed_eq_ok {lines : List QuoteLine} {customerId : Option String}
    {destination : QuoteDestinationSnapshot} {zone : DeliveryZone}
    (h : quoteServed collate tenantId tokenHash config branch run input lines customerId
      destination zone = .ok (.quoted stored)) :
    ∃ items price, priceZone collate branch config.credit zone lines run = .ok price ∧
      computeQuoteExpiry stored.createdAt config.ttlMinutes
        (price.option.bind QuoteCarrierOption.validUntil) = some stored.expiresAt ∧
      stored.createdAt = price.chosenAt.getD run.now ∧ stored.option = price.option ∧
      stored.charge = applyShippingCredit price.costCents
        (computeShippingCredit items config.credit) price.creditApplies ∧
      (stored.tenantId = tenantId ∧ stored.customerId = customerId ∧
        stored.phoneCountryCode = input.phoneCountryCode ∧ stored.phone = input.phone) ∧
      stored.lines.map PricedQuoteLine.line = lines ∧ stored.destination = destination := by
  obtain ⟨items, _, h⟩ := bind_eq_ok.mp h
  obtain ⟨price, hPrice, h⟩ := bind_eq_ok.mp h
  simp only at h
  cases hExpiry : computeQuoteExpiry (price.chosenAt.getD run.now) config.ttlMinutes
      (price.option.bind QuoteCarrierOption.validUntil) with
  | none => simp [hExpiry] at h
  | some expiresAt =>
      rw [hExpiry] at h
      obtain rfl := QuoteOutcome.quoted.inj (Except.ok.inj h)
      refine ⟨items, price, hPrice, hExpiry, rfl, rfl, rfl, ⟨rfl, rfl, rfl, rfl⟩, ?_, rfl⟩
      simp [List.map_map, Function.comp_def]

/-! ### Prices -/

theorem computeShippingCredit_nonneg (items : List PricedItem) (rule : ShippingCreditRule) :
    0 ≤ computeShippingCredit items rule := by
  have hFrom : ∀ sum : Int, 0 ≤ sum → 0 ≤ items.foldl (fun (sum : Int) line =>
      if (rule.unitPriceThresholdCents * line.quantity : Int) < line.finalPriceCents then
        sum + rule.perUnitCreditCents * line.quantity
      else sum) sum := by
    induction items with
    | nil => exact fun _ h => h
    | cons line rest ih =>
        intro sum hSum
        refine ih _ ?_
        have hCredit : (0 : Int) ≤ rule.perUnitCreditCents * line.quantity := by positivity
        dsimp only
        split <;> omega
  exact hFrom 0 le_rfl

/-- The credit is between nothing and the cost, and the customer pays the rest. -/
structure ShippingCharge.Sound (charge : ShippingCharge) : Prop where
  nonneg : 0 ≤ charge.creditCents
  atMostCost : charge.creditCents ≤ charge.costCents
  charged : charge.customerChargeCents = charge.costCents - charge.creditCents

theorem applyShippingCredit_sound {costCents earnedCents : Int} (hCost : 0 ≤ costCents)
    (hEarned : 0 ≤ earnedCents) (applies : Bool) :
    (applyShippingCredit costCents earnedCents applies).Sound := by
  constructor <;> cases applies <;> simp [applyShippingCredit] <;> omega

/-- What a zone makes of a place: its own price, or the best of the rates that came in time. -/
inductive Prices (zone : DeliveryZone) (run : FanOut) :
    Int → Option QuoteCarrierOption → Prop where
  | free : zone.type = .free → Prices zone run 0 none
  | surcharge {cents : Int} : zone.type = .surcharge → zone.surchargeCents = some cents →
      Prices zone run cents none
  | carrier {cents : Int} {best : CarrierRateEntry} : zone.type = .carrierOnly →
      Answered run.carriers run.events best → isUsable best.option run.chosenAt = true →
      best.option.totalCents = .ofInt cents →
      (∀ other, Answered run.carriers run.events other →
        isUsable other.option run.chosenAt = true →
          best.option.totalCents.value ≤ other.option.totalCents.value ∧
            entryRank best ≤ entryRank other) →
      Prices zone run cents (some best.option.kept)

theorem totalCents_le_of_rank {left right : CarrierRateEntry}
    (h : entryRank left ≤ entryRank right) :
    left.option.totalCents.value ≤ right.option.totalCents.value := by
  rcases Prod.Lex.le_iff.mp h with hLess | ⟨hSame, _⟩
  · exact le_of_lt hLess
  · exact le_of_eq hSame

theorem cents_of_usable {option : CarrierRateOption} {now : Int} (h : isUsable option now = true) :
    option.totalCents = .ofInt (cents option.totalCents) ∧ 0 ≤ cents option.totalCents := by
  have hTotal : option.totalCents.safeInteger.any (0 ≤ ·) = true := by
    simp only [isUsable, Bool.and_eq_true] at h
    exact h.1.1
  cases hSafe : option.totalCents.safeInteger with
  | none => simp [hSafe] at hTotal
  | some whole =>
      have hWhole : cents option.totalCents = whole := by rw [cents, hSafe, Option.getD_some]
      rw [hWhole]
      exact ⟨(safeInteger_eq_some.mp hSafe).2, by simpa [hSafe] using hTotal⟩

/-- The price of a zone that is served, when it was chosen, and that its rate is still valid then. -/
theorem priceZone_eq_ok {rule : ShippingCreditRule} {zone : DeliveryZone} {lines : List QuoteLine}
    {price : ZonePrice} (hServed : zone.type ≠ .denied)
    (h : priceZone collate branch rule zone lines run = .ok price) :
    Prices zone run price.costCents price.option ∧ 0 ≤ price.costCents ∧
      ∀ option ∈ price.option, price.chosenAt = some run.chosenAt ∧
        ∀ date ∈ option.validUntil, ∃ validUntil, date = some validUntil ∧
          run.chosenAt < validUntil := by
  unfold priceZone at h
  split at h
  · next hType =>
      obtain ⟨carrier, hCarrier, rfl⟩ := map_eq_ok.mp h
      obtain ⟨package, _, hCarrier⟩ := bind_eq_ok.mp hCarrier
      split at hCarrier
      · obtain ⟨best, hBest, hCarrier⟩ := bind_eq_ok.mp hCarrier
        obtain rfl := pure_eq_ok.mp hCarrier
        rw [mapError_eq_ok, quoteCheapest] at hBest
        split at hBest
        · next _ hSelect =>
            obtain rfl := Except.ok.inj hBest
            obtain ⟨⟨hIn, hUsable⟩, hLeast⟩ := select_spec hSelect
            obtain ⟨hWhole, hNonneg⟩ := cents_of_usable hUsable
            refine ⟨.carrier hType (mem_answers.mp hIn) hUsable hWhole ?_, hNonneg, ?_⟩
            · intro other hOther hOk
              have hRank := hLeast other (mem_answers.mpr hOther) hOk
              exact ⟨totalCents_le_of_rank hRank, hRank⟩
            · rintro _ ⟨⟩
              refine ⟨rfl, fun date hDate => ?_⟩
              simp only [isUsable, Bool.and_eq_true, Option.all_eq_true] at hUsable
              have hValid := hUsable.2 date hDate
              cases date with
              | none => simp at hValid
              | some validUntil => exact ⟨validUntil, rfl, by simpa using hValid⟩
        · cases hBest
      · cases hCarrier
  · next hType =>
      obtain rfl := Except.ok.inj h
      exact ⟨.free hType, le_rfl, by simp⟩
  · next hCarrier hFree =>
      obtain rfl := Except.ok.inj h
      have hType : zone.type = .surcharge := by
        cases hKind : zone.type <;> simp_all
      obtain ⟨cents, hCents⟩ := Option.isSome_iff_exists.mp (zone.shape hType)
      have hPositive := zone.positive cents hCents
      simp only [hCents, Option.getD_some]
      exact ⟨.surcharge hType hCents, by omega, by simp⟩

/-- A quote expires after it was made, within its time and with its rate. -/
structure NewShippingQuote.Expires (stored : NewShippingQuote) (config : ShippingQuotesConfig) :
    Prop where
  later : stored.createdAt < stored.expiresAt
  withinTime : stored.expiresAt ≤ stored.createdAt + config.ttlMinutes * 60000
  withinRate : ∀ option ∈ stored.option, ∀ date ∈ option.validUntil, ∃ validUntil,
    date = some validUntil ∧ stored.expiresAt ≤ validUntil

theorem computeQuoteExpiry_sound {now expiresAt : Int} {ttlMinutes : Nat} (hTtl : 0 < ttlMinutes)
    {rate : Option (Option Int)}
    (hRate : ∀ date ∈ rate, ∃ validUntil, date = some validUntil ∧ now < validUntil)
    (h : computeQuoteExpiry now ttlMinutes rate = some expiresAt) :
    now < expiresAt ∧ expiresAt ≤ now + ttlMinutes * 60000 ∧
      ∀ date ∈ rate, ∃ validUntil, date = some validUntil ∧ expiresAt ≤ validUntil := by
  cases rate with
  | none =>
      obtain rfl := Option.some.inj h
      exact ⟨by omega, le_rfl, by simp⟩
  | some date =>
      obtain ⟨validUntil, rfl, hLater⟩ := hRate date rfl
      have hExpires : min (now + ttlMinutes * 60000) validUntil = expiresAt := Option.some.inj h
      refine ⟨by omega, by omega, ?_⟩
      rintro _ ⟨⟩
      exact ⟨validUntil, rfl, by omega⟩

/-- Two requests to the same carriers at the same times: each carrier settles as it does in the
other, whatever the order of the carriers and of their answers. -/
structure FanOut.SameAnswers (first second : FanOut) : Prop where
  carriers : first.carriers.Perm second.carriers
  events : ∀ name, first.events.filter (·.carrier = name) = second.events.filter (·.carrier = name)
  chosenAt : first.chosenAt = second.chosenAt
  now : first.now = second.now

theorem quote_congr {first second : FanOut} (h : first.SameAnswers second) :
    quote collate tenantId tokenHash config branch first input =
      quote collate tenantId tokenHash config branch second input := by
  have hBest : ∀ lines, quoteByCarrier collate branch lines first =
      quoteByCarrier collate branch lines second := by
    intro lines
    rw [quoteByCarrier, quoteByCarrier,
      quoteCheapest_eq first.distinct h.carriers h.events first.chosenAt, h.chosenAt]
  have hPrice : ∀ zone lines, priceZone collate branch config.credit zone lines first =
      priceZone collate branch config.credit zone lines second := by
    intro zone lines
    simp only [priceZone, hBest, h.chosenAt]
  simp only [quote, quoteServed, hPrice, h.now]

/-- A quote is stored for a place that is served only, at the zone's price or the least of the
rates that came in time, less a credit of at most that; it expires after it was made, within its
time and its rate; and neither the order of the answers nor that of the registry changes it. -/
theorem quote_sound
    (hQuote : quote collate tenantId tokenHash config branch run input = .ok (.quoted stored)) :
    (∃ zone, branch.findZone stored.destination.place.zipCode = some zone ∧
      (zone.isActive = true ∧ zone.type ≠ .denied) ∧
      Prices zone run stored.charge.costCents stored.option) ∧
    stored.charge.Sound ∧ stored.Expires config ∧
    ∀ other : FanOut, run.SameAnswers other →
      quote collate tenantId tokenHash config branch other input = .ok (.quoted stored) := by
  obtain ⟨_, destination, zone, _, _, hZone, hOpen, hServed⟩ := quote_eq_ok hQuote
  obtain ⟨items, price, hPrice, hExpiry, hNow, hOption, hCharge, _, _, hPlace⟩ :=
    quoteServed_eq_ok hServed
  obtain ⟨hPrices, hCost, hRate⟩ := priceZone_eq_ok hOpen.2 hPrice
  refine ⟨⟨zone, hPlace ▸ hZone, hOpen, ?_⟩, ?_, ?_, ?_⟩
  · rw [hCharge, hOption]
    exact hPrices
  · rw [hCharge]
    exact applyShippingCredit_sound hCost (computeShippingCredit_nonneg _ _) _
  · have hDates : ∀ date ∈ price.option.bind QuoteCarrierOption.validUntil, ∃ validUntil,
        date = some validUntil ∧ stored.createdAt < validUntil := by
      intro date hDate
      obtain ⟨option, hIn, hUntil⟩ := Option.bind_eq_some_iff.mp hDate
      obtain ⟨hChosen, hValid⟩ := hRate option hIn
      rw [hNow, hChosen]
      exact hValid date hUntil
    obtain ⟨hLater, hTime, hUntil⟩ := computeQuoteExpiry_sound config.ttlPositive hDates hExpiry
    refine ⟨hLater, hTime, fun option hIn date hDate => ?_⟩
    rw [hOption] at hIn
    exact hUntil date (Option.bind_eq_some_iff.mpr ⟨option, hIn, hDate⟩)
  · intro other hSame
    exact (quote_congr hSame).symm.trans hQuote

end

/-! ### A mug by carrier -/

namespace QuoteService

open OrderPackage

def carrierZone : DeliveryZone where
  id := "z"
  zipCode := "64000"
  type := .carrierOnly
  surchargeCents := none
  etaDays := none
  isActive := true
  positive := by simp
  shape := by simp

/-- One customer, one product and one zone. -/
def monterrey (zone : DeliveryZone) : Branch where
  products := ["mug"]
  variants := []
  customersByPhone := fun _ _ => ["c"]
  findAddress := fun _ _ => none
  findZone := fun zipCode => if zipCode = "64000" then some zone else none
  evaluateCart := fun lines => .ok (lines.map fun line =>
    ⟨line.productId, line.variantId, line.quantity.toNat, 60000 * line.quantity⟩)
  lacksSellableStock := fun _ => false
  packageItems := fun lines => lines.map fun line => mugs line.quantity.toNat
  activeBoxes := [small, large]
  hasOrigin := true

def halfHour : ShippingQuotesConfig := ⟨30, by decide, ⟨12000, 50000, true⟩⟩

def rate (carrier : String) (cents : Int) : CarrierRateOption :=
  ⟨carrier, "terrestre", .ofInt cents, some (.ofInt 3), none, some (some 100000)⟩

/-- The cheapest carrier answers after its time. -/
def lateRace : FanOut where
  carriers := ["x", "y", "z"]
  distinct := by decide
  events := [⟨"z", .rates [rate "Lenta" 20000]⟩, ⟨"x", .timedOut⟩,
    ⟨"y", .rates [rate "Viva" 15000]⟩, ⟨"x", .rates [rate "Gratis" 0]⟩]
  chosenAt := 40000
  now := 41000

def mugInput : ShippingQuoteInput where
  phoneCountryCode := "+52"
  phone := "81 1234 5678"
  items := [⟨"mug", none, 1⟩]
  destination := ⟨none, some "64000", some " Nuevo León", some "Monterrey", some "Centro"⟩

def mugQuote : NewShippingQuote where
  tenantId := "t"
  tokenHash := "h"
  customerId := some "c"
  phoneCountryCode := "+52"
  phone := "81 1234 5678"
  lines := [⟨⟨"mug", none, 1⟩, 60000⟩]
  destination := ⟨none, "64000", some "Nuevo León", some "Monterrey", some "Centro"⟩
  zone := ⟨"z", "64000", .carrierOnly, none, none⟩
  option := some (rate "Viva" 15000).kept
  box := some ⟨small, 300, 420⟩
  etaDays := some (.ofInt 3)
  stockPending := false
  charge := ⟨15000, 12000, 3000⟩
  expiresAt := 100000
  createdAt := 40000

end QuoteService

open QuoteService in
/-- The cheapest carrier is late, and the next one is charged less the credit. -/
theorem quote_sound_of_mug : mugQuote.charge.Sound ∧ mugQuote.Expires halfHour ∧
    ∃ zone, (monterrey carrierZone).findZone "64000" = some zone ∧
      Prices zone lateRace 15000 mugQuote.option := by
  have hQuote : quote id "t" "h" halfHour (monterrey carrierZone) lateRace mugInput =
      .ok (.quoted mugQuote) := by
    decide +kernel
  obtain ⟨⟨zone, hZone, _, hPrices⟩, hSound, hExpires, _⟩ := quote_sound hQuote
  exact ⟨hSound, hExpires, zone, hZone, hPrices⟩

end Houndfe.Shipping
