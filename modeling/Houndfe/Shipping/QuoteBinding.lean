import Houndfe.Base.JsonText
import Houndfe.Base.Keyed
import Houndfe.Shared.Words
import Mathlib.Data.Prod.Lex

/-! What a shipping quote is bound to: the tenant, the digits of the phone, the lines in any order
and the place, whose labels are compared without accents, letter case and runs of white space. -/

namespace Houndfe.Shipping

/-- A variant that is undefined is null. -/
structure QuoteLine where
  productId : String
  variantId : Option String
  quantity : Int
  deriving DecidableEq, Repr

structure QuoteDestination where
  zipCode : String
  state : Option String
  municipality : Option String
  neighborhood : Option String
  deriving DecidableEq, Repr

structure StoredQuoteBinding where
  id : String
  tenantId : String
  phoneCountryCode : String
  phone : String
  lines : List QuoteLine
  destination : QuoteDestination
  costCents : Int
  creditCents : Int
  customerChargeCents : Int
  currency : String
  expiresAt : Int
  deriving DecidableEq, Repr

structure VerifyQuoteRequest where
  tenantId : String
  phoneCountryCode : String
  phone : String
  lines : List QuoteLine
  destination : QuoteDestination
  deriving DecidableEq, Repr

inductive QuoteMismatch where
  | customer
  | lines
  | destination
  deriving DecidableEq, Repr

structure VerifiedQuote where
  id : String
  costCents : Int
  creditCents : Int
  customerChargeCents : Int
  currency : String
  expiresAt : Int
  deriving DecidableEq, Repr

inductive VerifyQuoteResult where
  | notFound
  | expired
  | mismatch (mismatches : List QuoteMismatch)
  | ok (quote : VerifiedQuote)
  deriving DecidableEq, Repr

def normalizePhoneDigits (value : String) : String :=
  String.ofList (value.toList.filter Char.isDigit)

def lineRank (line : QuoteLine) : List Nat ×ₗ List Nat ×ₗ Int :=
  toLex (Text.units line.productId, toLex (Text.units (line.variantId.getD ""), line.quantity))

def normalizeLines (lines : List QuoteLine) : List QuoteLine :=
  Keyed.sortByKey lineRank lines

def textOrNull (value : Option String) : Json :=
  (value.map .string).getD .null

def QuoteLine.entry (line : QuoteLine) : Json :=
  .array [.string line.productId, textOrNull line.variantId, .number line.quantity]

def linesKey (lines : List QuoteLine) : String :=
  (Json.array ((normalizeLines lines).map QuoteLine.entry)).stringify

def StoredQuoteBinding.verified (stored : StoredQuoteBinding) : VerifiedQuote :=
  ⟨stored.id, stored.costCents, stored.creditCents, stored.customerChargeCents, stored.currency,
    stored.expiresAt⟩

section

variable (base : Char → List Char) (lower : String → String)

/-- After `normalize('NFD')` and without marks a character is its base; `lower` is `toLowerCase`. -/
def normalizeLabel (value : Option String) : Option String :=
  let plain := String.ofList ((value.getD "").toList.flatMap base)
  let normalized := lower (Text.trim (Text.collapse plain))
  if normalized = "" then none else some normalized

def destinationKey (destination : QuoteDestination) : String :=
  (Json.array [.string (Text.trim destination.zipCode),
    textOrNull (normalizeLabel base lower destination.state),
    textOrNull (normalizeLabel base lower destination.municipality),
    textOrNull (normalizeLabel base lower destination.neighborhood)]).stringify

def mismatches (stored : StoredQuoteBinding) (request : VerifyQuoteRequest) : List QuoteMismatch :=
  (if normalizePhoneDigits stored.phoneCountryCode ≠ normalizePhoneDigits request.phoneCountryCode ∨
      normalizePhoneDigits stored.phone ≠ normalizePhoneDigits request.phone then [.customer]
    else []) ++
  (if linesKey stored.lines ≠ linesKey request.lines then [.lines] else []) ++
  (if destinationKey base lower stored.destination ≠
      destinationKey base lower request.destination then [.destination] else [])

def verifyShippingQuote (stored : Option StoredQuoteBinding) (request : VerifyQuoteRequest)
    (now : Int) : VerifyQuoteResult :=
  match stored with
  | none => .notFound
  | some stored =>
      if stored.tenantId ≠ request.tenantId then .notFound
      else if stored.expiresAt ≤ now then .expired
      else if 0 < (mismatches base lower stored request).length then
        .mismatch (mismatches base lower stored request)
      else .ok stored.verified

/-! ### Agreement -/

/-- The words of a label without accents, in lower case; a blank label has none. -/
def labelForm (value : Option String) : String :=
  lower (String.ofList ([' '].intercalate (Text.words ((value.getD "").toList.flatMap base))))

/-- The same postal code, and labels that differ in accents, letter case and white space only. -/
structure SamePlace (left right : QuoteDestination) : Prop where
  zipCode : Text.trim left.zipCode = Text.trim right.zipCode
  state : labelForm base lower left.state = labelForm base lower right.state
  municipality : labelForm base lower left.municipality = labelForm base lower right.municipality
  neighborhood : labelForm base lower left.neighborhood = labelForm base lower right.neighborhood

/-- Two requests agree in a part. -/
def Agrees (left right : VerifyQuoteRequest) : QuoteMismatch → Prop
  | .customer =>
      normalizePhoneDigits left.phoneCountryCode = normalizePhoneDigits right.phoneCountryCode ∧
        normalizePhoneDigits left.phone = normalizePhoneDigits right.phone
  | .lines => left.lines.Perm right.lines
  | .destination => SamePlace base lower left.destination right.destination

end

/-- The requests for products and variants are apart. -/
def Apart (lines : List QuoteLine) : Prop :=
  (lines.map fun line => (line.productId, line.variantId.getD "")).Nodup

theorem textOrNull_injective : Function.Injective textOrNull := by
  intro left right h
  cases left <;> cases right <;> simp_all [textOrNull]

theorem entry_injective : Function.Injective QuoteLine.entry := by
  intro left right h
  simp only [QuoteLine.entry, Json.array.injEq, List.cons.injEq, Json.string.injEq,
    Json.number.injEq, and_true] at h
  obtain ⟨hProduct, hVariant, hQuantity⟩ := h
  cases left
  cases right
  simp only at hProduct hVariant hQuantity
  rw [hProduct, textOrNull_injective hVariant, hQuantity]

theorem Apart.nodup_lineRank {lines : List QuoteLine} (h : Apart lines) :
    (lines.map lineRank).Nodup := by
  refine List.Nodup.of_map (fun rank => ((ofLex rank).1, (ofLex (ofLex rank).2).1)) ?_
  rw [List.map_map]
  have hPairs := h.map (f := fun pair => (Text.units pair.1, Text.units pair.2)) ?_
  · rw [List.map_map] at hPairs
    exact hPairs
  · intro left right hSame
    exact Prod.ext (Text.units_injective (Prod.mk.inj hSame).1)
      (Text.units_injective (Prod.mk.inj hSame).2)

/-- The key of lines that are apart is the key of the same lines in any order only. -/
theorem linesKey_eq_iff {lines lines' : List QuoteLine} (hApart : Apart lines) :
    linesKey lines = linesKey lines' ↔ lines.Perm lines' := by
  constructor
  · intro h
    have hSorted := Json.array.inj (Json.stringify_injective h)
    have hSame : Keyed.sortByKey lineRank lines = Keyed.sortByKey lineRank lines' :=
      List.map_injective_iff.mpr entry_injective hSorted
    exact (Keyed.sortByKey_perm lineRank lines).symm.trans
      (hSame ▸ Keyed.sortByKey_perm lineRank lines')
  · intro h
    rw [linesKey, linesKey, normalizeLines, normalizeLines,
      Keyed.sortByKey_eq_of_perm hApart.nodup_lineRank h]

section

variable {base : Char → List Char} {lower : String → String}

theorem normalizeLabel_eq (value : Option String) : normalizeLabel base lower value =
    if labelForm base lower value = "" then none else some (labelForm base lower value) := by
  simp only [normalizeLabel, labelForm, Text.trim_collapse, String.toList_ofList]
  rfl

theorem normalizeLabel_eq_iff {left right : Option String} :
    normalizeLabel base lower left = normalizeLabel base lower right ↔
      labelForm base lower left = labelForm base lower right := by
  rw [normalizeLabel_eq, normalizeLabel_eq]
  split <;> split <;> simp_all

theorem destinationKey_eq_iff {left right : QuoteDestination} :
    destinationKey base lower left = destinationKey base lower right ↔
      SamePlace base lower left right := by
  constructor
  · intro h
    have hParts := Json.array.inj (Json.stringify_injective h)
    simp only [List.cons.injEq, Json.string.injEq, textOrNull_injective.eq_iff,
      normalizeLabel_eq_iff, and_true] at hParts
    exact ⟨hParts.1, hParts.2.1, hParts.2.2.1, hParts.2.2.2⟩
  · intro h
    rw [destinationKey, destinationKey, h.zipCode, normalizeLabel_eq_iff.mpr h.state,
      normalizeLabel_eq_iff.mpr h.municipality, normalizeLabel_eq_iff.mpr h.neighborhood]

/-- A label and what is kept of it when it is trimmed agree. -/
theorem labelForm_trim
    (hBase : ∀ c, Text.isWhiteSpace c = true → ∀ d ∈ base c, Text.isWhiteSpace d = true)
    (label : String) :
    labelForm base lower (some (Text.trim label)) = labelForm base lower (some label) := by
  rw [labelForm, labelForm, Option.getD_some, Option.getD_some, Text.words_flatMap_trim hBase]

/-- The request that a stored quote is bound to. -/
def StoredQuoteBinding.request (stored : StoredQuoteBinding) : VerifyQuoteRequest :=
  ⟨stored.tenantId, stored.phoneCountryCode, stored.phone, stored.lines, stored.destination⟩

theorem mem_mismatches {stored : StoredQuoteBinding} {request : VerifyQuoteRequest}
    (hApart : Apart stored.lines) (part : QuoteMismatch) :
    part ∈ mismatches base lower stored request ↔
      ¬ Agrees base lower stored.request request part := by
  cases part with
  | customer => simp [mismatches, Agrees, StoredQuoteBinding.request, imp_iff_not_or]
  | lines => simp [mismatches, Agrees, StoredQuoteBinding.request, linesKey_eq_iff hApart]
  | destination => simp [mismatches, Agrees, StoredQuoteBinding.request, destinationKey_eq_iff]

theorem mismatches_sublist (stored : StoredQuoteBinding) (request : VerifyQuoteRequest) :
    (mismatches base lower stored request).Sublist [.customer, .lines, .destination] := by
  simp only [mismatches]
  split <;> split <;> split <;> simp

end

end Houndfe.Shipping
