import Houndfe.Shared.DomainError
import Houndfe.Shared.Text

/-! The tenant's payment-method catalog: its rows, the changes an administrator may
make to them and the resolver the sales service reads. -/

namespace Houndfe.PaymentMethods

/-- The four tenders. The source spells them in lower case at its ports and in upper
case in storage; `credit` is not among them. -/
inductive TenderMethod where
  | cash
  | cardCredit
  | cardDebit
  | transfer
  deriving DecidableEq, Repr

def TenderMethod.text : TenderMethod → String
  | .cash => "cash"
  | .cardCredit => "card_credit"
  | .cardDebit => "card_debit"
  | .transfer => "transfer"

/-- A stored name: trimmed and not empty. -/
abbrev PaymentMethodName := { name : String // Text.trim name = name ∧ name ≠ "" }

structure PaymentMethod where
  id : String
  tenantId : String
  name : PaymentMethodName
  category : TenderMethod
  subtitle : Option String
  isActive : Bool
  deriving DecidableEq

structure UpdatePaymentMethodInput where
  name : Option String
  category : Option TenderMethod
  /-- `some none` clears the subtitle. -/
  subtitle : Option (Option String)
  isActive : Option Bool

def sanitizeName (value : String) : Except DomainError PaymentMethodName :=
  if h : Text.trim value = "" then
    .error (invalidArgumentWithCode "name must be a non-empty string" "INVALID_NAME")
  else if 60 < Text.utf16Length (Text.trim value) then
    .error (invalidArgumentWithCode "name must be 1..60 characters" "NAME_TOO_LONG")
  else .ok ⟨Text.trim value, Text.trim_trim value, h⟩

def sanitizeSubtitle (value : Option String) : Except DomainError (Option String) :=
  match value with
  | none => .ok none
  | some text =>
      if Text.trim text = "" then .ok none
      else if 120 < Text.utf16Length (Text.trim text) then
        .error (invalidArgumentWithCode "subtitle must be at most 120 characters"
          "SUBTITLE_TOO_LONG")
      else .ok (some (Text.trim text))

namespace PaymentMethod

def create (id tenantId name : String) (category : TenderMethod) (subtitle : Option String) :
    Except DomainError PaymentMethod := do
  throwIf (Text.trim id = "") (invalidArgumentError "PaymentMethod id is required")
  throwIf (Text.trim tenantId = "") (invalidArgumentError "PaymentMethod tenantId is required")
  let name ← sanitizeName name
  let subtitle ← sanitizeSubtitle subtitle
  return ⟨id, tenantId, name, category, subtitle, true⟩

/-- A supplied field replaces the stored one, the others stay. -/
def update (row : PaymentMethod) (input : UpdatePaymentMethodInput) :
    Except DomainError PaymentMethod := do
  let name ← match input.name with
    | some value => sanitizeName value
    | none => .ok row.name
  let subtitle ← match input.subtitle with
    | some value => sanitizeSubtitle value
    | none => .ok row.subtitle
  return { row with
    name := name
    category := input.category.getD row.category
    subtitle := subtitle
    isActive := input.isActive.getD row.isActive }

def deactivate (row : PaymentMethod) : PaymentMethod :=
  { row with isActive := false }

end PaymentMethod

/-- The rows of one tenant by id. -/
abbrev Catalog := String → Option PaymentMethod

structure ResolvedPaymentMethod where
  category : TenderMethod
  name : PaymentMethodName
  subtitle : Option String
  deriving DecidableEq

def resolveActive (catalog : Catalog) (paymentMethodId : String)
    (expectedCategory : TenderMethod) : Except DomainError ResolvedPaymentMethod :=
  match catalog paymentMethodId with
  | none => .error (businessRuleViolationError
      "PaymentMethod not found or belongs to another tenant" "PAYMENT_METHOD_NOT_FOUND")
  | some row => do
      throwIf (row.isActive = false) (businessRuleViolationError
        "PaymentMethod is inactive and cannot be used for new charges" "INACTIVE_PAYMENT_METHOD")
      throwIf (row.category ≠ expectedCategory) (businessRuleViolationError
        ("PaymentMethod category '" ++ row.category.text ++ "' does not match requested '" ++
          expectedCategory.text ++ "'") "PAYMENT_METHOD_CATEGORY_MISMATCH")
      return ⟨row.category, row.name, row.subtitle⟩

/-- `metadataJson` of a payment row: the catalog row as it was when the payment was made,
or the channel a reviewed receipt came through. -/
inductive PaymentMetadata where
  | catalog (paymentMethodId name : String) (subtitle : Option String)
  | origin (kind channel : String)
  deriving DecidableEq

/-- The catalog snapshot of a payment that names a catalog row. -/
def catalogSnapshot (catalog : Catalog) (method : TenderMethod) (paymentMethodId : Option String) :
    Except DomainError (Option PaymentMetadata) :=
  match paymentMethodId with
  | none => .ok none
  | some id =>
      if id = "" then .ok none
      else do
        let resolved ← resolveActive catalog id method
        return some (.catalog id resolved.name.val resolved.subtitle)

end Houndfe.PaymentMethods
