import Houndfe.Sales.Payments
import Mathlib.Data.List.Infix

/-! The filters of the list of sales: the where clause that is built from them, and which sales
it admits. -/

namespace Houndfe.Sales

open PaymentMethods

/-! ### Filters and rows -/

structure SalesListBaseFilter where
  q : Option String
  cashierUserId : List String
  customerId : List String
  customerIncludeNull : Bool
  confirmedFrom : Option Int
  confirmedTo : Option Int
  deriving DecidableEq, Repr

structure SalesListExtendedFilter extends SalesListBaseFilter where
  folio : List String
  status : List SaleStatus
  paymentStatus : List SalePaymentStatus
  deliveryStatus : List SaleDeliveryStatus
  paymentMethod : List TenderMethod
  paymentMethodIncludeNull : Bool
  totalMin : Option Int
  totalMax : Option Int
  debtMin : Option Int
  debtMax : Option Int
  dueDateFrom : Option Int
  dueDateTo : Option Int
  dueDateIncludeNull : Bool
  deriving DecidableEq, Repr

structure CustomerName where
  id : String
  firstName : String
  lastName : Option String
  deriving DecidableEq, Repr

/-- A sale with what the clauses read of it and of its relations. -/
structure SaleListRow where
  status : SaleStatus
  userId : String
  userName : String
  sellerName : Option String
  customer : Option CustomerName
  confirmedAt : Option Int
  folio : Option String
  paymentStatus : Option SalePaymentStatus
  deliveryStatus : SaleDeliveryStatus
  totalCents : Int
  debtCents : Int
  dueDate : Option Int
  payments : List TenderMethod
  deriving DecidableEq, Repr

/-- How the database compares texts without regard to case, and the search text in lower case
without its diacritics. -/
structure TextSearch where
  contains : String → String → Bool
  endsWith : String → String → Bool
  normalized : String → String

/-! ### The where clause -/

/-- A bound on a column: from and to, where they are given. -/
structure Range where
  gte : Option Int
  lte : Option Int
  deriving DecidableEq, Repr

/-- A condition on one column or relation. -/
inductive Condition where
  | statusIs (status : SaleStatus)
  | statusIn (statuses : List SaleStatus)
  | userIdIn (ids : List String)
  | customerIdIn (ids : List String)
  | customerIdNull
  | confirmedAt (range : Range)
  | customerFirstName (text : String)
  | customerLastName (text : String)
  | userName (text : String)
  | sellerName (text : String)
  | folioEndsWith (text : String)
  | folioContains (text : String)
  | folioIn (folios : List String)
  | paymentStatusIn (statuses : List SalePaymentStatus)
  | deliveryStatusIn (statuses : List SaleDeliveryStatus)
  | totalCents (range : Range)
  | debtCents (range : Range)
  | dueDate (range : Range)
  | dueDateNull
  | somePayment (methods : List TenderMethod)
  | noPayment
  deriving DecidableEq, Repr

def Range.Holds (range : Range) (value : Int) : Prop :=
  (∀ bound ∈ range.gte, bound ≤ value) ∧ ∀ bound ∈ range.lte, value ≤ bound

/-- A column without a value meets no condition but that it has none. -/
def Condition.Holds (search : TextSearch) (row : SaleListRow) : Condition → Prop
  | .statusIs status => row.status = status
  | .statusIn statuses => row.status ∈ statuses
  | .userIdIn ids => row.userId ∈ ids
  | .customerIdIn ids => ∃ customer ∈ row.customer, customer.id ∈ ids
  | .customerIdNull => row.customer = none
  | .confirmedAt range => ∃ confirmedAt ∈ row.confirmedAt, range.Holds confirmedAt
  | .customerFirstName text => ∃ customer ∈ row.customer, search.contains customer.firstName text
  | .customerLastName text =>
      ∃ customer ∈ row.customer, ∃ lastName ∈ customer.lastName, search.contains lastName text
  | .userName text => search.contains row.userName text
  | .sellerName text => ∃ name ∈ row.sellerName, search.contains name text
  | .folioEndsWith text => ∃ folio ∈ row.folio, search.endsWith folio text
  | .folioContains text => ∃ folio ∈ row.folio, search.contains folio text
  | .folioIn folios => ∃ folio ∈ row.folio, folio ∈ folios
  | .paymentStatusIn statuses => ∃ status ∈ row.paymentStatus, status ∈ statuses
  | .deliveryStatusIn statuses => row.deliveryStatus ∈ statuses
  | .totalCents range => range.Holds row.totalCents
  | .debtCents range => range.Holds row.debtCents
  | .dueDate range => ∃ dueDate ∈ row.dueDate, range.Holds dueDate
  | .dueDateNull => row.dueDate = none
  | .somePayment methods => ∃ method ∈ row.payments, method ∈ methods
  | .noPayment => row.payments = []

instance (range : Range) (value : Int) : Decidable (range.Holds value) :=
  inferInstanceAs (Decidable (_ ∧ _))

instance (search : TextSearch) (row : SaleListRow) (condition : Condition) :
    Decidable (condition.Holds search row) :=
  match condition with
  | .statusIs status => inferInstanceAs (Decidable (row.status = status))
  | .statusIn statuses => inferInstanceAs (Decidable (row.status ∈ statuses))
  | .userIdIn ids => inferInstanceAs (Decidable (row.userId ∈ ids))
  | .customerIdIn ids => inferInstanceAs (Decidable (∃ customer ∈ row.customer, customer.id ∈ ids))
  | .customerIdNull => inferInstanceAs (Decidable (row.customer = none))
  | .confirmedAt range =>
      inferInstanceAs (Decidable (∃ confirmedAt ∈ row.confirmedAt, range.Holds confirmedAt))
  | .customerFirstName text =>
      inferInstanceAs (Decidable (∃ customer ∈ row.customer,
        search.contains customer.firstName text = true))
  | .customerLastName text =>
      inferInstanceAs (Decidable (∃ customer ∈ row.customer, ∃ lastName ∈ customer.lastName,
        search.contains lastName text = true))
  | .userName text => inferInstanceAs (Decidable (search.contains row.userName text = true))
  | .sellerName text =>
      inferInstanceAs (Decidable (∃ name ∈ row.sellerName, search.contains name text = true))
  | .folioEndsWith text =>
      inferInstanceAs (Decidable (∃ folio ∈ row.folio, search.endsWith folio text = true))
  | .folioContains text =>
      inferInstanceAs (Decidable (∃ folio ∈ row.folio, search.contains folio text = true))
  | .folioIn folios => inferInstanceAs (Decidable (∃ folio ∈ row.folio, folio ∈ folios))
  | .paymentStatusIn statuses =>
      inferInstanceAs (Decidable (∃ status ∈ row.paymentStatus, status ∈ statuses))
  | .deliveryStatusIn statuses => inferInstanceAs (Decidable (row.deliveryStatus ∈ statuses))
  | .totalCents range => inferInstanceAs (Decidable (range.Holds row.totalCents))
  | .debtCents range => inferInstanceAs (Decidable (range.Holds row.debtCents))
  | .dueDate range => inferInstanceAs (Decidable (∃ dueDate ∈ row.dueDate, range.Holds dueDate))
  | .dueDateNull => inferInstanceAs (Decidable (row.dueDate = none))
  | .somePayment methods => inferInstanceAs (Decidable (∃ method ∈ row.payments, method ∈ methods))
  | .noPayment => inferInstanceAs (Decidable (row.payments = []))

/-- The object that `buildBaseWhere` fills in and rewrites; `AND` holds objects with an `OR`. -/
structure SaleWhere where
  status : Option Condition
  userId : Option Condition
  customerId : Option Condition
  confirmedAt : Option Condition
  or : Option (List Condition)
  and : List (List Condition)
  deriving DecidableEq, Repr

/-- One of the conditions of an `OR` holds. -/
def AnyOf (search : TextSearch) (row : SaleListRow) (conditions : List Condition) : Prop :=
  ∃ condition ∈ conditions, condition.Holds search row

instance (search : TextSearch) (row : SaleListRow) (conditions : List Condition) :
    Decidable (AnyOf search row conditions) :=
  inferInstanceAs (Decidable (∃ condition ∈ conditions, _))

/-- Every key of the object holds. -/
structure SaleWhere.Admits (where_ : SaleWhere) (search : TextSearch) (row : SaleListRow) :
    Prop where
  status : ∀ condition ∈ where_.status, condition.Holds search row
  userId : ∀ condition ∈ where_.userId, condition.Holds search row
  customerId : ∀ condition ∈ where_.customerId, condition.Holds search row
  confirmedAt : ∀ condition ∈ where_.confirmedAt, condition.Holds search row
  or : ∀ conditions ∈ where_.or, AnyOf search row conditions
  and : ∀ conditions ∈ where_.and, AnyOf search row conditions

theorem SaleWhere.admits_iff {where_ : SaleWhere} {search : TextSearch} {row : SaleListRow} :
    where_.Admits search row ↔
      (∀ condition ∈ where_.status, condition.Holds search row) ∧
      (∀ condition ∈ where_.userId, condition.Holds search row) ∧
      (∀ condition ∈ where_.customerId, condition.Holds search row) ∧
      (∀ condition ∈ where_.confirmedAt, condition.Holds search row) ∧
      (∀ conditions ∈ where_.or, AnyOf search row conditions) ∧
      ∀ conditions ∈ where_.and, AnyOf search row conditions := by
  constructor
  · rintro ⟨hStatus, hUser, hCustomer, hConfirmed, hOr, hAnd⟩
    exact ⟨hStatus, hUser, hCustomer, hConfirmed, hOr, hAnd⟩
  · rintro ⟨hStatus, hUser, hCustomer, hConfirmed, hOr, hAnd⟩
    exact ⟨hStatus, hUser, hCustomer, hConfirmed, hOr, hAnd⟩

instance (where_ : SaleWhere) (search : TextSearch) (row : SaleListRow) :
    Decidable (where_.Admits search row) :=
  decidable_of_iff' _ SaleWhere.admits_iff

/-- `q?.trim()`, if anything is left of it. -/
def searchText (q : Option String) : Option String :=
  (q.map Text.trim).filter (· ≠ "")

def isNumeric (q : String) : Bool :=
  q ≠ "" && q.toList.all Char.isDigit

/-- `padStart(6, '0')`. -/
def padded (q : String) : String :=
  String.ofList (List.replicate (6 - q.length) '0' ++ q.toList)

def includes (text part : String) : Bool :=
  decide (part.toList <:+: text.toList)

def publicTokens : List String :=
  ["publico", "general", "publico en general"]

/-- Whether a search text stands for the sales without a customer. -/
def searchesPublic (search : TextSearch) (q : String) : Bool :=
  publicTokens.any fun token =>
    includes token (search.normalized q) || includes (search.normalized q) token

/-- `qOrClauses`. -/
def searchClauses (search : TextSearch) (q : String) : List Condition :=
  [.customerFirstName q, .customerLastName q, .userName q, .sellerName q] ++
    [if isNumeric q then .folioEndsWith (padded q) else .folioContains q] ++
    if searchesPublic search q then [.customerIdNull] else []

/-- `buildBaseWhere` up to the search text. -/
def columnsWhere (input : SalesListBaseFilter) : SaleWhere where
  status := some (.statusIs .confirmed)
  userId := if input.cashierUserId = [] then none else some (.userIdIn input.cashierUserId)
  customerId :=
    if input.customerId ≠ [] ∧ input.customerIncludeNull = true then none
    else if input.customerId ≠ [] then some (.customerIdIn input.customerId)
    else if input.customerIncludeNull = true then some .customerIdNull
    else none
  confirmedAt :=
    if input.confirmedFrom = none ∧ input.confirmedTo = none then none
    else some (.confirmedAt ⟨input.confirmedFrom, input.confirmedTo⟩)
  or :=
    if input.customerId ≠ [] ∧ input.customerIncludeNull = true then
      some [.customerIdIn input.customerId, .customerIdNull]
    else none
  and := []

/-- The search text joins the object: an `OR` that is there moves under `AND`; else it becomes
the `OR`, and takes the place of the filter on sales without a customer where it admits them. -/
def addSearch (search : TextSearch) (q : String) (where_ : SaleWhere) : SaleWhere :=
  match where_.or with
  | some existingCustomerOr =>
      { where_ with
        or := none
        and := where_.and ++ [existingCustomerOr, searchClauses search q] }
  | none =>
      { where_ with
        customerId :=
          if where_.customerId = some .customerIdNull ∧
              .customerIdNull ∈ searchClauses search q then none
          else where_.customerId
        or := some (searchClauses search q) }

def buildBaseWhere (search : TextSearch) (input : SalesListBaseFilter) : SaleWhere :=
  match searchText input.q with
  | none => columnsWhere input
  | some q => addSearch search q (columnsWhere input)

/-- The clauses after the base one; each is a condition or an `OR` of two. -/
def extendedClauses (input : SalesListExtendedFilter) : List (List Condition) :=
  (if input.status = [] then [] else [[.statusIn input.status]]) ++
  (if input.paymentStatus = [] then [] else [[.paymentStatusIn input.paymentStatus]]) ++
  (if input.deliveryStatus = [] then [] else [[.deliveryStatusIn input.deliveryStatus]]) ++
  (if input.folio = [] then [] else [[.folioIn input.folio]]) ++
  (if input.totalMin = none ∧ input.totalMax = none then []
    else [[.totalCents ⟨input.totalMin, input.totalMax⟩]]) ++
  (if input.debtMin = none ∧ input.debtMax = none then []
    else [[.debtCents ⟨input.debtMin, input.debtMax⟩]]) ++
  (if input.dueDateFrom ≠ none ∨ input.dueDateTo ≠ none then
      if input.dueDateIncludeNull then
        [[.dueDate ⟨input.dueDateFrom, input.dueDateTo⟩, .dueDateNull]]
      else [[.dueDate ⟨input.dueDateFrom, input.dueDateTo⟩]]
    else if input.dueDateIncludeNull then [[.dueDateNull]]
    else []) ++
  (if input.paymentMethod ≠ [] then
      if input.paymentMethodIncludeNull then [[.somePayment input.paymentMethod, .noPayment]]
      else [[.somePayment input.paymentMethod]]
    else if input.paymentMethodIncludeNull then [[.noPayment]]
    else [])

/-- The base object and the clauses that are joined with it by `AND`, if there are any. -/
structure ExtendedWhere where
  base : SaleWhere
  clauses : List (List Condition)
  deriving DecidableEq, Repr

/-- An explicit filter on the status takes the default one out of the base object. -/
def buildExtendedWhere (search : TextSearch) (input : SalesListExtendedFilter) : ExtendedWhere :=
  let base := buildBaseWhere search input.toSalesListBaseFilter
  { base := if input.status = [] then base else { base with status := none }
    clauses := extendedClauses input }

structure ExtendedWhere.Admits (where_ : ExtendedWhere) (search : TextSearch)
    (row : SaleListRow) : Prop where
  base : where_.base.Admits search row
  clauses : ∀ conditions ∈ where_.clauses, AnyOf search row conditions

theorem ExtendedWhere.admits_iff {where_ : ExtendedWhere} {search : TextSearch}
    {row : SaleListRow} :
    where_.Admits search row ↔
      where_.base.Admits search row ∧ ∀ conditions ∈ where_.clauses, AnyOf search row conditions :=
  ⟨fun hAdmits => ⟨hAdmits.base, hAdmits.clauses⟩, fun ⟨hBase, hClauses⟩ => ⟨hBase, hClauses⟩⟩

instance (where_ : ExtendedWhere) (search : TextSearch) (row : SaleListRow) :
    Decidable (where_.Admits search row) :=
  decidable_of_iff' _ ExtendedWhere.admits_iff

/-! ### What the filters say -/

/-- A sale matches a search text by a name, by its folio, or as a sale to the public. -/
inductive MatchesSearch (search : TextSearch) (q : String) (row : SaleListRow) : Prop where
  | firstName {customer : CustomerName} (has : row.customer = some customer)
      (matches_ : search.contains customer.firstName q)
  | lastName {customer : CustomerName} {name : String} (has : row.customer = some customer)
      (named : customer.lastName = some name) (matches_ : search.contains name q)
  | cashier (matches_ : search.contains row.userName q)
  | seller {name : String} (has : row.sellerName = some name) (matches_ : search.contains name q)
  | folioNumber {folio : String} (has : row.folio = some folio) (numeric : isNumeric q)
      (matches_ : search.endsWith folio (padded q))
  | folio {folio : String} (has : row.folio = some folio) (text : isNumeric q = false)
      (matches_ : search.contains folio q)
  | public_ (none_ : row.customer = none) (searches : searchesPublic search q)

/-- Every base filter that is given is met, and the search text is matched. -/
structure SalesListBaseFilter.Satisfied (search : TextSearch) (input : SalesListBaseFilter)
    (row : SaleListRow) : Prop where
  cashier : input.cashierUserId ≠ [] → row.userId ∈ input.cashierUserId
  customer : input.customerId ≠ [] ∨ input.customerIncludeNull = true →
    (∃ customer ∈ row.customer, customer.id ∈ input.customerId) ∨
      input.customerIncludeNull = true ∧ row.customer = none
  confirmedFrom : ∀ from_ ∈ input.confirmedFrom, ∃ at_ ∈ row.confirmedAt, from_ ≤ at_
  confirmedTo : ∀ to_ ∈ input.confirmedTo, ∃ at_ ∈ row.confirmedAt, at_ ≤ to_
  search : ∀ q ∈ searchText input.q, MatchesSearch search q row

/-- Every filter that is given is met. -/
structure SalesListExtendedFilter.Satisfied (search : TextSearch)
    (input : SalesListExtendedFilter) (row : SaleListRow) : Prop where
  base : input.toSalesListBaseFilter.Satisfied search row
  status : input.status ≠ [] → row.status ∈ input.status
  paymentStatus : input.paymentStatus ≠ [] →
    ∃ status ∈ row.paymentStatus, status ∈ input.paymentStatus
  deliveryStatus : input.deliveryStatus ≠ [] → row.deliveryStatus ∈ input.deliveryStatus
  folio : input.folio ≠ [] → ∃ folio ∈ row.folio, folio ∈ input.folio
  totalMin : ∀ bound ∈ input.totalMin, bound ≤ row.totalCents
  totalMax : ∀ bound ∈ input.totalMax, row.totalCents ≤ bound
  debtMin : ∀ bound ∈ input.debtMin, bound ≤ row.debtCents
  debtMax : ∀ bound ∈ input.debtMax, row.debtCents ≤ bound
  dueDate : input.dueDateFrom ≠ none ∨ input.dueDateTo ≠ none ∨ input.dueDateIncludeNull = true →
    ((input.dueDateFrom ≠ none ∨ input.dueDateTo ≠ none) ∧ ∃ dueDate ∈ row.dueDate,
      (∀ from_ ∈ input.dueDateFrom, from_ ≤ dueDate) ∧ ∀ to_ ∈ input.dueDateTo, dueDate ≤ to_) ∨
      input.dueDateIncludeNull = true ∧ row.dueDate = none
  paymentMethod : input.paymentMethod ≠ [] ∨ input.paymentMethodIncludeNull = true →
    (∃ method ∈ row.payments, method ∈ input.paymentMethod) ∨
      input.paymentMethodIncludeNull = true ∧ row.payments = []

/-- The sales without a customer, and no others, are filtered for, and the search text stands for
them too. -/
def SalesListBaseFilter.SearchesPublicTwice (search : TextSearch) (input : SalesListBaseFilter) :
    Prop :=
  input.customerId = [] ∧ input.customerIncludeNull = true ∧
    ∃ q ∈ searchText input.q, searchesPublic search q = true

instance (search : TextSearch) (input : SalesListBaseFilter) :
    Decidable (input.SearchesPublicTwice search) := by
  unfold SalesListBaseFilter.SearchesPublicTwice
  infer_instance

/-- The filter as it is read: a search text for the public takes the place of the option. -/
def SalesListBaseFilter.read (search : TextSearch) (input : SalesListBaseFilter) :
    SalesListBaseFilter :=
  if input.SearchesPublicTwice search then { input with customerIncludeNull := false } else input

def SalesListExtendedFilter.read (search : TextSearch) (input : SalesListExtendedFilter) :
    SalesListExtendedFilter :=
  { input with toSalesListBaseFilter := input.toSalesListBaseFilter.read search }

/-! ### The base clause -/

section

variable {search : TextSearch} {row : SaleListRow}

theorem anyOf_searchClauses {q : String} :
    AnyOf search row (searchClauses search q) ↔ MatchesSearch search q row := by
  constructor
  · rintro ⟨condition, hIn, hHolds⟩
    simp only [searchClauses, List.cons_append, List.nil_append, List.mem_cons] at hIn
    rcases hIn with rfl | rfl | rfl | rfl | rfl | hIn
    · obtain ⟨customer, hHas, hMatches⟩ := hHolds
      exact .firstName hHas hMatches
    · obtain ⟨customer, hHas, name, hNamed, hMatches⟩ := hHolds
      exact .lastName hHas hNamed hMatches
    · exact .cashier hHolds
    · obtain ⟨name, hHas, hMatches⟩ := hHolds
      exact .seller hHas hMatches
    · split at hHolds
      · next hNumeric =>
          obtain ⟨folio, hHas, hMatches⟩ := hHolds
          exact .folioNumber hHas hNumeric hMatches
      · next hText =>
          obtain ⟨folio, hHas, hMatches⟩ := hHolds
          exact .folio hHas (Bool.eq_false_iff.mpr hText) hMatches
    · split at hIn
      · next hSearches =>
          obtain rfl := List.mem_singleton.mp hIn
          exact .public_ hHolds hSearches
      · cases hIn
  · intro hMatches
    cases hMatches with
    | @firstName customer hHas hMatches =>
        exact ⟨.customerFirstName q, by simp [searchClauses], customer, hHas, hMatches⟩
    | @lastName customer name hHas hNamed hMatches =>
        exact ⟨.customerLastName q, by simp [searchClauses], customer, hHas, name, hNamed,
          hMatches⟩
    | cashier hMatches => exact ⟨.userName q, by simp [searchClauses], hMatches⟩
    | @seller name hHas hMatches =>
        exact ⟨.sellerName q, by simp [searchClauses], name, hHas, hMatches⟩
    | @folioNumber folio hHas hNumeric hMatches =>
        exact ⟨.folioEndsWith (padded q), by simp [searchClauses, hNumeric], folio, hHas, hMatches⟩
    | @folio folio hHas hText hMatches =>
        exact ⟨.folioContains q, by simp [searchClauses, hText], folio, hHas, hMatches⟩
    | public_ hNone hSearches =>
        exact ⟨.customerIdNull, by simp [searchClauses, hSearches], hNone⟩

theorem customerIdNull_mem_searchClauses {q : String} :
    Condition.customerIdNull ∈ searchClauses search q ↔ searchesPublic search q = true := by
  cases hSearches : searchesPublic search q <;> cases hNumeric : isNumeric q <;>
    simp [searchClauses, hSearches, hNumeric]

/-- The columns of the base clause, one after the other, under any status. -/
theorem columnsWhere_admits_iff {input : SalesListBaseFilter} {status : Option Condition} :
    ({ columnsWhere input with status := status } : SaleWhere).Admits search row ↔
      (∀ condition ∈ status, condition.Holds search row) ∧
        ({ input with q := none } : SalesListBaseFilter).Satisfied search row := by
  constructor
  · rintro ⟨hStatus, hUser, hCustomer, hConfirmed, hOr, _⟩
    refine ⟨hStatus, ?_, ?_, ?_, ?_, by simp [searchText]⟩
    · intro hGiven
      simpa [columnsWhere, hGiven, Condition.Holds] using hUser
    · intro hGiven
      by_cases hIds : input.customerId = []
      · have hNull : input.customerIncludeNull = true := by simpa [hIds] using hGiven
        exact .inr ⟨hNull, by simpa [columnsWhere, hIds, hNull, Condition.Holds] using hCustomer⟩
      · by_cases hNull : input.customerIncludeNull = true
        · have hAny := hOr [.customerIdIn input.customerId, .customerIdNull]
            (by simp [columnsWhere, hIds, hNull])
          simpa [AnyOf, Condition.Holds, hNull] using hAny
        · left
          simpa [columnsWhere, hIds, hNull, Condition.Holds] using hCustomer
    · intro from_ hFrom
      have hGiven : input.confirmedFrom ≠ none := by
        rw [Option.mem_def.mp hFrom]
        exact Option.some_ne_none _
      obtain ⟨at_, hAt, hRange⟩ : Condition.Holds search row
          (.confirmedAt ⟨input.confirmedFrom, input.confirmedTo⟩) :=
        hConfirmed _ (by simp [columnsWhere, hGiven])
      exact ⟨at_, hAt, hRange.1 from_ hFrom⟩
    · intro to_ hTo
      have hGiven : input.confirmedTo ≠ none := by
        rw [Option.mem_def.mp hTo]
        exact Option.some_ne_none _
      obtain ⟨at_, hAt, hRange⟩ : Condition.Holds search row
          (.confirmedAt ⟨input.confirmedFrom, input.confirmedTo⟩) :=
        hConfirmed _ (by simp [columnsWhere, hGiven])
      exact ⟨at_, hAt, hRange.2 to_ hTo⟩
  · rintro ⟨hStatus, hUser, hCustomer, hFrom, hTo, _⟩
    refine ⟨hStatus, ?_, ?_, ?_, ?_, ?_⟩
    · by_cases hGiven : input.cashierUserId = []
      · simp [columnsWhere, hGiven]
      · simpa [columnsWhere, hGiven, Condition.Holds] using hUser hGiven
    · by_cases hIds : input.customerId = [] <;> by_cases hNull : input.customerIncludeNull = true
      · simpa [columnsWhere, hIds, hNull, Condition.Holds] using hCustomer
      · simp [columnsWhere, hIds, hNull]
      · simp [columnsWhere, hIds, hNull]
      · simpa [columnsWhere, hIds, hNull, Condition.Holds] using hCustomer
    · by_cases hGiven : input.confirmedFrom = none ∧ input.confirmedTo = none
      · simp [columnsWhere, hGiven]
      · intro condition hCondition
        rw [columnsWhere] at hCondition
        simp only [if_neg hGiven, Option.mem_def, Option.some.injEq] at hCondition
        subst hCondition
        cases hAt : row.confirmedAt with
        | none =>
            exfalso
            apply hGiven
            constructor
            · cases hGivenFrom : input.confirmedFrom with
              | none => rfl
              | some from_ => simpa [hAt] using hFrom from_ hGivenFrom
            · cases hGivenTo : input.confirmedTo with
              | none => rfl
              | some to_ => simpa [hAt] using hTo to_ hGivenTo
        | some at_ =>
            refine ⟨at_, hAt, ?_, ?_⟩
            · intro from_ hGivenFrom
              simpa [hAt] using hFrom from_ hGivenFrom
            · intro to_ hGivenTo
              simpa [hAt] using hTo to_ hGivenTo
    · by_cases hIds : input.customerId = [] <;> by_cases hNull : input.customerIncludeNull = true
      · simp [columnsWhere, hIds]
      · simp [columnsWhere, hIds]
      · simpa [columnsWhere, hIds, hNull, AnyOf, Condition.Holds] using hCustomer
      · simp [columnsWhere, hNull]
    · simp [columnsWhere]

/-- A search text joins an object with an `OR` under `AND`. -/
theorem addSearch_admits_of_or {where_ : SaleWhere} {existingCustomerOr : List Condition}
    {q : String} (hOr : where_.or = some existingCustomerOr) :
    (addSearch search q where_).Admits search row ↔
      where_.Admits search row ∧ MatchesSearch search q row := by
  rw [← anyOf_searchClauses]
  simp only [addSearch, hOr]
  constructor
  · rintro ⟨hStatus, hUser, hCustomer, hConfirmed, -, hAnd⟩
    refine ⟨⟨hStatus, hUser, hCustomer, hConfirmed, ?_, ?_⟩, ?_⟩
    · intro conditions hConditions
      obtain rfl : existingCustomerOr = conditions := by simpa [hOr] using hConditions
      exact hAnd existingCustomerOr (by simp)
    · intro conditions hIn
      exact hAnd conditions (List.mem_append_left _ hIn)
    · exact hAnd (searchClauses search q) (by simp)
  · rintro ⟨⟨hStatus, hUser, hCustomer, hConfirmed, hExisting, hAnd⟩, hSearch⟩
    refine ⟨hStatus, hUser, hCustomer, hConfirmed, by simp, ?_⟩
    intro conditions hIn
    rcases List.mem_append.mp hIn with hIn | hIn
    · exact hAnd conditions hIn
    · rcases List.mem_pair.mp hIn with rfl | rfl
      · exact hExisting _ hOr
      · exact hSearch

/-- A search text becomes the `OR` of an object without one. -/
theorem addSearch_admits_of_or_none {where_ : SaleWhere} {q : String} (hOr : where_.or = none) :
    (addSearch search q where_).Admits search row ↔
      ({ where_ with
          customerId :=
            if where_.customerId = some .customerIdNull ∧ searchesPublic search q = true then none
            else where_.customerId } : SaleWhere).Admits search row ∧
        MatchesSearch search q row := by
  rw [← anyOf_searchClauses]
  simp only [addSearch, hOr, customerIdNull_mem_searchClauses]
  constructor
  · rintro ⟨hStatus, hUser, hCustomer, hConfirmed, hSearch, hAnd⟩
    exact ⟨⟨hStatus, hUser, hCustomer, hConfirmed, by simp, hAnd⟩, hSearch _ rfl⟩
  · rintro ⟨⟨hStatus, hUser, hCustomer, hConfirmed, -, hAnd⟩, hSearch⟩
    refine ⟨hStatus, hUser, hCustomer, hConfirmed, ?_, hAnd⟩
    intro conditions hConditions
    obtain rfl : searchClauses search q = conditions := by simpa using hConditions
    exact hSearch

/-- A search text takes the option for no customer out of the columns where it stands for it. -/
theorem columnsWhere_read {input : SalesListBaseFilter} {status : Option Condition} {q : String}
    (hText : searchText input.q = some q) (hOr : (columnsWhere input).or = none) :
    ({ columnsWhere input with
        status := status
        customerId :=
          if (columnsWhere input).customerId = some .customerIdNull ∧
              searchesPublic search q = true then none
          else (columnsWhere input).customerId } : SaleWhere) =
      { columnsWhere (input.read search) with status := status } := by
  by_cases hIds : input.customerId = [] <;> by_cases hNull : input.customerIncludeNull = true <;>
    by_cases hPublic : searchesPublic search q = true <;>
    simp_all [columnsWhere, SalesListBaseFilter.read, SalesListBaseFilter.SearchesPublicTwice]

theorem addSearch_withStatus {where_ : SaleWhere} {status : Option Condition} {q : String} :
    ({ addSearch search q where_ with status := status } : SaleWhere) =
      addSearch search q { where_ with status := status } := by
  cases hOr : where_.or <;> simp [addSearch, hOr]

theorem read_q {input : SalesListBaseFilter} : (input.read search).q = input.q := by
  unfold SalesListBaseFilter.read
  split <;> rfl

theorem read_of_no_search {input : SalesListBaseFilter} (hText : searchText input.q = none) :
    input.read search = input := by
  simp [SalesListBaseFilter.read, SalesListBaseFilter.SearchesPublicTwice, hText]

/-- The columns and the search text are what a filter asks for. -/
theorem satisfied_iff {input : SalesListBaseFilter} :
    input.Satisfied search row ↔
      ({ input with q := none } : SalesListBaseFilter).Satisfied search row ∧
        ∀ q ∈ searchText input.q, MatchesSearch search q row := by
  constructor
  · rintro ⟨hCashier, hCustomer, hFrom, hTo, hSearch⟩
    exact ⟨⟨hCashier, hCustomer, hFrom, hTo, by simp [searchText]⟩, hSearch⟩
  · rintro ⟨⟨hCashier, hCustomer, hFrom, hTo, -⟩, hSearch⟩
    exact ⟨hCashier, hCustomer, hFrom, hTo, hSearch⟩

/-- The base clause under any status admits the sales that meet every filter, as it is read. -/
theorem baseWhere_admits_iff {input : SalesListBaseFilter} {status : Option Condition} :
    ({ buildBaseWhere search input with status := status } : SaleWhere).Admits search row ↔
      (∀ condition ∈ status, condition.Holds search row) ∧
        (input.read search).Satisfied search row := by
  rw [satisfied_iff, read_q, ← and_assoc, ← columnsWhere_admits_iff, buildBaseWhere]
  cases hText : searchText input.q with
  | none => simp [read_of_no_search hText]
  | some q =>
      simp only [addSearch_withStatus, Option.mem_def, Option.some.injEq, forall_eq']
      let withStatus : SaleWhere := { columnsWhere input with status := status }
      cases hOr : (columnsWhere input).or with
      | none =>
          have hNone : withStatus.or = none := hOr
          rw [← columnsWhere_read hText hOr]
          exact hOr ▸ addSearch_admits_of_or_none hNone
      | some existingCustomerOr =>
          have hRead : input.read search = input := by
            unfold SalesListBaseFilter.read
            rw [if_neg]
            rintro ⟨hIds, -⟩
            simp [columnsWhere, hIds] at hOr
          have hSome : withStatus.or = some existingCustomerOr := hOr
          rw [hRead]
          exact hOr ▸ addSearch_admits_of_or hSome

theorem buildBaseWhere_status {input : SalesListBaseFilter} :
    (buildBaseWhere search input).status = some (.statusIs .confirmed) := by
  cases hText : searchText input.q with
  | none => simp [buildBaseWhere, hText, columnsWhere]
  | some q =>
      cases hOr : (columnsWhere input).or <;>
        simp [buildBaseWhere, hText, addSearch, hOr] <;> rfl

theorem buildBaseWhere_admits_iff {input : SalesListBaseFilter} :
    (buildBaseWhere search input).Admits search row ↔
      row.status = .confirmed ∧ (input.read search).Satisfied search row := by
  have hSame : buildBaseWhere search input =
      { buildBaseWhere search input with status := some (.statusIs .confirmed) } := by
    rw [← @buildBaseWhere_status search input]
  rw [hSame, baseWhere_admits_iff]
  simp [Condition.Holds]

/-! ### The extended clauses -/

theorem anyOf_singleton {condition : Condition} :
    AnyOf search row [condition] ↔ condition.Holds search row := by
  simp [AnyOf]

theorem admits_clause {notGiven : Prop} [Decidable notGiven] {conditions : List Condition} :
    (∀ clause ∈ (if notGiven then [] else [conditions] : List (List Condition)),
        AnyOf search row clause) ↔ (¬ notGiven → AnyOf search row conditions) := by
  by_cases hNot : notGiven <;> simp [hNot]

theorem admits_range {lower upper : Option Int} {value : Int} :
    (¬ (lower = none ∧ upper = none) → Range.Holds ⟨lower, upper⟩ value) ↔
      (∀ bound ∈ lower, bound ≤ value) ∧ ∀ bound ∈ upper, value ≤ bound := by
  cases lower <;> cases upper <;> simp [Range.Holds]

/-- A filter whose option adds the sales without a value to those it selects by value. -/
theorem admits_orNull {given includeNull : Prop} [Decidable given] [Decidable includeNull]
    {byValue without : Condition} :
    (∀ clause ∈ (if given then if includeNull then [[byValue, without]] else [[byValue]]
          else if includeNull then [[without]] else [] : List (List Condition)),
        AnyOf search row clause) ↔
      (given ∨ includeNull →
        (given ∧ byValue.Holds search row) ∨ includeNull ∧ without.Holds search row) := by
  by_cases hGiven : given <;> by_cases hNull : includeNull <;> simp [hGiven, hNull, AnyOf]

/-- The clauses after the base one hold of the sales that meet the filters they come from. -/
theorem extendedClauses_iff {input : SalesListExtendedFilter}
    (hBase : input.toSalesListBaseFilter.Satisfied search row) :
    (∀ clause ∈ extendedClauses input, AnyOf search row clause) ↔ input.Satisfied search row := by
  simp only [extendedClauses, List.forall_mem_append, admits_clause, admits_orNull,
    anyOf_singleton, Condition.Holds, admits_range]
  constructor
  · rintro ⟨⟨⟨⟨⟨⟨⟨hStatus, hPayment⟩, hDelivery⟩, hFolio⟩, hTotal⟩, hDebt⟩, hDue⟩, hMethod⟩
    refine ⟨hBase, hStatus, hPayment, hDelivery, hFolio, hTotal.1, hTotal.2, hDebt.1, hDebt.2,
      ?_, ?_⟩
    · simpa only [or_assoc, Range.Holds] using hDue
    · intro hGiven
      exact (hMethod hGiven).imp_left And.right
  · rintro ⟨-, hStatus, hPayment, hDelivery, hFolio, hTotalMin, hTotalMax, hDebtMin, hDebtMax,
      hDue, hMethod⟩
    refine ⟨⟨⟨⟨⟨⟨⟨hStatus, hPayment⟩, hDelivery⟩, hFolio⟩, hTotalMin, hTotalMax⟩, hDebtMin,
      hDebtMax⟩, ?_⟩, ?_⟩
    · simpa only [or_assoc, Range.Holds] using hDue
    · intro hGiven
      rcases hMethod hGiven with hSome | hNone
      · refine .inl ⟨?_, hSome⟩
        obtain ⟨method, -, hIn⟩ := hSome
        exact List.ne_nil_of_mem hIn
      · exact .inr hNone

/-- The joined clauses admit the sales that meet every filter, as it is read, and are confirmed
where no status is given. -/
theorem buildExtendedWhere_admits_iff {input : SalesListExtendedFilter} :
    (buildExtendedWhere search input).Admits search row ↔
      (input.status = [] → row.status = .confirmed) ∧ (input.read search).Satisfied search row := by
  have hClauses : ∀ hBase : (input.toSalesListBaseFilter.read search).Satisfied search row,
      (∀ clause ∈ extendedClauses input, AnyOf search row clause) ↔
        (input.read search).Satisfied search row :=
    fun hBase => @extendedClauses_iff search row (input.read search) hBase
  by_cases hStatus : input.status = []
  · constructor
    · rintro ⟨hBase, hAnd⟩
      simp only [buildExtendedWhere, if_pos hStatus, buildBaseWhere_admits_iff] at hBase
      exact ⟨fun _ => hBase.1, (hClauses hBase.2).mp hAnd⟩
    · rintro ⟨hConfirmed, hSatisfied⟩
      refine ⟨?_, (hClauses hSatisfied.base).mpr hSatisfied⟩
      simp only [buildExtendedWhere, if_pos hStatus, buildBaseWhere_admits_iff]
      exact ⟨hConfirmed hStatus, hSatisfied.base⟩
  · constructor
    · rintro ⟨hBase, hAnd⟩
      simp only [buildExtendedWhere, if_neg hStatus, baseWhere_admits_iff] at hBase
      exact ⟨fun hNone => absurd hNone hStatus, (hClauses hBase.2).mp hAnd⟩
    · rintro ⟨-, hSatisfied⟩
      refine ⟨?_, (hClauses hSatisfied.base).mpr hSatisfied⟩
      simp only [buildExtendedWhere, if_neg hStatus, baseWhere_admits_iff]
      exact ⟨by simp, hSatisfied.base⟩

/-! ### Adding filters -/

/-- `more` has the filters of `fewer` and maybe others; an option for the sales without a value
is part of the filter on that value. -/
structure SalesListBaseFilter.AddsTo (more fewer : SalesListBaseFilter) : Prop where
  search : searchText fewer.q = none ∨ searchText more.q = searchText fewer.q
  cashier : fewer.cashierUserId = [] ∨ more.cashierUserId = fewer.cashierUserId
  customer : (fewer.customerId = [] ∧ fewer.customerIncludeNull = false) ∨
    (more.customerId = fewer.customerId ∧ more.customerIncludeNull = fewer.customerIncludeNull)
  confirmedFrom : fewer.confirmedFrom = none ∨ more.confirmedFrom = fewer.confirmedFrom
  confirmedTo : fewer.confirmedTo = none ∨ more.confirmedTo = fewer.confirmedTo

structure SalesListExtendedFilter.AddsTo (more fewer : SalesListExtendedFilter) : Prop where
  base : more.toSalesListBaseFilter.AddsTo fewer.toSalesListBaseFilter
  status : fewer.status = [] ∨ more.status = fewer.status
  paymentStatus : fewer.paymentStatus = [] ∨ more.paymentStatus = fewer.paymentStatus
  deliveryStatus : fewer.deliveryStatus = [] ∨ more.deliveryStatus = fewer.deliveryStatus
  folio : fewer.folio = [] ∨ more.folio = fewer.folio
  totalMin : fewer.totalMin = none ∨ more.totalMin = fewer.totalMin
  totalMax : fewer.totalMax = none ∨ more.totalMax = fewer.totalMax
  debtMin : fewer.debtMin = none ∨ more.debtMin = fewer.debtMin
  debtMax : fewer.debtMax = none ∨ more.debtMax = fewer.debtMax
  dueDate : fewer.dueDateFrom = none ∧ fewer.dueDateTo = none ∧ fewer.dueDateIncludeNull = false ∨
    more.dueDateIncludeNull = fewer.dueDateIncludeNull ∧
      (fewer.dueDateFrom = none ∧ fewer.dueDateTo = none →
        more.dueDateFrom = none ∧ more.dueDateTo = none) ∧
      (fewer.dueDateFrom = none ∨ more.dueDateFrom = fewer.dueDateFrom) ∧
      (fewer.dueDateTo = none ∨ more.dueDateTo = fewer.dueDateTo)
  paymentMethod : fewer.paymentMethod = [] ∧ fewer.paymentMethodIncludeNull = false ∨
    more.paymentMethod = fewer.paymentMethod ∧
      more.paymentMethodIncludeNull = fewer.paymentMethodIncludeNull

/-- The added search text takes the place of the option for the sales without a customer. -/
def TakesOption (search : TextSearch) (fewer more : SalesListBaseFilter) : Prop :=
  fewer.customerIncludeNull = true ∧ ¬ fewer.SearchesPublicTwice search ∧
    more.SearchesPublicTwice search

@[simp]
theorem read_cashierUserId {input : SalesListBaseFilter} :
    (input.read search).cashierUserId = input.cashierUserId := by
  unfold SalesListBaseFilter.read
  split <;> rfl

@[simp]
theorem read_customerId {input : SalesListBaseFilter} :
    (input.read search).customerId = input.customerId := by
  unfold SalesListBaseFilter.read
  split <;> rfl

@[simp]
theorem read_confirmedFrom {input : SalesListBaseFilter} :
    (input.read search).confirmedFrom = input.confirmedFrom := by
  unfold SalesListBaseFilter.read
  split <;> rfl

@[simp]
theorem read_confirmedTo {input : SalesListBaseFilter} :
    (input.read search).confirmedTo = input.confirmedTo := by
  unfold SalesListBaseFilter.read
  split <;> rfl

theorem read_customerIncludeNull {input : SalesListBaseFilter} :
    (input.read search).customerIncludeNull = true ↔
      input.customerIncludeNull = true ∧ ¬ input.SearchesPublicTwice search := by
  unfold SalesListBaseFilter.read
  split <;> simp_all

/-- A filter that is not given, or given alike, is met where the other one is. -/
theorem met_of_added {α : Type} {fewer more unset : α} (Met : α → Prop)
    (hAdded : fewer = unset ∨ more = fewer) (hMore : more ≠ unset → Met more)
    (hGiven : fewer ≠ unset) : Met fewer := by
  rcases hAdded with hUnset | hSame
  · exact absurd hUnset hGiven
  · rw [hSame] at hMore
    exact hMore hGiven

theorem bound_of_added {α : Type} {fewer more : Option α} {Met : α → Prop}
    (hAdded : fewer = none ∨ more = fewer) (hMore : ∀ bound ∈ more, Met bound) :
    ∀ bound ∈ fewer, Met bound := by
  rcases hAdded with hNone | hSame
  · simp [hNone]
  · rwa [hSame] at hMore

theorem searchesPublicTwice_of_adds {more fewer : SalesListBaseFilter} (hAdds : more.AddsTo fewer)
    (hTwice : fewer.SearchesPublicTwice search) : more.SearchesPublicTwice search := by
  obtain ⟨hIds, hNull, q, hText, hPublic⟩ := hTwice
  rcases hAdds.customer with ⟨-, hNot⟩ | ⟨hSameIds, hSameNull⟩
  · simp [hNull] at hNot
  · rcases hAdds.search with hNone | hSame
    · simp [hNone] at hText
    · exact ⟨hSameIds.trans hIds, hSameNull.trans hNull, q, hSame ▸ hText, hPublic⟩

/-- What is admitted under more filters is admitted under fewer, but for the sales with a customer
where the added search text takes the place of the option for those without. -/
theorem base_satisfied_of_adds {more fewer : SalesListBaseFilter} (hAdds : more.AddsTo fewer)
    (hOption : TakesOption search fewer more → row.customer = none)
    (hMore : (more.read search).Satisfied search row) :
    (fewer.read search).Satisfied search row := by
  obtain ⟨hCashier, hCustomer, hFrom, hTo, hSearch⟩ := hMore
  simp only [read_cashierUserId, read_customerId, read_confirmedFrom, read_confirmedTo,
    read_q] at hCashier hCustomer hFrom hTo hSearch
  constructor
  · simpa using met_of_added (row.userId ∈ ·) hAdds.cashier hCashier
  · simp only [read_customerId]
    intro hGiven
    rcases hAdds.customer with ⟨hIds, hNull⟩ | ⟨hSameIds, hSameNull⟩
    · simp [read_customerIncludeNull, hIds, hNull] at hGiven
    · rw [read_customerIncludeNull] at hGiven ⊢
      rw [read_customerIncludeNull, hSameIds, hSameNull] at hCustomer
      by_cases hTwice : more.SearchesPublicTwice search
      · -- the option is all that `fewer` may ask of the customer
        have hIds : fewer.customerId = [] := hSameIds ▸ hTwice.1
        obtain ⟨hNull, hNotTwice⟩ := hGiven.resolve_left (· hIds)
        exact .inr ⟨⟨hNull, hNotTwice⟩, hOption ⟨hNull, hNotTwice, hTwice⟩⟩
      · have hNotTwice : ¬ fewer.SearchesPublicTwice search :=
          fun hFewer => hTwice (searchesPublicTwice_of_adds hAdds hFewer)
        refine (hCustomer (hGiven.imp_right fun hNull => ⟨hNull.1, hTwice⟩)).imp_right ?_
        rintro ⟨⟨hNull, -⟩, hNone⟩
        exact ⟨⟨hNull, hNotTwice⟩, hNone⟩
  · simpa using bound_of_added hAdds.confirmedFrom hFrom
  · simpa using bound_of_added hAdds.confirmedTo hTo
  · rw [read_q]
    rcases hAdds.search with hNone | hSame
    · simp [hNone]
    · rwa [hSame] at hSearch

theorem satisfied_of_adds {more fewer : SalesListExtendedFilter} (hAdds : more.AddsTo fewer)
    (hOption : TakesOption search fewer.toSalesListBaseFilter more.toSalesListBaseFilter →
      row.customer = none)
    (hMore : (more.read search).Satisfied search row) :
    (fewer.read search).Satisfied search row where
  base := base_satisfied_of_adds hAdds.base hOption hMore.base
  status := met_of_added (row.status ∈ ·) hAdds.status hMore.status
  paymentStatus :=
    met_of_added (fun given => ∃ status ∈ row.paymentStatus, status ∈ given) hAdds.paymentStatus
      hMore.paymentStatus
  deliveryStatus :=
    met_of_added (row.deliveryStatus ∈ ·) hAdds.deliveryStatus hMore.deliveryStatus
  folio :=
    met_of_added (fun given => ∃ folio ∈ row.folio, folio ∈ given) hAdds.folio hMore.folio
  totalMin := bound_of_added hAdds.totalMin hMore.totalMin
  totalMax := bound_of_added hAdds.totalMax hMore.totalMax
  debtMin := bound_of_added hAdds.debtMin hMore.debtMin
  debtMax := bound_of_added hAdds.debtMax hMore.debtMax
  dueDate := by
    intro hGiven
    have hDue := hMore.dueDate
    simp only [SalesListExtendedFilter.read] at hGiven hDue ⊢
    rcases hAdds.dueDate with ⟨hFrom, hTo, hNull⟩ | ⟨hSameNull, hNoBounds, hFrom, hTo⟩
    · simp [hFrom, hTo, hNull] at hGiven
    · rw [hSameNull] at hDue
      by_cases hUnbounded : fewer.dueDateFrom = none ∧ fewer.dueDateTo = none
      · obtain ⟨hMoreFrom, hMoreTo⟩ := hNoBounds hUnbounded
        have hNull : fewer.dueDateIncludeNull = true := by simpa [hUnbounded] using hGiven
        refine .inr ((hDue (.inr (.inr hNull))).resolve_left ?_)
        simp [hMoreFrom, hMoreTo]
      · have hBounded : fewer.dueDateFrom ≠ none ∨ fewer.dueDateTo ≠ none := by
          simpa only [not_and_or] using hUnbounded
        have hMoreBounded : more.dueDateFrom ≠ none ∨ more.dueDateTo ≠ none := by
          refine hBounded.imp (fun hGivenFrom => ?_) (fun hGivenTo => ?_)
          · rwa [hFrom.resolve_left hGivenFrom]
          · rwa [hTo.resolve_left hGivenTo]
        refine (hDue (or_assoc.mp (.inl hMoreBounded))).imp_left ?_
        rintro ⟨-, dueDate, hHas, hLower, hUpper⟩
        exact ⟨hBounded, dueDate, hHas, bound_of_added hFrom hLower, bound_of_added hTo hUpper⟩
  paymentMethod := by
    intro hGiven
    have hMethod := hMore.paymentMethod
    simp only [SalesListExtendedFilter.read] at hGiven hMethod ⊢
    rcases hAdds.paymentMethod with ⟨hMethods, hNull⟩ | ⟨hSame, hSameNull⟩
    · simp [hMethods, hNull] at hGiven
    · rw [hSame, hSameNull] at hMethod
      exact hMethod hGiven

end

/-! ### The list of sales -/

/-- The clauses admit exactly the sales that meet every filter, as it is read. Added filters admit
no other sale, but for the statuses that take the place of the default one and the search text
that takes the place of the option for the sales without a customer. -/
theorem saleWhere_conjunctive (search : TextSearch) (row : SaleListRow) :
    (∀ input : SalesListBaseFilter, (buildBaseWhere search input).Admits search row ↔
      row.status = .confirmed ∧ (input.read search).Satisfied search row) ∧
    (∀ input : SalesListExtendedFilter, (buildExtendedWhere search input).Admits search row ↔
      (input.status = [] → row.status = .confirmed) ∧
        (input.read search).Satisfied search row) ∧
    (∀ more fewer : SalesListBaseFilter, more.AddsTo fewer →
      (TakesOption search fewer more → row.customer = none) →
      (buildBaseWhere search more).Admits search row →
      (buildBaseWhere search fewer).Admits search row) ∧
    ∀ more fewer : SalesListExtendedFilter, more.AddsTo fewer →
      (TakesOption search fewer.toSalesListBaseFilter more.toSalesListBaseFilter →
        row.customer = none) →
      (fewer.status = [] → more.status ≠ [] → row.status = .confirmed) →
      (buildExtendedWhere search more).Admits search row →
      (buildExtendedWhere search fewer).Admits search row := by
  refine ⟨fun _ => buildBaseWhere_admits_iff, fun _ => buildExtendedWhere_admits_iff, ?_, ?_⟩
  · intro more fewer hAdds hOption hMore
    rw [buildBaseWhere_admits_iff] at hMore ⊢
    exact ⟨hMore.1, base_satisfied_of_adds hAdds hOption hMore.2⟩
  · intro more fewer hAdds hOption hReplaced hMore
    rw [buildExtendedWhere_admits_iff] at hMore ⊢
    refine ⟨fun hFewer => ?_, satisfied_of_adds hAdds hOption hMore.2⟩
    by_cases hStatus : more.status = []
    · exact hMore.1 hStatus
    · exact hReplaced hFewer hStatus

def noFilters : SalesListExtendedFilter where
  q := none
  cashierUserId := []
  customerId := []
  customerIncludeNull := false
  confirmedFrom := none
  confirmedTo := none
  folio := []
  status := []
  paymentStatus := []
  deliveryStatus := []
  paymentMethod := []
  paymentMethodIncludeNull := false
  totalMin := none
  totalMax := none
  debtMin := none
  debtMax := none
  dueDateFrom := none
  dueDateTo := none
  dueDateIncludeNull := false

def lowered (text : String) : String :=
  String.ofList (text.toList.map Char.toLower)

/-- Texts are compared in lower case. -/
def loweredSearch : TextSearch where
  contains text part := includes (lowered text) (lowered part)
  endsWith text part := decide ((lowered part).toList <:+ (lowered text).toList)
  normalized := lowered

/-- A confirmed sale to a customer whose name holds a token of the public. -/
def generalSale : SaleListRow where
  status := .confirmed
  userId := "cashier"
  userName := "Ana"
  sellerName := none
  customer := some ⟨"customer", "General", some "Motors"⟩
  confirmedAt := some 0
  folio := some "V-2026-000001"
  paymentStatus := some .paid
  deliveryStatus := .pending
  totalCents := 100
  debtCents := 0
  dueDate := none
  payments := [.cash]

def ofTheCashier : SalesListExtendedFilter :=
  { noFilters with cashierUserId := ["cashier"], q := some "general" }

/-- What a cashier's sales and a search text admit, the empty query admits. -/
theorem saleWhere_conjunctive_of_cashier :
    (buildExtendedWhere loweredSearch noFilters).Admits loweredSearch generalSale := by
  have hAdds : ofTheCashier.AddsTo noFilters := by
    constructor
    · constructor <;> simp [noFilters, searchText]
    all_goals simp [noFilters]
  have hMore : (buildExtendedWhere loweredSearch ofTheCashier).Admits loweredSearch
      generalSale := by
    decide +kernel
  exact (saleWhere_conjunctive loweredSearch generalSale).2.2.2 ofTheCashier noFilters hAdds
    (fun hOption => by simp [TakesOption, noFilters] at hOption) (fun _ _ => rfl) hMore

def draftSale : SaleListRow :=
  { generalSale with status := .draft }

def drafts : SalesListExtendedFilter :=
  { noFilters with status := [.draft] }

def toThePublic : SalesListExtendedFilter :=
  { noFilters with customerIncludeNull := true }

def toThePublicByName : SalesListExtendedFilter :=
  { toThePublic with q := some "general" }

/-- A draft meets an empty query and is not admitted, but it is when its status is asked for; a
search for the public admits a sale to a customer beside the option for those without one. -/
theorem filters_add_sales :
    (noFilters.Satisfied loweredSearch draftSale ∧
      ¬ (buildExtendedWhere loweredSearch noFilters).Admits loweredSearch draftSale) ∧
    (drafts.AddsTo noFilters ∧
      (buildExtendedWhere loweredSearch drafts).Admits loweredSearch draftSale) ∧
    (toThePublicByName.AddsTo toThePublic ∧
      ¬ (buildExtendedWhere loweredSearch toThePublic).Admits loweredSearch generalSale ∧
      ¬ toThePublicByName.Satisfied loweredSearch generalSale ∧
      (buildExtendedWhere loweredSearch toThePublicByName).Admits loweredSearch generalSale) := by
  refine ⟨⟨?_, by decide +kernel⟩, ⟨?_, by decide +kernel⟩, ?_, by decide +kernel, ?_,
    by decide +kernel⟩
  · constructor
    · constructor <;> simp [noFilters, searchText]
    all_goals simp [noFilters]
  · constructor
    · constructor <;> simp [drafts]
    all_goals simp [drafts, noFilters]
  · constructor
    · constructor <;> simp [toThePublicByName, toThePublic, noFilters, searchText]
    all_goals simp [toThePublicByName, toThePublic, noFilters]
  · intro hSatisfied
    simpa [toThePublicByName, toThePublic, noFilters, generalSale] using hSatisfied.base.customer

end Houndfe.Sales
