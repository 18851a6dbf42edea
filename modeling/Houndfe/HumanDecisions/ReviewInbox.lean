import Houndfe.Base.Keyed
import Houndfe.Base.Like
import Houndfe.Shared.Text
import Mathlib.Data.Prod.Lex
import Mathlib.Data.String.Basic

/-! The inbox of the reviewers: pending decisions in the order they came, then those resolved within
the last week, cut into pages out of two queries with their own offsets. -/

namespace Houndfe.HumanDecisions

inductive HumanDecisionType where
  | restock
  | expiration
  deriving DecidableEq

inductive HumanDecisionStatus where
  | pending
  | resolved
  deriving DecidableEq

structure HumanDecision where
  id : String
  tenantId : String
  source : String
  type : HumanDecisionType
  status : HumanDecisionStatus
  createdAt : Int
  resolvedAt : Option Int
  productName : String
  deriving DecidableEq

structure ReviewListQuery where
  page : Int
  limit : Int
  search : Option String

structure ReviewPage where
  items : List HumanDecision
  pageIndex0 : Int
  pageSize : Int
  totalCount : Nat
  pageCount : Nat
  deriving DecidableEq

/-- Its message and its code never say what was wrong. -/
inductive ReviewReadError where
  | invalidReadArgument
  deriving DecidableEq

def maxSafeInteger : Int := 9007199254740991

def prismaMaxSkip : Int := 2147483647

def resolveSafeSkip (page limit : Int) : Except ReviewReadError Nat :=
  if page < 1 ∨ maxSafeInteger < page then .error .invalidReadArgument
  else if limit ≠ 20 ∧ limit ≠ 50 then .error .invalidReadArgument
  else if maxSafeInteger < (page - 1) * limit ∨ prismaMaxSkip < (page - 1) * limit then
    .error .invalidReadArgument
  else .ok ((page - 1) * limit).toNat

/-- A term that is neither blank nor longer than 100 code units. -/
def ValidSearch (search : Option String) : Prop :=
  ∀ term ∈ search, Text.trim term ≠ "" ∧ Text.utf16Length term ≤ 100

instance (search : Option String) : Decidable (ValidSearch search) := by
  unfold ValidSearch
  infer_instance

def assertValidSearch (search : Option String) : Except ReviewReadError Unit :=
  if ValidSearch search then .ok () else .error .invalidReadArgument

def recentResolvedWindowMs : Int := 604800000

section

variable (fold : Char → List Char) (tenantId : String) (now : Int) (search : Option String)

/-- `contains` of the escaped term, insensitive to case: the database folds both sides. -/
def nameContains (term name : String) : Bool :=
  Like.matchesText ('%' :: ((Like.escape term.toList).flatMap fold ++ ['%']))
    (name.toList.flatMap fold)

def scope (row : HumanDecision) : Bool :=
  row.tenantId = tenantId && row.source = "houndfe-chatbot" &&
    (row.type = .restock || row.type = .expiration) &&
      search.all (nameContains fold · row.productName)

def pendingWhere (row : HumanDecision) : Bool :=
  scope fold tenantId search row && row.status = .pending

def resolvedWhere (row : HumanDecision) : Bool :=
  scope fold tenantId search row && row.status = .resolved &&
    row.resolvedAt.any fun resolvedAt =>
      now - recentResolvedWindowMs ≤ resolvedAt ∧ resolvedAt ≤ now

/-- `[{ createdAt: 'asc' }, { id: 'asc' }]`. -/
def pendingOrder (row : HumanDecision) : ℤ ×ₗ String :=
  toLex (row.createdAt, row.id)

/-- `[{ resolvedAt: 'desc' }, { id: 'asc' }]`. -/
def resolvedOrder (row : HumanDecision) : ℤᵒᵈ ×ₗ String :=
  toLex (OrderDual.toDual (row.resolvedAt.getD 0), row.id)

def pendingRows (decisions : List HumanDecision) : List HumanDecision :=
  Keyed.sortByKey pendingOrder (decisions.filter (pendingWhere fold tenantId search))

def resolvedRows (decisions : List HumanDecision) : List HumanDecision :=
  Keyed.sortByKey resolvedOrder (decisions.filter (resolvedWhere fold tenantId now search))

/-- Subtraction stops at zero, as `Math.max(…, 0)` does. `ambient` is a transaction of the
caller. -/
def listAll (ambient : Bool) (decisions : List HumanDecision) (query : ReviewListQuery) :
    Except ReviewReadError ReviewPage := do
  let skip ← resolveSafeSkip query.page query.limit
  assertValidSearch query.search
  if ambient then .error .invalidReadArgument
  else
    let limit := query.limit.toNat
    let pendingCount := (decisions.filter (pendingWhere fold tenantId query.search)).length
    let resolvedCount := (decisions.filter (resolvedWhere fold tenantId now query.search)).length
    let pendingTake := min limit (pendingCount - skip)
    let resolvedSkip := skip - pendingCount
    let resolvedTake := min (limit - pendingTake) (resolvedCount - resolvedSkip)
    let pending := if pendingTake = 0 then []
      else ((pendingRows fold tenantId query.search decisions).drop skip).take pendingTake
    let resolved := if resolvedTake = 0 then []
      else ((resolvedRows fold tenantId now query.search decisions).drop resolvedSkip).take
        resolvedTake
    if pending.any (·.status ≠ .pending) || resolved.any (·.status ≠ .resolved) then
      .error .invalidReadArgument
    else return {
      items := pending ++ resolved
      pageIndex0 := query.page - 1
      pageSize := query.limit
      totalCount := pendingCount + resolvedCount
      pageCount := (pendingCount + resolvedCount + limit - 1) / limit }

/-! ### The list that the pages are cut from -/

/-- Pending decisions first, then the recently resolved ones. -/
def inbox (decisions : List HumanDecision) : List HumanDecision :=
  pendingRows fold tenantId search decisions ++ resolvedRows fold tenantId now search decisions

/-- The decisions that the inbox shows: their names contain the term itself, up to case. -/
structure Shown (row : HumanDecision) : Prop where
  tenant : row.tenantId = tenantId
  source : row.source = "houndfe-chatbot"
  named : ∀ term ∈ search, term.toList.flatMap fold <:+: row.productName.toList.flatMap fold
  recent : row.status = .resolved → ∃ resolvedAt ∈ row.resolvedAt,
    now - recentResolvedWindowMs ≤ resolvedAt ∧ resolvedAt ≤ now

/-- What comes earlier in the inbox. -/
def Earlier (row later : HumanDecision) : Prop :=
  match row.status, later.status with
  | .pending, .pending => pendingOrder row < pendingOrder later
  | .pending, .resolved => True
  | .resolved, .pending => False
  | .resolved, .resolved => resolvedOrder row < resolvedOrder later

def itemsOf (page : Except ReviewReadError ReviewPage) : List HumanDecision :=
  match page with
  | .ok page => page.items
  | .error _ => []

end

/-! ### Cutting two lists as one -/

section

variable {α : Type*} {xs ys : List α} {skip limit : Nat}

theorem take_drop_append : ((xs ++ ys).drop skip).take limit =
    (xs.drop skip).take (min limit (xs.length - skip)) ++
      (ys.drop (skip - xs.length)).take
        (min (limit - min limit (xs.length - skip)) (ys.length - (skip - xs.length))) := by
  rw [List.drop_append, List.take_append, List.length_drop, List.take_eq_take_min,
    List.length_drop]
  congr 1
  rw [List.take_eq_take_min, List.length_drop]
  congr 1
  omega

/-- Pages of a list one after another give its beginning. -/
theorem flatMap_pages (xs : List α) (limit count : Nat) :
    ((List.range count).flatMap fun index => (xs.drop (index * limit)).take limit) =
      xs.take (count * limit) := by
  induction count with
  | zero => simp
  | succ count ih =>
      rw [List.range_succ, List.flatMap_append, ih, Nat.succ_mul, List.take_add]
      simp

end

/-! ### The pages -/

section

variable {fold : Char → List Char} {tenantId : String} {now : Int} {search : Option String}
  {decisions : List HumanDecision} {row : HumanDecision} {page limit : Int} {skip : Nat}

theorem nameContains_iff (hFold : Like.Folding fold) {term name : String} :
    nameContains fold term name = true ↔
      term.toList.flatMap fold <:+: name.toList.flatMap fold := by
  rw [nameContains, hFold.flatMap_escape, Like.matchesText_contains]

theorem mem_pendingRows : row ∈ pendingRows fold tenantId search decisions ↔
    row ∈ decisions ∧ pendingWhere fold tenantId search row = true := by
  rw [pendingRows, (Keyed.sortByKey_perm _ _).mem_iff, List.mem_filter]

theorem mem_resolvedRows : row ∈ resolvedRows fold tenantId now search decisions ↔
    row ∈ decisions ∧ resolvedWhere fold tenantId now search row = true := by
  rw [resolvedRows, (Keyed.sortByKey_perm _ _).mem_iff, List.mem_filter]

theorem pending_of_mem (hMem : row ∈ pendingRows fold tenantId search decisions) :
    row.status = .pending := by
  have hWhere := (mem_pendingRows.mp hMem).2
  simp only [pendingWhere, Bool.and_eq_true, decide_eq_true_eq] at hWhere
  exact hWhere.2

theorem resolved_of_mem (hMem : row ∈ resolvedRows fold tenantId now search decisions) :
    row.status = .resolved := by
  have hWhere := (mem_resolvedRows.mp hMem).2
  simp only [resolvedWhere, Bool.and_eq_true, decide_eq_true_eq] at hWhere
  exact hWhere.1.2

theorem mem_inbox (hFold : Like.Folding fold) :
    row ∈ inbox fold tenantId now search decisions ↔
      row ∈ decisions ∧ Shown fold tenantId now search row := by
  have hScope : scope fold tenantId search row = true ↔ row.tenantId = tenantId ∧
      row.source = "houndfe-chatbot" ∧
        ∀ term ∈ search, term.toList.flatMap fold <:+: row.productName.toList.flatMap fold := by
    have hType : row.type = .restock ∨ row.type = .expiration := by
      cases row.type <;> simp
    simp [scope, Option.all_eq_true, nameContains_iff hFold, hType, and_assoc]
  rw [inbox, List.mem_append, mem_pendingRows, mem_resolvedRows, ← and_or_left]
  refine and_congr_right fun _ => ?_
  simp only [pendingWhere, resolvedWhere, Bool.and_eq_true, hScope, decide_eq_true_eq,
    Option.any_eq_true]
  constructor
  · rintro (⟨⟨hTenant, hSource, hNamed⟩, hPending⟩ | ⟨⟨⟨hTenant, hSource, hNamed⟩, _⟩, hRecent⟩)
    · refine ⟨hTenant, hSource, hNamed, fun hResolved => ?_⟩
      rw [hPending] at hResolved
      cases hResolved
    · exact ⟨hTenant, hSource, hNamed, fun _ => hRecent⟩
  · rintro ⟨hTenant, hSource, hNamed, hRecent⟩
    cases hStatus : row.status with
    | pending => exact Or.inl ⟨⟨hTenant, hSource, hNamed⟩, rfl⟩
    | resolved => exact Or.inr ⟨⟨⟨hTenant, hSource, hNamed⟩, rfl⟩, hRecent hStatus⟩

theorem pairwise_sorted {κ : Type*} [LinearOrder κ] {order : HumanDecision → κ ×ₗ String}
    {where_ : HumanDecision → Bool} (hIds : (decisions.map (·.id)).Nodup)
    (hOrder : ∀ row, (ofLex (order row)).2 = row.id) :
    (Keyed.sortByKey order (decisions.filter where_)).Pairwise fun row later =>
      order row < order later := by
  apply Keyed.pairwise_lt_sortByKey
  apply List.Nodup.of_map fun key => (ofLex key).2
  rw [List.map_map]
  have hSame : ((fun key => (ofLex key).2) ∘ order) = (·.id) := funext hOrder
  rw [hSame]
  exact hIds.sublist (List.filter_sublist.map _)

theorem pairwise_inbox (hIds : (decisions.map (·.id)).Nodup) :
    (inbox fold tenantId now search decisions).Pairwise Earlier := by
  rw [inbox, List.pairwise_append]
  refine ⟨?_, ?_, ?_⟩
  · refine (pairwise_sorted hIds fun _ => rfl).imp_of_mem fun hRow hLater hLess => ?_
    rw [Earlier, pending_of_mem hRow, pending_of_mem hLater]
    exact hLess
  · refine (pairwise_sorted hIds fun _ => rfl).imp_of_mem fun hRow hLater hLess => ?_
    rw [Earlier, resolved_of_mem hRow, resolved_of_mem hLater]
    exact hLess
  · intro row hRow later hLater
    rw [Earlier, pending_of_mem hRow, resolved_of_mem hLater]
    trivial

theorem listAll_eq (hSkip : resolveSafeSkip page limit = .ok skip) (hSearch : ValidSearch search) :
    listAll fold tenantId now false decisions ⟨page, limit, search⟩ = .ok {
      items := ((inbox fold tenantId now search decisions).drop skip).take limit.toNat
      pageIndex0 := page - 1
      pageSize := limit
      totalCount := (inbox fold tenantId now search decisions).length
      pageCount := ((inbox fold tenantId now search decisions).length + limit.toNat - 1) /
        limit.toNat } := by
  have hPending : (pendingRows fold tenantId search decisions).length =
      (decisions.filter (pendingWhere fold tenantId search)).length :=
    (Keyed.sortByKey_perm _ _).length_eq
  have hResolved : (resolvedRows fold tenantId now search decisions).length =
      (decisions.filter (resolvedWhere fold tenantId now search)).length :=
    (Keyed.sortByKey_perm _ _).length_eq
  have hTake : ∀ (rows : List HumanDecision) (start count : Nat),
      (if count = 0 then [] else (rows.drop start).take count) = (rows.drop start).take count := by
    intro rows start count
    split
    · next hNone => rw [hNone, List.take_zero]
    · rfl
  have hPendingOnly : ∀ start count, (((pendingRows fold tenantId search decisions).drop start).take
      count).any (·.status ≠ .pending) = false := by
    intro start count
    rw [List.any_eq_false]
    intro row hMem
    simp [pending_of_mem (List.mem_of_mem_drop (List.mem_of_mem_take hMem))]
  have hResolvedOnly : ∀ start count, (((resolvedRows fold tenantId now search decisions).drop
      start).take count).any (·.status ≠ .resolved) = false := by
    intro start count
    rw [List.any_eq_false]
    intro row hMem
    simp [resolved_of_mem (List.mem_of_mem_drop (List.mem_of_mem_take hMem))]
  simp only [listAll, hSkip, assertValidSearch, if_pos hSearch, bind, Except.bind, hTake,
    hPendingOnly, hResolvedOnly, inbox, take_drop_append, List.length_append, hPending, hResolved]
  rfl

theorem resolveSafeSkip_eq_ok : resolveSafeSkip page limit = .ok skip ↔
    (limit = 20 ∨ limit = 50) ∧ 1 ≤ page ∧ (page - 1) * limit ≤ prismaMaxSkip ∧
      ((page - 1) * limit).toNat = skip := by
  unfold resolveSafeSkip maxSafeInteger prismaMaxSkip
  constructor
  · intro h
    split at h
    · cases h
    · split at h
      · cases h
      · split at h
        · cases h
        · exact ⟨by omega, by omega, by omega, Except.ok.inj h⟩
  · rintro ⟨hLimit, hPage, hSkip, rfl⟩
    have hRange : page ≤ 2147483648 := by
      rcases hLimit with rfl | rfl <;> omega
    rw [if_neg (by omega), if_neg (by omega), if_neg (by omega)]

end

/-- A decision whose product name contains the term. -/
def juice : HumanDecision where
  id := "d1"
  tenantId := "t1"
  source := "houndfe-chatbot"
  type := .restock
  status := .pending
  createdAt := 5
  resolvedAt := none
  productName := "jugo 100%_natural"

end Houndfe.HumanDecisions
