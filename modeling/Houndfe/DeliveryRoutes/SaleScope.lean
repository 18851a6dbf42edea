import Houndfe.Base.ThreeValued
import Houndfe.Base.Traverse
import Mathlib.Data.List.Nodup

/-! The row scope of the eligible-sales selector: the caller's rules for reading sales, as a
filter that the database evaluates. -/

namespace Houndfe.DeliveryRoutes

open ThreeValued

/-! ### Rules -/

/-- The columns that a condition may name. -/
inductive SaleField where
  | id
  | userId
  | sellerUserId
  | customerId
  | tenantId
  deriving DecidableEq, Repr

def supportedSaleConditionKeys : List (String × SaleField) :=
  [("id", .id), ("userId", .userId), ("sellerUserId", .sellerUserId),
    ("customerId", .customerId), ("tenantId", .tenantId)]

def nullableSaleConditionKeys : List SaleField := [.sellerUserId, .customerId]

structure SaleRow where
  id : String
  userId : String
  sellerUserId : Option String
  customerId : Option String
  tenantId : String
  deriving DecidableEq

def SaleRow.value (row : SaleRow) : SaleField → Option String
  | .id => some row.id
  | .userId => some row.userId
  | .sellerUserId => row.sellerUserId
  | .customerId => row.customerId
  | .tenantId => some row.tenantId

inductive RangeOperator where
  | gt
  | gte
  | lt
  | lte
  deriving DecidableEq, Repr

inductive Operator where
  | eq
  | ne
  | isIn
  | nin
  | range (operator : RangeOperator)
  deriving DecidableEq, Repr

def operatorKeys : List (String × Operator) :=
  [("$eq", .eq), ("$ne", .ne), ("$in", .isIn), ("$nin", .nin), ("$gt", .range .gt),
    ("$gte", .range .gte), ("$lt", .range .lt), ("$lte", .range .lte)]

/-- What an operator is given: a text, an array of texts, or anything else. -/
inductive Operand where
  | text (value : String)
  | texts (values : List String)
  | other
  deriving DecidableEq

/-- What a condition asks of a column. An object has no key twice. -/
inductive ConditionValue where
  | null
  | text (value : String)
  | operators (entries : List (String × Operand)) (distinct : (entries.map Prod.fst).Nodup)
  | other
  deriving DecidableEq

structure RuleLike where
  inverted : Bool
  conditions : Option (List (String × ConditionValue))
  deriving DecidableEq

/-! ### What the rules allow -/

/-- The operators of the translator, on operands of their own type. -/
def operatorSupported (entry : String × Operand) : Bool :=
  match operatorKeys.lookup entry.1, entry.2 with
  | some .eq, .text _ => true
  | some .ne, .text _ => true
  | some .isIn, .texts _ => true
  | some .nin, .texts _ => true
  | some (.range _), .text _ => true
  | _, _ => false

def ConditionValue.supported : ConditionValue → Bool
  | .null => true
  | .text _ => true
  | .operators entries _ => !entries.isEmpty && entries.all operatorSupported
  | .other => false

def entrySupported (entry : String × ConditionValue) : Bool :=
  (supportedSaleConditionKeys.lookup entry.1).isSome && entry.2.supported

def RuleLike.supported (rule : RuleLike) : Bool :=
  (rule.conditions.getD []).all entrySupported

/-- The rules' library: how its range operators compare a column with a text, and what it makes
of the conditions that the translator does not know. -/
structure Casl where
  compare : RangeOperator → Option String → String → Bool
  other : SaleRow → String × ConditionValue → Bool

def operatorMatches (casl : Casl) (value : Option String) : Operator → Operand → Bool
  | .eq, .text operand => value = some operand
  | .ne, .text operand => value ≠ some operand
  | .isIn, .texts operands => operands.any fun operand => value = some operand
  | .nin, .texts operands => !operands.any fun operand => value = some operand
  | .range operator, .text operand => casl.compare operator value operand
  | _, _ => false

def entryMatches (casl : Casl) (row : SaleRow) (entry : String × ConditionValue) : Bool :=
  match supportedSaleConditionKeys.lookup entry.1, entry.2 with
  | some field, .null => row.value field = none
  | some field, .text value => row.value field = some value
  | some field, .operators entries distinct =>
      if ConditionValue.supported (.operators entries distinct) then
        entries.all fun (key, operand) =>
          match operatorKeys.lookup key with
          | some operator => operatorMatches casl (row.value field) operator operand
          | none => false
      else casl.other row entry
  | _, _ => casl.other row entry

def RuleLike.isMatch (casl : Casl) (row : SaleRow) (rule : RuleLike) : Bool :=
  (rule.conditions.getD []).all (entryMatches casl row)

/-- `ability.can`: the first rule that matches decides. -/
def caslAllows (casl : Casl) (row : SaleRow) : List RuleLike → Bool
  | [] => false
  | rule :: rest => if rule.isMatch casl row then !rule.inverted else caslAllows casl row rest

/-! ### The filter -/

structure StringFilter where
  equals : Option String := none
  not : Option String := none
  isIn : Option (List String) := none
  notIn : Option (List String) := none
  gt : Option String := none
  gte : Option String := none
  lt : Option String := none
  lte : Option String := none
  deriving DecidableEq

/-- What a column is filtered by: `null`, `{ not: null }`, a text, or a filter. -/
inductive FilterValue where
  | null
  | notNull
  | text (value : String)
  | filter (filter : StringFilter)
  deriving DecidableEq

inductive SaleWhereInput where
  | empty
  | field (field : SaleField) (value : FilterValue)
  | and (clauses : List SaleWhereInput)
  | or (clauses : List SaleWhereInput)
  | not (clause : SaleWhereInput)

def impossibleSaleScope : SaleWhereInput := .field .id (.filter { isIn := some [] })

structure FieldTranslation where
  exactNull : Bool
  /-- The predicate is true of a column that is NULL. -/
  nullMatches : Bool
  nonNullFilter : FilterValue

def StringFilter.setRange (filter : StringFilter) (operand : String) :
    RangeOperator → StringFilter
  | .gt => { filter with gt := some operand }
  | .gte => { filter with gte := some operand }
  | .lt => { filter with lt := some operand }
  | .lte => { filter with lte := some operand }

/-- One turn of the loop over the operators. -/
def translateOperator (state : StringFilter × Bool) (entry : String × Operand) :
    Option (StringFilter × Bool) :=
  match operatorKeys.lookup entry.1, entry.2 with
  | some .eq, .text operand => some ({ state.1 with equals := some operand }, false)
  | some .ne, .text operand => some ({ state.1 with not := some operand }, state.2)
  | some .isIn, .texts operands => some ({ state.1 with isIn := some operands }, false)
  | some .nin, .texts operands => some ({ state.1 with notIn := some operands }, state.2)
  | some (.range operator), .text operand => some (state.1.setRange operand operator, false)
  | _, _ => none

def translateFieldCondition : ConditionValue → Option FieldTranslation
  | .null => some ⟨true, true, .null⟩
  | .text value => some ⟨false, false, .text value⟩
  | .other => none
  | .operators entries _ =>
      if entries.isEmpty then none
      else do
        let (filter, nullMatches) ← entries.foldlM translateOperator ({}, true)
        return ⟨false, nullMatches, .filter filter⟩

def fieldNotNullClause (field : SaleField) : SaleWhereInput := .field field .notNull

/-- A clause that is never unknown, so that a negation complements it. -/
def buildFieldClause (field : SaleField) (translation : FieldTranslation) : SaleWhereInput :=
  let nonNull := .field field translation.nonNullFilter
  if translation.exactNull then .field field .null
  else if field ∉ nullableSaleConditionKeys then nonNull
  else if translation.nullMatches then
    .or [.field field .null, .and [fieldNotNullClause field, nonNull]]
  else .and [fieldNotNullClause field, nonNull]

def translateEntry (entry : String × ConditionValue) : Option SaleWhereInput := do
  if entry.1.toList.head? = some '$' then none
  let field ← supportedSaleConditionKeys.lookup entry.1
  let translated ← translateFieldCondition entry.2
  return buildFieldClause field translated

def translateConditions (conditions : List (String × ConditionValue)) : Option SaleWhereInput := do
  let clauses ← conditions.mapM translateEntry
  return match clauses with
    | [clause] => clause
    | _ => .and clauses

structure CompiledRule where
  inverted : Bool
  matchesAll : Bool
  clause : SaleWhereInput

def compileRule (rule : RuleLike) : Option CompiledRule :=
  match rule.conditions with
  | none => some ⟨rule.inverted, true, .empty⟩
  | some [] => some ⟨rule.inverted, true, .empty⟩
  | some conditions => do
      let clause ← translateConditions conditions
      return ⟨rule.inverted, false, clause⟩

/-- The rows that no rule before this one matches. -/
def notPrior (prior : List CompiledRule) : SaleWhereInput :=
  if prior.any CompiledRule.matchesAll then impossibleSaleScope
  else .not (match prior with
    | [rule] => rule.clause
    | _ => .or (prior.map CompiledRule.clause))

def term (prior : List CompiledRule) (rule : CompiledRule) : SaleWhereInput :=
  match prior with
  | [] => if rule.matchesAll then .empty else rule.clause
  | prior => if rule.matchesAll then notPrior prior else .and [rule.clause, notPrior prior]

/-- The terms of the rules that allow, each with the rules before it. -/
def terms (prior : List CompiledRule) : List CompiledRule → List SaleWhereInput
  | [] => []
  | rule :: rest =>
      if rule.inverted then terms (prior ++ [rule]) rest
      else term prior rule :: terms (prior ++ [rule]) rest

/-- The scope; `none` is the whole tenant. -/
def buildSaleReadScope (rules : List RuleLike) : Option SaleWhereInput :=
  if rules.isEmpty then some impossibleSaleScope
  else match rules.mapM compileRule with
    | none => some impossibleSaleScope
    | some compiled =>
        match terms [] compiled with
        | [] => some impossibleSaleScope
        | .empty :: _ => none
        | [only] => some only
        | several => some (.or several)

/-! ### What the filter admits -/

/-- How the database orders texts. -/
abbrev Collation := RangeOperator → String → String → Bool

/-- A comparison with a column: unknown when the column is NULL. -/
def compareColumn (value : Option String) (p : String → Bool) : Truth :=
  match value with
  | none => .unknown
  | some value => .ofBool (p value)

/-- A clause for one of the keys of a filter, when the key is there. -/
def optionalClause {α : Type} (operand : Option α) (clause : α → Truth) : Truth :=
  match operand with
  | none => .yes
  | some operand => clause operand

def evalFilter (collation : Collation) (value : Option String) (filter : StringFilter) : Truth :=
  let range (operator : RangeOperator) (operand : String) : Truth :=
    compareColumn value fun value => collation operator value operand
  all [optionalClause filter.equals fun operand => compareColumn value (· == operand),
    optionalClause filter.not fun operand => compareColumn value (· != operand),
    -- an empty list needs no column
    optionalClause filter.isIn fun operands =>
      if operands.isEmpty then .no else compareColumn value operands.contains,
    optionalClause filter.notIn fun operands =>
      if operands.isEmpty then .yes else compareColumn value fun value => !operands.contains value,
    optionalClause filter.gt (range .gt), optionalClause filter.gte (range .gte),
    optionalClause filter.lt (range .lt), optionalClause filter.lte (range .lte)]

def evalField (collation : Collation) (value : Option String) : FilterValue → Truth
  | .null => .ofBool value.isNone
  | .notNull => .ofBool value.isSome
  | .text text => compareColumn value (· == text)
  | .filter filter => evalFilter collation value filter

@[simp] theorem evalField_null (collation : Collation) (value : Option String) :
    evalField collation value .null = .ofBool value.isNone := rfl

@[simp] theorem evalField_notNull (collation : Collation) (value : Option String) :
    evalField collation value .notNull = .ofBool value.isSome := rfl

mutual

def SaleWhereInput.eval (collation : Collation) (row : SaleRow) : SaleWhereInput → Truth
  | .empty => .yes
  | .field field value => evalField collation (row.value field) value
  | .and clauses => all (evalClauses collation row clauses)
  | .or clauses => any (evalClauses collation row clauses)
  | .not clause => (clause.eval collation row).not

def evalClauses (collation : Collation) (row : SaleRow) : List SaleWhereInput → List Truth
  | [] => []
  | clause :: rest => clause.eval collation row :: evalClauses collation row rest

end

/-- A row is read when the filter is true of it. -/
def admits (collation : Collation) (row : SaleRow) : Option SaleWhereInput → Bool
  | none => true
  | some scope => scope.eval collation row = .yes

/-! ### One condition -/

/-- What the scope needs of the library and the database: they order texts alike, and no range
operator of the library matches a NULL. -/
structure Comparable (casl : Casl) (collation : Collation) : Prop where
  ofText : ∀ operator value operand,
    casl.compare operator (some value) operand = collation operator value operand
  ofNull : ∀ operator operand, casl.compare operator none operand = false

theorem mem_of_lookup {β : Type} {key : String} {entries : List (String × β)} {value : β}
    (h : entries.lookup key = some value) : (key, value) ∈ entries := by
  obtain ⟨before, after, hSplit, _⟩ := List.lookup_eq_some_iff.mp h
  simp [hSplit]

def Operator.key : Operator → String
  | .eq => "$eq"
  | .ne => "$ne"
  | .isIn => "$in"
  | .nin => "$nin"
  | .range .gt => "$gt"
  | .range .gte => "$gte"
  | .range .lt => "$lt"
  | .range .lte => "$lte"

theorem key_of_lookup {key : String} {operator : Operator}
    (h : operatorKeys.lookup key = some operator) : key = operator.key := by
  have hKeys : ∀ pair ∈ operatorKeys, pair.1 = pair.2.key := by decide
  exact hKeys _ (mem_of_lookup h)

/-- The key of the filter that an operator fills is still free. -/
def StringFilter.free (filter : StringFilter) : Operator → Prop
  | .eq => filter.equals = none
  | .ne => filter.not = none
  | .isIn => filter.isIn = none
  | .nin => filter.notIn = none
  | .range .gt => filter.gt = none
  | .range .gte => filter.gte = none
  | .range .lt => filter.lt = none
  | .range .lte => filter.lte = none

def optionalHolds {α : Type} (operand : Option α) (p : α → Bool) : Bool :=
  match operand with
  | none => true
  | some operand => p operand

/-- What a filter says of a text. -/
def filterHolds (collation : Collation) (value : String) (filter : StringFilter) : Bool :=
  optionalHolds filter.equals (value == ·) && optionalHolds filter.not (value != ·) &&
    optionalHolds filter.isIn (·.contains value) &&
    optionalHolds filter.notIn (!·.contains value) &&
    optionalHolds filter.gt (collation .gt value) && optionalHolds filter.gte (collation .gte value) &&
    optionalHolds filter.lt (collation .lt value) && optionalHolds filter.lte (collation .lte value)

section

variable {casl : Casl} {collation : Collation}

@[simp] theorem optionalHolds_none {α : Type} (p : α → Bool) : optionalHolds none p = true := rfl

@[simp] theorem optionalHolds_some {α : Type} (operand : α) (p : α → Bool) :
    optionalHolds (some operand) p = p operand := rfl

@[simp] theorem operatorMatches_eq (value operand : String) :
    operatorMatches casl (some value) .eq (.text operand) = (value == operand) := by
  simp [operatorMatches, beq_eq_decide]

@[simp] theorem operatorMatches_ne (value operand : String) :
    operatorMatches casl (some value) .ne (.text operand) = (value != operand) := by
  simp [operatorMatches, bne, beq_eq_decide]

@[simp] theorem operatorMatches_isIn (value : String) (operands : List String) :
    operatorMatches casl (some value) .isIn (.texts operands) = operands.contains value := by
  simp only [operatorMatches, List.contains_eq_any_beq, beq_eq_decide, Option.some.injEq]

@[simp] theorem operatorMatches_nin (value : String) (operands : List String) :
    operatorMatches casl (some value) .nin (.texts operands) = !operands.contains value := by
  simp only [operatorMatches, List.contains_eq_any_beq, beq_eq_decide, Option.some.injEq]

theorem optionalClause_eq {α : Type} {operand : Option α} {clause : α → Truth} {p : α → Bool}
    (h : ∀ operand, clause operand = .ofBool (p operand)) :
    optionalClause operand clause = .ofBool (optionalHolds operand p) := by
  cases operand with
  | none => rfl
  | some operand => exact h operand

theorem evalFilter_some (value : String) (filter : StringFilter) :
    evalFilter collation (some value) filter = .ofBool (filterHolds collation value filter) := by
  have hIn : ∀ operands : List String,
      (if operands.isEmpty then Truth.no
        else compareColumn (some value) operands.contains) = .ofBool (operands.contains value) := by
    intro operands
    cases operands <;> rfl
  have hNotIn : ∀ operands : List String,
      (if operands.isEmpty then Truth.yes
        else compareColumn (some value) fun value => !operands.contains value) =
          .ofBool (!operands.contains value) := by
    intro operands
    cases operands <;> rfl
  simp only [evalFilter, optionalClause_eq hIn, optionalClause_eq hNotIn]
  simp only [filterHolds, all_cons, all_nil, compareColumn, optionalClause_eq fun _ => rfl,
    and_ofBool, Bool.and_true, Bool.and_assoc]

/-- One turn of the loop asks one more thing of the column. -/
theorem translateOperator_holds (hAgree : Comparable casl collation)
    {state next : StringFilter × Bool} {entry : String × Operand} {operator : Operator}
    (hOperator : operatorKeys.lookup entry.1 = some operator) (hFree : state.1.free operator)
    (h : translateOperator state entry = some next) :
    (∀ value, filterHolds collation value next.1 =
      (filterHolds collation value state.1 && operatorMatches casl (some value) operator entry.2)) ∧
    next.2 = (state.2 && operatorMatches casl none operator entry.2) ∧
    ∀ other, other ≠ operator → state.1.free other → next.1.free other := by
  obtain ⟨key, operand⟩ := entry
  obtain ⟨filter, nullMatches⟩ := state
  simp only [translateOperator, hOperator] at h
  have hKept : ∀ other, other ≠ operator → filter.free other → next.1.free other := by
    intro other hNe hOther
    rcases operator with _ | _ | _ | _ | (_ | _ | _ | _) <;> cases operand <;> cases h <;>
      rcases other with _ | _ | _ | _ | (_ | _ | _ | _) <;> first | exact hOther | exact absurd rfl hNe
  refine ⟨fun value => ?_, ?_, hKept⟩
  · rcases operator with _ | _ | _ | _ | (_ | _ | _ | _) <;> cases operand <;> cases h <;>
      simp only [StringFilter.free] at hFree <;>
      simp only [filterHolds, StringFilter.setRange, hFree, optionalHolds_none,
        optionalHolds_some, operatorMatches_eq, operatorMatches_ne, operatorMatches_isIn,
        operatorMatches_nin, operatorMatches.eq_5, hAgree.ofText, Bool.true_and, Bool.and_true] <;>
      ac_rfl
  · rcases operator with _ | _ | _ | _ | (_ | _ | _ | _) <;> cases operand <;> cases h <;>
      simp [operatorMatches, hAgree.ofNull]

/-- What the operators of a condition ask of a column. -/
def operatorsMatch (casl : Casl) (value : Option String) (entries : List (String × Operand)) :
    Bool :=
  entries.all fun entry =>
    match operatorKeys.lookup entry.1 with
    | some operator => operatorMatches casl value operator entry.2
    | none => false

theorem translateOperators_holds (hAgree : Comparable casl collation)
    {entries : List (String × Operand)} (hDistinct : (entries.map Prod.fst).Nodup)
    {state last : StringFilter × Bool}
    (hFree : ∀ entry ∈ entries, ∀ operator, operatorKeys.lookup entry.1 = some operator →
      state.1.free operator)
    (h : entries.foldlM translateOperator state = some last) :
    (∀ value, filterHolds collation value last.1 =
      (filterHolds collation value state.1 && operatorsMatch casl (some value) entries)) ∧
    last.2 = (state.2 && operatorsMatch casl none entries) := by
  induction entries generalizing state with
  | nil =>
      cases h
      simp [operatorsMatch]
  | cons entry rest ih =>
      obtain ⟨hNew, hRest⟩ := List.nodup_cons.mp hDistinct
      rw [List.foldlM_cons] at h
      obtain ⟨next, hNext, hLast⟩ := Option.bind_eq_some_iff.mp h
      cases hOperator : operatorKeys.lookup entry.1 with
      | none => simp [translateOperator, hOperator] at hNext
      | some operator =>
          obtain ⟨hHolds, hNull, hKept⟩ := translateOperator_holds hAgree hOperator
            (hFree entry List.mem_cons_self operator hOperator) hNext
          -- a later operator has another key, and so another place in the filter
          have hFree' : ∀ other ∈ rest, ∀ operator', operatorKeys.lookup other.1 = some operator' →
              next.1.free operator' := by
            intro other hOther operator' hOperator'
            refine hKept operator' ?_ (hFree other (List.mem_cons_of_mem _ hOther) operator'
              hOperator')
            rintro rfl
            have hSame := (key_of_lookup hOperator').trans (key_of_lookup hOperator).symm
            exact hNew (hSame ▸ List.mem_map_of_mem hOther)
          obtain ⟨hAll, hNulls⟩ := ih hRest hFree' hLast
          refine ⟨fun value => ?_, ?_⟩
          · simp [hAll, hHolds, operatorsMatch, hOperator, Bool.and_assoc]
          · simp [hNulls, hNull, operatorsMatch, hOperator, Bool.and_assoc]

theorem translateOperators_isSome {entries : List (String × Operand)}
    (state : StringFilter × Bool) :
    (entries.foldlM translateOperator state).isSome = entries.all operatorSupported := by
  induction entries generalizing state with
  | nil => rfl
  | cons entry rest ih =>
      obtain ⟨key, operand⟩ := entry
      rw [List.foldlM_cons, List.all_cons]
      cases hNext : translateOperator state (key, operand) with
      | none =>
          have hNot : operatorSupported (key, operand) = false := by
            rw [translateOperator] at hNext
            rw [operatorSupported]
            split at hNext <;> simp_all
          simp [hNot]
      | some next =>
          have hIs : operatorSupported (key, operand) = true := by
            rw [translateOperator] at hNext
            rw [operatorSupported]
            split at hNext <;> simp_all
          simpa [hIs] using ih next

theorem translateFieldCondition_isSome (value : ConditionValue) :
    (translateFieldCondition value).isSome = value.supported := by
  cases value with
  | null => rfl
  | text value => rfl
  | other => rfl
  | operators entries distinct =>
      rw [translateFieldCondition, ConditionValue.supported, ← translateOperators_isSome ({}, true)]
      cases hEmpty : entries.isEmpty with
      | true => simp
      | false =>
          cases entries.foldlM translateOperator ({}, true) <;> simp

/-! ### One column -/

theorem value_of_not_nullable {field : SaleField} (row : SaleRow)
    (h : field ∉ nullableSaleConditionKeys) : ∃ value, row.value field = some value := by
  cases field with
  | sellerUserId => simp [nullableSaleConditionKeys] at h
  | customerId => simp [nullableSaleConditionKeys] at h
  | _ => exact ⟨_, rfl⟩

/-- The clause of a column is definite, whatever the column holds. -/
theorem eval_buildFieldClause {row : SaleRow} {field : SaleField}
    {translation : FieldTranslation} {p : Option String → Bool}
    (hExact : translation.exactNull = false) (hNull : p none = translation.nullMatches)
    (hText : ∀ value, evalField collation (some value) translation.nonNullFilter =
      .ofBool (p (some value))) :
    (buildFieldClause field translation).eval collation row = .ofBool (p (row.value field)) := by
  rw [buildFieldClause, hExact]
  split
  · next hTrue => cases hTrue
  · split
    · next hNot =>
        obtain ⟨value, hValue⟩ := value_of_not_nullable row hNot
        simp [SaleWhereInput.eval, hValue, hText]
    · cases hValue : row.value field with
      | none =>
          cases hMatches : translation.nullMatches <;>
            simp [SaleWhereInput.eval, evalClauses, fieldNotNullClause, hValue, hNull, hMatches,
              Truth.ofBool, Truth.and, Truth.or]
      | some value =>
          cases hMatches : translation.nullMatches <;>
            simp [SaleWhereInput.eval, evalClauses, fieldNotNullClause, hValue, hText]

theorem eval_translateEntry (hAgree : Comparable casl collation) {row : SaleRow}
    {entry : String × ConditionValue} {clause : SaleWhereInput}
    (h : translateEntry entry = some clause) :
    clause.eval collation row = .ofBool (entryMatches casl row entry) := by
  obtain ⟨key, value⟩ := entry
  rw [translateEntry] at h
  split at h
  · cases h
  · obtain ⟨field, hField, h⟩ := Option.bind_eq_some_iff.mp h
    obtain ⟨translated, hTranslated, h⟩ := Option.bind_eq_some_iff.mp h
    cases h
    have hKey : supportedSaleConditionKeys.lookup key = some field := hField
    cases value with
    | null =>
        cases hTranslated
        cases hValue : row.value field <;>
          simp [buildFieldClause, SaleWhereInput.eval, evalField, entryMatches, hKey, hValue]
    | text text =>
        cases hTranslated
        have hClause := @eval_buildFieldClause collation row field ⟨false, false, .text text⟩
          (fun value => decide (value = some text)) rfl (by simp) (fun value => by
            simp [evalField, compareColumn, beq_eq_decide])
        simpa [entryMatches, hKey] using hClause
    | other => cases hTranslated
    | operators entries distinct =>
        have hSupported : ConditionValue.supported (.operators entries distinct) = true := by
          rw [← translateFieldCondition_isSome, hTranslated]
          rfl
        simp only [translateFieldCondition] at hTranslated
        split at hTranslated
        · cases hTranslated
        · obtain ⟨⟨filter, nullMatches⟩, hLoop, hTranslated⟩ :=
            Option.bind_eq_some_iff.mp hTranslated
          cases hTranslated
          obtain ⟨hHolds, hNull⟩ := translateOperators_holds hAgree distinct
            (fun entry _ operator _ => by cases operator with
              | range operator => cases operator <;> rfl
              | _ => rfl) hLoop
          have hEmpty : ∀ value, filterHolds collation value {} = true := fun _ => rfl
          have hClause := @eval_buildFieldClause collation row field
            ⟨false, nullMatches, .filter filter⟩ (fun value => operatorsMatch casl value entries)
            rfl (by simpa using hNull.symm) (fun value => by
              rw [evalField, evalFilter_some, hHolds, hEmpty, Bool.true_and])
          have hEntry : entryMatches casl row (key, .operators entries distinct) =
              operatorsMatch casl (row.value field) entries := by
            simp only [entryMatches, hKey, if_pos hSupported]
            rfl
          rw [hClause, hEntry]

theorem translateEntry_isSome (entry : String × ConditionValue) :
    (translateEntry entry).isSome = entrySupported entry := by
  obtain ⟨key, value⟩ := entry
  have hKeys : ∀ pair ∈ supportedSaleConditionKeys, pair.1.toList.head? ≠ some '$' := by decide
  rw [translateEntry, entrySupported, ← translateFieldCondition_isSome]
  cases hField : supportedSaleConditionKeys.lookup key with
  | none =>
      split <;> simp
  | some field =>
      rw [if_neg (hKeys _ (mem_of_lookup hField))]
      cases translateFieldCondition value <;> simp

/-! ### The rules in their order -/

theorem evalClauses_eq (row : SaleRow) (clauses : List SaleWhereInput) :
    evalClauses collation row clauses = clauses.map (SaleWhereInput.eval collation row) := by
  induction clauses with
  | nil => rfl
  | cons clause rest ih => simp [evalClauses, ih]

theorem eval_and {row : SaleRow} {clauses : List SaleWhereInput} :
    (SaleWhereInput.and clauses).eval collation row =
      all (clauses.map (SaleWhereInput.eval collation row)) := by
  rw [SaleWhereInput.eval, evalClauses_eq]

theorem eval_or {row : SaleRow} {clauses : List SaleWhereInput} :
    (SaleWhereInput.or clauses).eval collation row =
      any (clauses.map (SaleWhereInput.eval collation row)) := by
  rw [SaleWhereInput.eval, evalClauses_eq]

@[simp] theorem eval_impossible (row : SaleRow) :
    impossibleSaleScope.eval collation row = .ofBool false := rfl

theorem eval_translateConditions (hAgree : Comparable casl collation) {row : SaleRow}
    {conditions : List (String × ConditionValue)} {clause : SaleWhereInput}
    (hTranslate : translateConditions conditions = some clause) :
    clause.eval collation row = .ofBool (conditions.all (entryMatches casl row)) := by
  obtain ⟨clauses, hClauses, h⟩ := Option.bind_eq_some_iff.mp hTranslate
  have hAll : all (clauses.map (SaleWhereInput.eval collation row)) =
      .ofBool (conditions.all (entryMatches casl row)) := by
    have hEach := Traverse.forall₂_of_mapM_some hClauses
    clear hClauses h hTranslate
    induction hEach with
    | nil => rfl
    | cons hEntry _ ih =>
        rw [List.map_cons, all_cons, eval_translateEntry hAgree hEntry, ih, and_ofBool,
          List.all_cons]
  cases h
  rw [← hAll]
  split
  · simp only [List.map_cons, List.map_nil, all_cons, all_nil]
    cases SaleWhereInput.eval collation row _ <;> rfl
  · exact eval_and

/-- A compiled rule says of every row what the rule does. -/
structure CompiledRule.Means (casl : Casl) (collation : Collation) (row : SaleRow)
    (rule : RuleLike) (compiled : CompiledRule) : Prop where
  inverted : compiled.inverted = rule.inverted
  clause : compiled.clause.eval collation row = .ofBool (rule.isMatch casl row)
  matchesAll : compiled.matchesAll = true → rule.isMatch casl row = true

theorem means_of_compileRule (hAgree : Comparable casl collation) (row : SaleRow)
    {rule : RuleLike} {compiled : CompiledRule} (h : compileRule rule = some compiled) :
    compiled.Means casl collation row rule := by
  obtain ⟨inverted, conditions⟩ := rule
  rcases conditions with _ | _ | ⟨entry, entries⟩
  · cases h
    exact ⟨rfl, rfl, fun _ => rfl⟩
  · cases h
    exact ⟨rfl, rfl, fun _ => rfl⟩
  · obtain ⟨clause, hClause, h⟩ := Option.bind_eq_some_iff.mp h
    cases h
    exact ⟨rfl, eval_translateConditions hAgree hClause, Bool.noConfusion⟩

theorem compileRule_isSome (rule : RuleLike) : (compileRule rule).isSome = rule.supported := by
  obtain ⟨inverted, conditions⟩ := rule
  rcases conditions with _ | _ | ⟨entry, entries⟩
  · rfl
  · rfl
  · have hEach : ((entry :: entries).mapM translateEntry).isSome =
        (entry :: entries).all entrySupported := by
      rw [Bool.eq_iff_iff, Traverse.mapM_isSome_iff, List.all_eq_true]
      simp only [translateEntry_isSome]
    rw [RuleLike.supported, Option.getD_some, ← hEach]
    simp only [compileRule, translateConditions]
    cases (entry :: entries).mapM translateEntry <;> rfl

variable {row : SaleRow}

/-- The rows that none of the rules matches. -/
theorem eval_notPrior {prior : List RuleLike} {compiled : List CompiledRule}
    (hMeans : List.Forall₂ (CompiledRule.Means casl collation row) prior compiled) :
    (notPrior compiled).eval collation row =
      .ofBool (!prior.any (RuleLike.isMatch casl row)) := by
  have hClauses : any ((compiled.map CompiledRule.clause).map
      (SaleWhereInput.eval collation row)) = .ofBool (prior.any (RuleLike.isMatch casl row)) := by
    induction hMeans with
    | nil => rfl
    | cons hRule _ ih =>
        rw [List.map_cons, List.map_cons, any_cons, hRule.clause, ih, or_ofBool, List.any_cons]
  have hAny : compiled.any CompiledRule.matchesAll = true →
      prior.any (RuleLike.isMatch casl row) = true := by
    clear * - hMeans
    induction hMeans with
    | nil => exact id
    | cons hRule _ ih =>
        rw [List.any_cons, List.any_cons, Bool.or_eq_true, Bool.or_eq_true]
        exact Or.imp hRule.matchesAll ih
  unfold notPrior
  split
  · next hAll => simp [hAny hAll]
  · split
    · simp only [List.map_cons, List.map_nil, any_cons, any_nil] at hClauses
      rw [SaleWhereInput.eval, ← not_ofBool, ← hClauses]
      cases SaleWhereInput.eval collation row _ <;> rfl
    · rw [SaleWhereInput.eval, eval_or, hClauses, not_ofBool]

theorem eval_term {prior : List RuleLike} {compiled : List CompiledRule} {rule : RuleLike}
    {next : CompiledRule}
    (hMeans : List.Forall₂ (CompiledRule.Means casl collation row) prior compiled)
    (hNext : next.Means casl collation row rule) :
    (term compiled next).eval collation row =
      .ofBool (!prior.any (RuleLike.isMatch casl row) && rule.isMatch casl row) := by
  have hPrior := eval_notPrior hMeans
  cases hMeans with
  | nil =>
      show SaleWhereInput.eval collation row (if next.matchesAll then .empty else next.clause) = _
      split
      · next hAll =>
          rw [hNext.matchesAll hAll]
          rfl
      · rw [hNext.clause]
        rfl
  | cons hFirst hRest =>
      unfold term
      simp only
      split
      · next hAll => rw [hPrior, hNext.matchesAll hAll, Bool.and_true]
      · rw [eval_and]
        simp only [List.map_cons, List.map_nil, all_cons, all_nil, hNext.clause, hPrior,
          and_ofBool, Bool.and_true]
        rw [Bool.and_comm]

/-- The terms together are the rows that the first matching rule allows. -/
theorem eval_terms {prior rules : List RuleLike} {before compiled : List CompiledRule}
    (hBefore : List.Forall₂ (CompiledRule.Means casl collation row) prior before)
    (hRules : List.Forall₂ (CompiledRule.Means casl collation row) rules compiled) :
    any ((terms before compiled).map (SaleWhereInput.eval collation row)) =
      .ofBool (!prior.any (RuleLike.isMatch casl row) && caslAllows casl row rules) := by
  induction hRules generalizing prior before with
  | nil => simp [terms, caslAllows]
  | @cons rule next rules compiled hRule _ ih =>
      have hNext := ih (List.rel_append hBefore (.cons hRule .nil))
      unfold terms
      split
      · next hInverted =>
          rw [hNext, caslAllows, ← hRule.inverted, hInverted]
          cases hMatch : rule.isMatch casl row <;> simp [hMatch]
      · next hAllowing =>
          rw [List.map_cons, any_cons, eval_term hBefore hRule, hNext, or_ofBool, caslAllows,
            ← hRule.inverted]
          cases hMatch : rule.isMatch casl row <;> simp [hMatch, hAllowing]

/-- The scope of the terms admits what their disjunction does. -/
theorem admits_of_terms {rules : List RuleLike} {compiled : List CompiledRule}
    (hCompiled : rules.mapM compileRule = some compiled) :
    admits collation row (buildSaleReadScope rules) = true ↔
      any ((terms [] compiled).map (SaleWhereInput.eval collation row)) = .yes := by
  unfold buildSaleReadScope
  split
  · next hEmpty =>
      rw [List.isEmpty_iff] at hEmpty
      subst hEmpty
      cases hCompiled
      simp [admits, terms]
  · rw [hCompiled]
    simp only
    split
    · next hTerms => simp [admits, hTerms]
    · next rest hTerms =>
        have hFirst : Truth.yes.or (any (rest.map (SaleWhereInput.eval collation row))) = .yes :=
          rfl
        simp [admits, hTerms, SaleWhereInput.eval, hFirst]
    · next only _ hTerms =>
        rw [hTerms, List.map_singleton, any_cons, any_nil, admits, decide_eq_true_iff]
        cases SaleWhereInput.eval collation row only <;> simp [Truth.or, Truth.ofBool]
    · rw [admits, eval_or, decide_eq_true_iff]

end

/-- The scope is the caller's authority: when every condition is one that the translator knows,
the filter admits a row exactly when the rules allow reading it, and otherwise it admits none. -/
theorem readScope_iff_allows {casl : Casl} {collation : Collation}
    (hAgree : Comparable casl collation) (rules : List RuleLike) (row : SaleRow) :
    ((∀ rule ∈ rules, rule.supported = true) →
      (admits collation row (buildSaleReadScope rules) = true ↔
        caslAllows casl row rules = true)) ∧
    ((∃ rule ∈ rules, rule.supported = false) →
      admits collation row (buildSaleReadScope rules) = false) := by
  constructor
  · intro hSupported
    have hSome : (rules.mapM compileRule).isSome = true := by
      rw [Traverse.mapM_isSome_iff]
      intro rule hRule
      rw [compileRule_isSome]
      exact hSupported rule hRule
    obtain ⟨compiled, hCompiled⟩ := Option.isSome_iff_exists.mp hSome
    have hMeans : List.Forall₂ (CompiledRule.Means casl collation row) rules compiled :=
      (Traverse.forall₂_of_mapM_some hCompiled).imp fun _ _ h => means_of_compileRule hAgree row h
    rw [admits_of_terms hCompiled, eval_terms .nil hMeans, ofBool_eq_yes]
    simp
  · rintro ⟨rule, hRule, hUnsupported⟩
    have hNone : rules.mapM compileRule = none := by
      rw [← Option.not_isSome_iff_eq_none, Traverse.mapM_isSome_iff]
      intro hAll
      have hSome := hAll rule hRule
      rw [compileRule_isSome, hUnsupported] at hSome
      cases hSome
    have hFilled : rules.isEmpty = false := by
      cases rules with
      | nil => cases hRule
      | cons => rfl
    simp [buildSaleReadScope, hFilled, hNone, admits, Truth.ofBool]

/-- The order of the code points. -/
def codePoints : Collation
  | .gt, value, operand => operand < value
  | .gte, value, operand => operand ≤ value
  | .lt, value, operand => value < operand
  | .lte, value, operand => value ≤ operand

/-- A library that compares by code points and knows no other condition. -/
def codePointCasl : Casl where
  compare := fun operator value operand => value.any fun value => codePoints operator value operand
  other := fun _ _ => false

theorem comparable_codePoints : Comparable codePointCasl codePoints where
  ofText := fun _ _ _ => rfl
  ofNull := fun _ _ => rfl

/-- Customers other than c2 are hidden, and of the rest those with a seller above s1 are read. -/
def nullableRules : List RuleLike := [
  ⟨true, some [("customerId", .operators [("$ne", .text "c2")] (by decide))]⟩,
  ⟨false, some [("sellerUserId", .operators [("$gt", .text "s1"), ("$nin", .texts ["s3"])]
    (by decide))]⟩]

theorem readScope_of_nullableRules :
    (∀ rule ∈ nullableRules, rule.supported = true) ∧
    (admits codePoints ⟨"1", "u1", some "s2", some "c2", "t1"⟩
      (buildSaleReadScope nullableRules) = true ↔
      caslAllows codePointCasl ⟨"1", "u1", some "s2", some "c2", "t1"⟩ nullableRules = true) ∧
    (admits codePoints ⟨"2", "u1", some "s2", none, "t1"⟩
      (buildSaleReadScope nullableRules) = true ↔
      caslAllows codePointCasl ⟨"2", "u1", some "s2", none, "t1"⟩ nullableRules = true) := by
  have hSupported : ∀ rule ∈ nullableRules, rule.supported = true := by decide
  exact ⟨hSupported, (readScope_iff_allows comparable_codePoints _ _).1 hSupported,
    (readScope_iff_allows comparable_codePoints _ _).1 hSupported⟩

example : caslAllows codePointCasl ⟨"1", "u1", some "s2", some "c2", "t1"⟩ nullableRules = true ∧
    caslAllows codePointCasl ⟨"2", "u1", some "s2", none, "t1"⟩ nullableRules = false := by
  decide

end Houndfe.DeliveryRoutes
