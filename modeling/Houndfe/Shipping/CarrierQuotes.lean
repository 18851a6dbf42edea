import Houndfe.Base.Keyed
import Houndfe.Base.StableSort
import Houndfe.Shared.DomainError
import Houndfe.Shared.Number
import Houndfe.Shared.Words
import Mathlib.Algebra.Order.Ring.Rat
import Mathlib.Data.List.Lex
import Mathlib.Data.Prod.Lex
import Mathlib.Order.WithBot

/-! The cheapest rate of the carriers: every carrier is asked at once, what happens to it first
settles its race, and the best of the usable rates is kept once all races are settled. -/

namespace Houndfe.Shipping

/-- A date holds an instant or is invalid. -/
structure CarrierRateOption where
  carrier : String
  service : String
  totalCents : Number
  etaDays : Option Number
  rateId : Option String
  validUntil : Option (Option Int)
  deriving DecidableEq

structure CarrierRateEntry where
  carrierName : String
  option : CarrierRateOption
  deriving DecidableEq

def isUsable (option : CarrierRateOption) (now : Int) : Bool :=
  option.totalCents.safeInteger.any (0 ≤ ·) &&
    option.etaDays.all (fun eta => eta.integer.any (0 ≤ ·)) &&
      option.validUntil.all fun date => date.any (now < ·)

/-- An unknown number of days is above all others. -/
def etaRank : Option Number → WithTop ℚ
  | none => ⊤
  | some eta => (eta.value : ℚ)

/-- The parts of an entry in the order the comparison takes them. -/
def entryRank (entry : CarrierRateEntry) :
    ℚ ×ₗ WithTop ℚ ×ₗ List Nat ×ₗ List Nat ×ₗ List Nat :=
  toLex (entry.option.totalCents.value, toLex (etaRank entry.option.etaDays,
    toLex (Text.units entry.option.carrier, toLex (Text.units entry.option.service,
      Text.units entry.carrierName))))

def selectCheapestOption (entries : List CarrierRateEntry) (now : Int) :
    Option CarrierRateEntry :=
  (Keyed.sortByKey entryRank (entries.filter fun entry => isUsable entry.option now)).head?

inductive Settled where
  | rates (options : List CarrierRateOption)
  | failed
  | timedOut
  deriving DecidableEq

/-- An answer, a failure or the end of the time of one carrier. -/
structure Settlement where
  carrier : String
  settled : Settled
  deriving DecidableEq

/-- A race that is settled stays so. -/
def settle (races : String → Option Settled) (event : Settlement) : String → Option Settled :=
  if (races event.carrier).isSome then races
  else Function.update races event.carrier (some event.settled)

def settleAll (events : List Settlement) : String → Option Settled :=
  events.foldl settle fun _ => none

/-- What `askCarrier` adds to the entries; a race that is lost adds none. -/
def carrierEntries (races : String → Option Settled) (name : String) : List CarrierRateEntry :=
  match races name with
  | some (.rates options) => options.map fun option => ⟨name, option⟩
  | _ => []

/-- The entries stand in the order of the registry, in whatever order the answers came. -/
def quoteCheapest (carriers : List String) (events : List Settlement) (now : Int) :
    Except DomainError CarrierRateEntry :=
  match selectCheapestOption (carriers.flatMap (carrierEntries (settleAll events))) now with
  | some best => .ok best
  | none => .error (businessRuleViolationError "No carrier returned a usable rate"
      "SHIPPING_QUOTE_UNAVAILABLE")

/-! ### Races -/

theorem settle_apply (races : String → Option Settled) (event : Settlement) (name : String) :
    settle races event name =
      (races name).or (if event.carrier = name then some event.settled else none) := by
  unfold settle
  by_cases hName : event.carrier = name
  · subst hName
    cases hRace : races event.carrier <;> simp [hRace]
  · rw [if_neg hName, Option.or_none]
    split
    · rfl
    · exact Function.update_of_ne (Ne.symm hName) _ _

/-- What happened to a carrier first settles its race. -/
theorem settleAll_apply (events : List Settlement) (name : String) :
    settleAll events name = (events.find? (·.carrier = name)).map Settlement.settled := by
  have hFrom : ∀ races : String → Option Settled, events.foldl settle races name =
      (races name).or ((events.find? (·.carrier = name)).map Settlement.settled) := by
    induction events with
    | nil => simp
    | cons event rest ih =>
        intro races
        rw [List.foldl_cons, ih, settle_apply, Option.or_assoc, List.find?_cons]
        by_cases hName : event.carrier = name <;> simp [hName]
  rw [settleAll, hFrom, Option.none_or]

/-- The carrier answered in time: what happened to it first is its answer, with this option. -/
def Answered (carriers : List String) (events : List Settlement) (entry : CarrierRateEntry) :
    Prop :=
  entry.carrierName ∈ carriers ∧ ∃ options,
    (events.find? (·.carrier = entry.carrierName)).map Settlement.settled = some (.rates options) ∧
      entry.option ∈ options

theorem mem_carrierEntries {events : List Settlement} {name : String} {entry : CarrierRateEntry} :
    entry ∈ carrierEntries (settleAll events) name ↔ entry.carrierName = name ∧ ∃ options,
      (events.find? (·.carrier = name)).map Settlement.settled = some (.rates options) ∧
        entry.option ∈ options := by
  rw [carrierEntries, settleAll_apply]
  obtain ⟨carrierName, option⟩ := entry
  split
  · next options hRates => simp [hRates, @eq_comm _ carrierName, and_comm]
  · next hNone =>
      simp only [List.not_mem_nil, false_iff, not_and, not_exists]
      exact fun _ options hRates _ => hNone options hRates

theorem mem_answers {carriers : List String} {events : List Settlement}
    {entry : CarrierRateEntry} :
    entry ∈ carriers.flatMap (carrierEntries (settleAll events)) ↔
      Answered carriers events entry := by
  simp only [List.mem_flatMap, mem_carrierEntries, Answered]
  constructor
  · rintro ⟨_, hIn, rfl, hRates⟩
    exact ⟨hIn, hRates⟩
  · rintro ⟨hIn, hRates⟩
    exact ⟨_, hIn, rfl, hRates⟩

/-! ### The choice -/

/-- The choice is a usable entry, and none is ranked before it. -/
theorem select_spec {entries : List CarrierRateEntry} {now : Int} {best : CarrierRateEntry}
    (h : selectCheapestOption entries now = some best) :
    (best ∈ entries ∧ isUsable best.option now = true) ∧
      ∀ other ∈ entries, isUsable other.option now = true → entryRank best ≤ entryRank other := by
  unfold selectCheapestOption at h
  have hPerm := Keyed.sortByKey_perm entryRank
    (entries.filter fun entry => isUsable entry.option now)
  have hSorted := Keyed.pairwise_sortByKey entryRank
    (entries.filter fun entry => isUsable entry.option now)
  cases hList : Keyed.sortByKey entryRank
      (entries.filter fun entry => isUsable entry.option now) with
  | nil => simp [hList] at h
  | cons first rest =>
      rw [hList] at h hPerm hSorted
      obtain rfl := Option.some.inj h
      refine ⟨List.mem_filter.mp (hPerm.mem_iff.mp List.mem_cons_self), ?_⟩
      intro other hIn hUsable
      rcases List.mem_cons.mp (hPerm.mem_iff.mpr (List.mem_filter.mpr ⟨hIn, hUsable⟩)) with
        rfl | hRest
      · exact le_rfl
      · exact (List.pairwise_cons.mp hSorted).1 other hRest

theorem select_eq_none {entries : List CarrierRateEntry} {now : Int} :
    selectCheapestOption entries now = none ↔
      ∀ entry ∈ entries, isUsable entry.option now = false := by
  rw [selectCheapestOption, List.head?_eq_none_iff,
    ← List.length_eq_zero_iff, (Keyed.sortByKey_perm entryRank _).length_eq,
    List.length_eq_zero_iff, List.filter_eq_nil_iff]
  simp

/-- The choice of a carrier's entries alone is the choice, when it is one of them. -/
theorem select_filter {entries : List CarrierRateEntry} {now : Int} {best : CarrierRateEntry}
    (h : selectCheapestOption entries now = some best) :
    selectCheapestOption (entries.filter (·.carrierName = best.carrierName)) now = some best := by
  have hTotal : Std.Total fun a b : CarrierRateEntry => entryRank a ≤ entryRank b :=
    ⟨fun a b => le_total _ _⟩
  have hTrans : IsTrans CarrierRateEntry fun a b => entryRank a ≤ entryRank b :=
    ⟨fun a b c => le_trans⟩
  unfold selectCheapestOption at h ⊢
  rw [List.filter_comm, Keyed.sortByKey, ← StableSort.filter_insertionSort]
  cases hList : (entries.filter fun entry => isUsable entry.option now).insertionSort
      fun a b => entryRank a ≤ entryRank b with
  | nil => simp [Keyed.sortByKey, hList] at h
  | cons first rest =>
      obtain rfl : first = best := by simpa [Keyed.sortByKey, hList] using h
      simp

theorem carrierName_of_mem {races : String → Option Settled} {name : String}
    {entry : CarrierRateEntry} (h : entry ∈ carrierEntries races name) :
    entry.carrierName = name := by
  unfold carrierEntries at h
  split at h
  · obtain ⟨option, _, rfl⟩ := List.mem_map.mp h
    rfl
  · cases h

theorem filter_answers {carriers : List String} (hNames : carriers.Nodup)
    (races : String → Option Settled) {name : String} (hIn : name ∈ carriers) :
    (carriers.flatMap (carrierEntries races)).filter (·.carrierName = name) =
      carrierEntries races name := by
  induction carriers with
  | nil => cases hIn
  | cons first rest ih =>
      obtain ⟨hFirst, hRest⟩ := List.nodup_cons.mp hNames
      rw [List.flatMap_cons, List.filter_append]
      by_cases hSame : first = name
      · subst hSame
        have hNone : (rest.flatMap (carrierEntries races)).filter (·.carrierName = first) = [] := by
          rw [List.filter_eq_nil_iff]
          intro entry hEntry
          obtain ⟨other, hOther, hFrom⟩ := List.mem_flatMap.mp hEntry
          have hNe : other ≠ first := fun h => hFirst (h ▸ hOther)
          simpa [carrierName_of_mem hFrom] using hNe
        rw [hNone, List.append_nil, List.filter_eq_self]
        intro entry hEntry
        simpa using carrierName_of_mem hEntry
      · have hNone : (carrierEntries races first).filter (·.carrierName = name) = [] := by
          rw [List.filter_eq_nil_iff]
          intro entry hEntry
          simpa [carrierName_of_mem hEntry] using hSame
        rw [hNone, List.nil_append]
        exact ih hRest ((List.mem_cons.mp hIn).resolve_left (Ne.symm hSame))

theorem carrierName_eq_of_rank {left right : CarrierRateEntry}
    (h : entryRank left = entryRank right) : left.carrierName = right.carrierName := by
  have hParts := congrArg (fun rank => (ofLex (ofLex (ofLex (ofLex rank).2).2).2).2) h
  exact Text.units_injective hParts

/-- The choice depends neither on the order of the registry nor on that of the answers of
different carriers. -/
theorem quoteCheapest_eq {carriers carriers' : List String} {events events' : List Settlement}
    (hNames : carriers.Nodup) (hCarriers : carriers.Perm carriers')
    (hEvents : ∀ name, events.filter (·.carrier = name) = events'.filter (·.carrier = name))
    (now : Int) : quoteCheapest carriers events now = quoteCheapest carriers' events' now := by
  have hRaces : settleAll events = settleAll events' := by
    funext name
    rw [settleAll_apply, settleAll_apply, ← List.head?_filter, ← List.head?_filter, hEvents]
  rw [quoteCheapest, quoteCheapest, ← hRaces]
  have hAnswers := hCarriers.flatMap_right (carrierEntries (settleAll events))
  have hSelect : selectCheapestOption (carriers.flatMap (carrierEntries (settleAll events))) now =
      selectCheapestOption (carriers'.flatMap (carrierEntries (settleAll events))) now := by
    cases hFirst :
        selectCheapestOption (carriers.flatMap (carrierEntries (settleAll events))) now with
    | none =>
        refine (select_eq_none.mpr fun entry hIn => ?_).symm
        exact select_eq_none.mp hFirst entry (hAnswers.mem_iff.mpr hIn)
    | some best =>
        cases hSecond :
            selectCheapestOption (carriers'.flatMap (carrierEntries (settleAll events))) now with
        | none =>
            obtain ⟨⟨hIn, hUsable⟩, _⟩ := select_spec hFirst
            have hNot := select_eq_none.mp hSecond best (hAnswers.mem_iff.mp hIn)
            rw [hUsable] at hNot
            cases hNot
        | some best' =>
            obtain ⟨⟨hIn, hUsable⟩, hLeast⟩ := select_spec hFirst
            obtain ⟨⟨hIn', hUsable'⟩, hLeast'⟩ := select_spec hSecond
            have hName := carrierName_eq_of_rank (le_antisymm
              (hLeast best' (hAnswers.mem_iff.mpr hIn') hUsable')
              (hLeast' best (hAnswers.mem_iff.mp hIn) hUsable))
            obtain ⟨name, hThere, hFrom⟩ := List.mem_flatMap.mp hIn
            obtain rfl := carrierName_of_mem hFrom
            have hOwn := select_filter hFirst
            have hOwn' := select_filter hSecond
            rw [filter_answers hNames _ hThere] at hOwn
            rw [← hName, filter_answers (hCarriers.nodup_iff.mp hNames) _
              (hCarriers.mem_iff.mp hThere)] at hOwn'
            exact hOwn.symm.trans hOwn'
  rw [hSelect]

end Houndfe.Shipping
