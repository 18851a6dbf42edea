import Houndfe.PublicCatalog.OwnReads

/-! What an attribute facet counts: for each option, the products with one subject that holds it and
satisfies the other selected definitions. -/

namespace Houndfe.PublicCatalog

open CatalogEditorial

/-! ### Maps that are filled in place -/

theorem lookup_cons_other {α : Type} {key other : String} (hNot : other ≠ key) (value : α)
    (rest : List (String × α)) : ((other, value) :: rest).lookup key = rest.lookup key := by
  rw [List.lookup_cons, beq_false_of_ne (Ne.symm hNot)]

theorem get_eq_lookup {α : Type} (entries : List (String × α)) (key : String) :
    Dictionary.get entries key = entries.lookup key := by
  induction entries with
  | nil => rfl
  | cons entry rest ih =>
      obtain ⟨other, value⟩ := entry
      rw [Dictionary.get, Keyed.lookup_cons]
      by_cases hSame : other = key
      · simp [hSame]
      · rw [lookup_cons_other hSame, ← ih, if_neg hSame, Dictionary.get]

/-- A pass that changes the entry of a key, or adds one at the end, sets the entry. -/
theorem eq_set {α : Type} {key : String} (pass : List (String × α) → List (String × α))
    (change : Option α → α) (hNil : pass [] = [(key, change none)])
    (hCons : ∀ other value rest, pass ((other, value) :: rest) =
      if other = key then (other, change (some value)) :: rest else (other, value) :: pass rest)
    (entries : List (String × α)) :
    pass entries = Dictionary.set entries key (change (entries.lookup key)) := by
  induction entries with
  | nil => exact hNil
  | cons entry rest ih =>
      obtain ⟨other, value⟩ := entry
      rw [hCons, Dictionary.set, Keyed.upsert]
      by_cases hSame : other = key
      · simp [hSame]
      · rw [lookup_cons_other hSame, if_neg hSame, if_neg hSame, ih, Dictionary.set]

theorem hold_eq (values : FacetValues) (code : String) (options : List String) :
    FacetValues.hold values code options =
      Dictionary.set values code (addAll ((values.lookup code).getD []) options) :=
  eq_set (FacetValues.hold · code options) (fun held => addAll (held.getD []) options) rfl
    (fun _ _ _ => rfl) values

theorem bump_eq (counts : Tally) (counted : String) :
    counts.bump counted = Dictionary.set counts counted ((counts.lookup counted).getD 0 + 1) :=
  eq_set (Tally.bump · counted) (fun count => count.getD 0 + 1) rfl (fun _ _ _ => rfl) counts

theorem count_eq (counts : FacetCounts) (code : String) (options : List String) :
    counts.count code options =
      Dictionary.set counts code (options.foldl Tally.bump ((counts.lookup code).getD [])) :=
  eq_set (FacetCounts.count · code options)
    (fun byOption => options.foldl Tally.bump (byOption.getD [])) rfl (fun _ _ _ => rfl) counts

theorem lookup_set {α : Type} (entries : List (String × α)) (key other : String) (value : α) :
    (Dictionary.set entries key value).lookup other =
      if key = other then some value else entries.lookup other := by
  rw [← get_eq_lookup, Dictionary.get_set, get_eq_lookup]

/-- Distinct keys, with a good value each. -/
structure Kept {α : Type} (good : α → Prop) (entries : List (String × α)) : Prop where
  keys : (entries.map Prod.fst).Nodup
  values : ∀ entry ∈ entries, good entry.2

theorem Kept.nil {α : Type} {good : α → Prop} : Kept good ([] : List (String × α)) :=
  ⟨List.nodup_nil, by simp⟩

theorem Kept.set {α : Type} {good : α → Prop} {entries : List (String × α)}
    (h : Kept good entries) {key : String} {value : α} (hValue : good value) :
    Kept good (Dictionary.set entries key value) := by
  refine ⟨Keyed.nodup_upsert h.keys, fun entry hEntry => ?_⟩
  rcases Keyed.mem_upsert hEntry with rfl | hOld
  · exact hValue
  · exact h.values entry hOld

theorem Kept.lookup {α : Type} {good : α → Prop} {entries : List (String × α)}
    (h : Kept good entries) {key : String} {value : α} (hAt : entries.lookup key = some value) :
    good value :=
  h.values _ ((lookup_eq_some_iff h.keys).mp hAt)

/-! ### What is held -/

/-- The option is held under the code. -/
def Held (values : FacetValues) (code option : String) : Prop :=
  option ∈ (values.lookup code).getD []

instance (values : FacetValues) (code option : String) : Decidable (Held values code option) :=
  inferInstanceAs (Decidable (option ∈ _))

theorem mem_addAll {held added : List String} {option : String} :
    option ∈ addAll held added ↔ option ∈ held ∨ option ∈ added := by
  unfold addAll
  induction added generalizing held with
  | nil => simp
  | cons first rest ih =>
      rw [List.foldl_cons, ih, List.mem_cons]
      by_cases hIn : first ∈ held
      · rw [if_pos hIn]
        grind
      · rw [if_neg hIn]
        grind

theorem nodup_addAll {held added : List String} (h : held.Nodup) : (addAll held added).Nodup := by
  unfold addAll
  induction added generalizing held with
  | nil => exact h
  | cons first rest ih =>
      rw [List.foldl_cons]
      refine ih ?_
      split
      · exact h
      · next hNew => exact List.nodup_append.mpr ⟨h, by simp, by grind⟩

theorem held_hold {values : FacetValues} {code option other : String} {options : List String} :
    Held (FacetValues.hold values code options) other option ↔
      Held values other option ∨ code = other ∧ option ∈ options := by
  unfold Held
  rw [hold_eq, lookup_set]
  by_cases hSame : code = other
  · simp [hSame, mem_addAll]
  · simp [hSame]

theorem kept_hold {values : FacetValues} (h : Kept List.Nodup values) (code : String)
    (options : List String) : Kept List.Nodup (FacetValues.hold values code options) := by
  rw [hold_eq]
  refine h.set (nodup_addAll ?_)
  cases hAt : values.lookup code with
  | none => exact List.nodup_nil
  | some held => exact h.lookup hAt

theorem held_iff {values : FacetValues} {code option : String} :
    Held values code option ↔ ∃ held, values.lookup code = some held ∧ option ∈ held := by
  cases hAt : values.lookup code <;> simp [Held, hAt]

/-- A candidate holds what one of its subjects holds that matches the other definitions. -/
theorem held_heldBy {selection : FacetSelection} {candidate : FacetCandidate}
    (hSubjects : ∀ subject ∈ candidate.subjects, Kept List.Nodup subject) {code option : String} :
    Held (heldBy selection candidate) code option ↔ ∃ subject ∈ candidate.subjects,
      subjectMatches subject selection (some code) = true ∧ Held subject code option := by
  have hSubject : ∀ (subject entries held : FacetValues),
      Held (entries.foldl (fun held entry =>
        if subjectMatches subject selection (some entry.1) then held.hold entry.1 entry.2
        else held) held) code option ↔ Held held code option ∨
          subjectMatches subject selection (some code) = true ∧
            ∃ options, (code, options) ∈ entries ∧ option ∈ options := by
    intro subject entries
    induction entries with
    | nil => simp
    | cons entry rest ih =>
        intro held
        obtain ⟨other, options⟩ := entry
        rw [List.foldl_cons, ih]
        dsimp only
        split
        · rw [held_hold]
          grind
        · grind
  have hAll : ∀ (subjects : List FacetValues) (held : FacetValues),
      (∀ subject ∈ subjects, Kept List.Nodup subject) →
      (Held (subjects.foldl (fun held subject => subject.foldl (fun held entry =>
        if subjectMatches subject selection (some entry.1) then held.hold entry.1 entry.2
        else held) held) held) code option ↔ Held held code option ∨ ∃ subject ∈ subjects,
          subjectMatches subject selection (some code) = true ∧ Held subject code option) := by
    intro subjects
    induction subjects with
    | nil => simp
    | cons subject rest ih =>
        intro held hKept
        rw [List.forall_mem_cons] at hKept
        rw [List.foldl_cons, ih _ hKept.2, hSubject]
        simp only [List.exists_mem_cons_iff, held_iff, lookup_eq_some_iff hKept.1.keys]
        grind
  refine (hAll candidate.subjects [] hSubjects).trans ?_
  simp [Held]

theorem kept_heldBy (selection : FacetSelection) (candidate : FacetCandidate) :
    Kept List.Nodup (heldBy selection candidate) := by
  unfold heldBy
  refine List.foldlRecOn _ _ .nil fun held hHeld subject _ => ?_
  refine List.foldlRecOn _ _ hHeld fun held hHeld entry _ => ?_
  dsimp only
  split
  · exact kept_hold hHeld _ _
  · exact hHeld

/-! ### Counting -/

/-- How often the option was counted under the code. -/
def FacetCounts.tallied (counts : FacetCounts) (code option : String) : Nat :=
  (((counts.lookup code).getD []).lookup option).getD 0

abbrev KeptTally (byOption : Tally) : Prop :=
  Kept (fun _ => True) byOption

theorem lookup_foldl_bump (options : List String) (byOption : Tally) (option : String) :
    ((options.foldl Tally.bump byOption).lookup option).getD 0 =
      (byOption.lookup option).getD 0 + options.count option := by
  induction options generalizing byOption with
  | nil => rfl
  | cons first rest ih =>
      rw [List.foldl_cons, ih, bump_eq, lookup_set, List.count_cons]
      by_cases hSame : first = option
      · simp [hSame]
        omega
      · simp [hSame]

theorem tallied_count (counts : FacetCounts) (code other option : String)
    (options : List String) : (counts.count code options).tallied other option =
      counts.tallied other option + if code = other then options.count option else 0 := by
  rw [FacetCounts.tallied, count_eq, lookup_set]
  by_cases hSame : code = other
  · simp [hSame, lookup_foldl_bump, FacetCounts.tallied]
  · simp [hSame, FacetCounts.tallied]

theorem kept_count {counts : FacetCounts} (h : Kept KeptTally counts) (code : String)
    (options : List String) : Kept KeptTally (counts.count code options) := by
  rw [count_eq]
  refine h.set (List.foldlRecOn _ _ ?_ fun byOption hByOption option _ => ?_)
  · cases hAt : counts.lookup code with
    | none => exact .nil
    | some byOption => exact h.lookup hAt
  · rw [bump_eq]
    exact hByOption.set trivial

/-- A candidate counts once for each option that it holds. -/
theorem tallied_foldl_count {entries : FacetValues} (hEntries : Kept List.Nodup entries)
    (counts : FacetCounts) (code option : String) :
    FacetCounts.tallied (entries.foldl (fun counts (code, options) =>
        FacetCounts.count counts code options) counts) code option =
      counts.tallied code option + if Held entries code option then 1 else 0 := by
  induction entries generalizing counts with
  | nil => simp [Held]
  | cons entry rest ih =>
      obtain ⟨other, options⟩ := entry
      obtain ⟨hFirst, hRest⟩ := List.nodup_cons.mp hEntries.keys
      obtain ⟨hOptions, hValues⟩ := List.forall_mem_cons.mp hEntries.values
      rw [List.foldl_cons, ih ⟨hRest, hValues⟩, tallied_count]
      by_cases hSame : other = code
      · subst hSame
        have hNot : ¬ Held rest other option := by
          rw [held_iff]
          rintro ⟨held, hAt, _⟩
          have hIn := (lookup_eq_some_iff hRest).mp hAt
          exact hFirst (List.mem_map.mpr ⟨_, hIn, rfl⟩)
        have hHeld : Held ((other, options) :: rest) other option ↔ option ∈ options := by
          simp [Held]
        rw [if_pos rfl, if_neg hNot, hOptions.count, if_congr hHeld rfl rfl]
        rfl
      · have hHeld : Held ((other, options) :: rest) code option ↔ Held rest code option := by
          rw [Held, Held, lookup_cons_other hSame]
        rw [if_neg hSame, if_congr hHeld rfl rfl]
        rfl

section

variable {candidates : List FacetCandidate} {selection : FacetSelection}

theorem kept_countHeld (hSelection : (selection.map Prod.fst).Nodup) :
    Kept KeptTally (countHeld candidates selection) := by
  unfold countHeld
  refine List.foldlRecOn _ _ ⟨?_, ?_⟩ fun counts hCounts candidate _ => ?_
  · simpa [Function.comp_def] using hSelection
  · simp only [List.mem_map]
    rintro _ ⟨entry, _, rfl⟩
    exact .nil
  · exact List.foldlRecOn _ _ hCounts fun counts hCounts entry _ => kept_count hCounts _ _

theorem tallied_countHeld (code option : String) :
    FacetCounts.tallied (countHeld candidates selection) code option =
      candidates.countP fun candidate => Held (heldBy selection candidate) code option := by
  have hStart : FacetCounts.tallied (selection.map fun (code, _) => (code, [])) code option =
      0 := by
    induction selection with
    | nil => rfl
    | cons entry rest ih =>
        by_cases hSame : entry.1 = code
        · simp [FacetCounts.tallied, hSame]
        · rw [List.map_cons, FacetCounts.tallied, lookup_cons_other hSame]
          exact ih
  have hAll : ∀ (candidates : List FacetCandidate) (counts : FacetCounts),
      FacetCounts.tallied (candidates.foldl (fun counts candidate =>
        (heldBy selection candidate).foldl (fun counts (code, options) =>
          FacetCounts.count counts code options) counts) counts) code option =
      counts.tallied code option +
        candidates.countP fun candidate => Held (heldBy selection candidate) code option := by
    intro candidates
    induction candidates with
    | nil => simp
    | cons candidate rest ih =>
        intro counts
        rw [List.foldl_cons, ih, tallied_foldl_count (kept_heldBy selection candidate),
          List.countP_cons]
        simp only [decide_eq_true_eq]
        omega
  rw [countHeld, hAll, hStart, Nat.zero_add]

theorem count_of_withSelected {byOption : Tally} (hByOption : KeptTally byOption)
    {selected : List String} {entry : String × Nat} (h : entry ∈ withSelected byOption selected) :
    entry.2 = (byOption.lookup entry.1).getD 0 := by
  have hAll : (∀ entry ∈ withSelected byOption selected,
      entry.2 = (byOption.lookup entry.1).getD 0) ∧
        ∀ option ∈ byOption.map Prod.fst,
          option ∈ (withSelected byOption selected).map Prod.fst := by
    unfold withSelected
    refine List.foldlRecOn (motive := fun shown : Tally =>
      (∀ entry ∈ shown, entry.2 = (byOption.lookup entry.1).getD 0) ∧
        ∀ option ∈ byOption.map Prod.fst, option ∈ shown.map Prod.fst) _ _
      ⟨fun entry hEntry => ?_, fun _ h => h⟩ fun shown hShown option _ => ?_
    · rw [(lookup_eq_some_iff hByOption.keys).mpr hEntry, Option.getD_some]
    · split
      · exact hShown
      · next hNew =>
          have hNone : byOption.lookup option = none := by
            rw [List.lookup_eq_none_iff]
            grind
          refine ⟨fun entry hEntry => ?_, fun other hOther => ?_⟩
          · rcases List.mem_append.mp hEntry with hOld | hAdded
            · exact hShown.1 entry hOld
            · rw [List.mem_singleton.mp hAdded, hNone]
              rfl
          · simp [hShown.2 other hOther]
  exact hAll.1 entry h

/-- An option that a facet shows is one of its definition, and counts the candidates that hold
it. -/
theorem count_of_facet {runtime : Runtime} {definitions : FacetDefinitions}
    (hSelection : (selection.map Prod.fst).Nodup) {facet : PublicCatalogAttributeFacet}
    (hFacet : facet ∈ countFacets runtime candidates selection definitions)
    {option : FacetOptionCount} (hOption : option ∈ facet.options) :
    (∃ definition, mapGet? definitions facet.code = some definition ∧
      (mapGet? definition.options option.code).isSome = true) ∧
    option.count = candidates.countP fun candidate =>
      Held (heldBy selection candidate) facet.code option.code := by
  obtain ⟨⟨code, byOption⟩, hIn, hShown⟩ :=
    List.mem_filterMap.mp ((List.mem_insertionSort _).mp hFacet)
  have hShown : facetOf runtime selection definitions code byOption = some facet := hShown
  have hKept : Kept KeptTally (countHeld candidates selection) := kept_countHeld hSelection
  have hAt := (lookup_eq_some_iff hKept.keys).mpr hIn
  unfold facetOf at hShown
  split at hShown
  · cases hShown
  · next definition hDefinition =>
      dsimp only at hShown
      split at hShown <;> cases hShown
      obtain ⟨⟨counted, count⟩, hCounted, hLabel⟩ :=
        List.mem_filterMap.mp ((List.mem_insertionSort _).mp hOption)
      obtain ⟨label, hText, rfl⟩ := Option.map_eq_some_iff.mp hLabel
      refine ⟨⟨definition, hDefinition, by simp [hText]⟩, ?_⟩
      rw [← tallied_countHeld, FacetCounts.tallied, hAt]
      exact count_of_withSelected (hKept.values _ hIn) hCounted

end

/-! ### Other selections -/

/-- The selection with these options under the code, and the same under the other ones. -/
def Replaces (selection selection' : FacetSelection) (code : String) (chosen : List String) :
    Prop :=
  ∀ other, selection'.lookup other = if other = code then some chosen else selection.lookup other

theorem Replaces.self {selection selection' : FacetSelection} {code : String}
    {chosen : List String} (h : Replaces selection selection' code chosen) :
    selection'.lookup code = some chosen := by
  rw [h, if_pos rfl]

theorem kept_toFacetSelection (input : Option (List PublicAttributeFacetSelection)) :
    Kept List.Nodup (toFacetSelection input) :=
  List.foldlRecOn _ _ .nil fun _ hSelection _ _ => kept_hold hSelection _ _

section

variable {selection selection' : FacetSelection} {subject : FacetValues}
  {candidate : FacetCandidate} {code option : String} {chosen chosen' : List String}

theorem subjectMatches_iff (hSelection : (selection.map Prod.fst).Nodup)
    {except? : Option String} : subjectMatches subject selection except? = true ↔
      ∀ code chosen, selection.lookup code = some chosen → except? ≠ some code →
        ∃ option ∈ chosen, Held subject code option := by
  simp only [subjectMatches, List.all_eq_true, Prod.forall, Bool.or_eq_true, decide_eq_true_eq,
    lookup_eq_some_iff hSelection, or_iff_not_imp_left, ne_eq]
  refine forall₄_congr fun code chosen _ _ => ?_
  cases hAt : subject.lookup code <;> simp [Held, hAt]

theorem facetsMatch_iff (hSelection : (selection.map Prod.fst).Nodup) :
    facetsMatch selection candidate = true ↔ selection = [] ∨ ∃ subject ∈ candidate.subjects,
      ∀ code chosen, selection.lookup code = some chosen →
        ∃ option ∈ chosen, Held subject code option := by
  simp [facetsMatch, subjectMatches_iff hSelection]

theorem ne_nil_of_lookup (h : selection.lookup code = some chosen) : selection ≠ [] := by
  rintro rfl
  cases h

/-- A candidate matches one option in place of a selection exactly when it counts for it. -/
theorem facetsMatch_one (hSubjects : ∀ subject ∈ candidate.subjects, Kept List.Nodup subject)
    (hSelection : (selection.map Prod.fst).Nodup) (hSelection' : (selection'.map Prod.fst).Nodup)
    (h : Replaces selection selection' code [option]) :
    facetsMatch selection' candidate = true ↔ Held (heldBy selection candidate) code option := by
  rw [facetsMatch_iff hSelection', or_iff_right (ne_nil_of_lookup h.self), held_heldBy hSubjects]
  refine exists_congr fun subject => and_congr_right fun _ => ?_
  rw [subjectMatches_iff hSelection]
  constructor
  · intro hAll
    refine ⟨fun other chosen hAt hOther => hAll other chosen ?_, ?_⟩
    · rw [h, if_neg fun hSame => hOther (congrArg some hSame.symm), hAt]
    · simpa using hAll code [option] h.self
  · rintro ⟨hOthers, hHeld⟩ other chosen hAt
    by_cases hSame : other = code
    · subst hSame
      obtain rfl := Option.some.inj (h.self.symm.trans hAt)
      simpa using hHeld
    · rw [h, if_neg hSame] at hAt
      exact hOthers other chosen hAt fun hCode => hSame (Option.some.inj hCode).symm

/-- More options under a selected code lose no candidate. -/
theorem facetsMatch_grow (hSelection : (selection.map Prod.fst).Nodup)
    (hSelection' : (selection'.map Prod.fst).Nodup) (hAt : selection.lookup code = some chosen)
    (h : Replaces selection selection' code chosen') (hMore : chosen ⊆ chosen')
    (hMatches : facetsMatch selection candidate = true) :
    facetsMatch selection' candidate = true := by
  rw [facetsMatch_iff hSelection, or_iff_right (ne_nil_of_lookup hAt)] at hMatches
  obtain ⟨subject, hSubject, hAll⟩ := hMatches
  refine (facetsMatch_iff hSelection').mpr
    (.inr ⟨subject, hSubject, fun other options hOther => ?_⟩)
  by_cases hSame : other = code
  · subst hSame
    obtain rfl := Option.some.inj (h.self.symm.trans hOther)
    obtain ⟨option, hOption, hHeld⟩ := hAll other chosen hAt
    exact ⟨option, hMore hOption, hHeld⟩
  · rw [h, if_neg hSame] at hOther
    exact hAll other options hOther

/-- A code that was not selected gains no candidate. -/
theorem facetsMatch_narrow (hSelection : (selection.map Prod.fst).Nodup)
    (hSelection' : (selection'.map Prod.fst).Nodup) (hAt : selection.lookup code = none)
    (h : Replaces selection selection' code chosen)
    (hMatches : facetsMatch selection' candidate = true) :
    facetsMatch selection candidate = true := by
  rw [facetsMatch_iff hSelection', or_iff_right (ne_nil_of_lookup h.self)] at hMatches
  obtain ⟨subject, hSubject, hAll⟩ := hMatches
  refine (facetsMatch_iff hSelection).mpr (.inr ⟨subject, hSubject, fun other options hOther => ?_⟩)
  refine hAll other options ?_
  rw [h, if_neg, hOther]
  rintro rfl
  cases hAt.symm.trans hOther

end

end Houndfe.PublicCatalog
