import Houndfe.Base.Dominance
import Houndfe.Base.Keyed
import Mathlib.Algebra.Order.BigOperators.Group.List
import Mathlib.Data.Prod.Lex
import Mathlib.Data.String.Basic
import Mathlib.Tactic.Linarith
import Mathlib.Tactic.Ring

/-! The box of an order: the smallest active box that takes every item on its own, the volume of
all of them and their weight. Sizes are exact numbers. -/

namespace Houndfe.Shipping

open Dominance

structure PackageDims where
  lengthCm : ℚ
  widthCm : ℚ
  heightCm : ℚ
  positive : 0 < lengthCm ∧ 0 < widthCm ∧ 0 < heightCm
  deriving DecidableEq

/-- `none` where a product has no packaging. -/
structure PackageItem where
  productId : String
  variantId : Option String
  quantity : ℚ
  packageWeightG : Option ℚ
  dims : Option PackageDims
  positive : ∀ weight ∈ packageWeightG, 0 < weight

structure StandardBox where
  id : String
  name : String
  inner : PackageDims
  weightG : ℚ
  maxContentWeightG : ℚ
  deriving DecidableEq

structure OrderPackage where
  box : StandardBox
  contentWeightG : ℚ
  totalWeightG : ℚ
  dims : PackageDims

structure MissingPackagingRef where
  productId : String
  variantId : Option String
  deriving DecidableEq

inductive PackageError where
  | empty
  | invalidQuantity (productId : String)
  | packagingDataMissing (missing : List MissingPackagingRef)
  | noShippingBoxFits (contentWeightG : ℚ) (boxesConsidered : Nat)
  deriving DecidableEq

def PackageDims.sides (dims : PackageDims) : List ℚ :=
  [dims.lengthCm, dims.widthCm, dims.heightCm]

def PackageDims.volume (dims : PackageDims) : ℚ :=
  dims.lengthCm * dims.widthCm * dims.heightCm

/-- `item.every((side, index) => side <= inner[index])`. -/
def fitsInside (item inner : List ℚ) : Bool :=
  (item.zip inner).all fun pair => pair.1 ≤ pair.2

/-- An item whose packaging is known. -/
structure CompleteItem where
  quantity : ℚ
  weightG : ℚ
  dims : PackageDims

def complete? (item : PackageItem) : Option CompleteItem := do
  let weight ← item.packageWeightG
  let dims ← item.dims
  return ⟨item.quantity, weight, dims⟩

def requireComplete (items : List PackageItem) : Except PackageError (List CompleteItem) :=
  match items.filter (complete? · |>.isNone) with
  | [] => .ok (items.filterMap complete?)
  | incomplete => .error (.packagingDataMissing ((incomplete.foldl
      (fun missing item => Dictionary.set missing (item.productId ++ ":" ++ item.variantId.getD "")
        (⟨item.productId, item.variantId⟩ : MissingPackagingRef)) []).map Prod.snd))

def contentWeight (items : List CompleteItem) : ℚ :=
  (items.map fun item => item.weightG * item.quantity).sum

def contentVolume (items : List CompleteItem) : ℚ :=
  (items.map fun item => item.dims.volume * item.quantity).sum

def isCandidate (items : List CompleteItem) (box : StandardBox) : Bool :=
  contentWeight items ≤ box.maxContentWeightG && contentVolume items ≤ box.inner.volume &&
    items.all fun item => fitsInside (descending item.dims.sides) (descending box.inner.sides)

/-- `Number.isInteger(quantity) && quantity > 0`. -/
def isPositiveInteger (quantity : ℚ) : Bool :=
  quantity.isInt && 0 < quantity

variable {κ : Type*} [LinearOrder κ] (collate : String → κ)

/-- Inner volume, then own weight, then id by `localeCompare`. -/
def boxRank (box : StandardBox) : ℚ ×ₗ ℚ ×ₗ κ :=
  toLex (box.inner.volume, toLex (box.weightG, collate box.id))

def StandardBox.packed (chosen : StandardBox) (complete : List CompleteItem) : OrderPackage where
  box := chosen
  contentWeightG := contentWeight complete
  totalWeightG := contentWeight complete + chosen.weightG
  dims := chosen.inner

def buildOrderPackage (items : List PackageItem) (activeBoxes : List StandardBox) :
    Except PackageError OrderPackage :=
  if items = [] then .error .empty
  else match items.find? (!isPositiveInteger ·.quantity) with
    | some line => .error (.invalidQuantity line.productId)
    | none => do
        let complete ← requireComplete items
        match Keyed.sortByKey (boxRank collate) (activeBoxes.filter (isCandidate complete)) with
        | [] => .error (.noShippingBoxFits (contentWeight complete) activeBoxes.length)
        | chosen :: _ => return chosen.packed complete

/-! ### The box that is chosen -/

variable {collate} {items items' : List PackageItem} {complete complete' : List CompleteItem}
  {boxes boxes' : List StandardBox} {box : StandardBox} {package : OrderPackage}

/-- Some rotation of the item lies within the box. -/
def FitsRotated (item inner : PackageDims) : Prop :=
  ∃ rotated : List ℚ, rotated.Perm item.sides ∧ List.Forall₂ (· ≤ ·) rotated inner.sides

/-- Every item fits, and so do the volume and the weight of all of them. -/
structure Takes (box : StandardBox) (complete : List CompleteItem) : Prop where
  each : ∀ item ∈ complete, FitsRotated item.dims box.inner
  volume : contentVolume complete ≤ box.inner.volume
  weight : contentWeight complete ≤ box.maxContentWeightG

/-- Whole positive quantities and known packaging. -/
def Packed (items : List PackageItem) : Prop :=
  ∀ item ∈ items, isPositiveInteger item.quantity = true ∧ (complete? item).isSome

/-- The least of the boxes that take the items. -/
structure Chosen (collate : String → κ) (boxes : List StandardBox) (complete : List CompleteItem)
    (box : StandardBox) : Prop where
  active : box ∈ boxes
  takes : Takes box complete
  least : ∀ other ∈ boxes, Takes other complete → boxRank collate box ≤ boxRank collate other

theorem fitsInside_iff (item inner : PackageDims) :
    fitsInside (descending item.sides) (descending inner.sides) = true ↔
      FitsRotated item inner := by
  have hLength : ∀ dims : PackageDims, (descending dims.sides).length = 3 :=
    fun dims => (descending_perm dims.sides).length_eq
  rw [FitsRotated, ← forall₂_descending_iff, List.forall₂_iff_zip, hLength, hLength, fitsInside,
    List.all_eq_true]
  simp

theorem isCandidate_iff : isCandidate complete box = true ↔ Takes box complete := by
  simp only [isCandidate, Bool.and_eq_true, decide_eq_true_eq, List.all_eq_true, fitsInside_iff]
  exact ⟨fun ⟨⟨hWeight, hVolume⟩, hEach⟩ => ⟨hEach, hVolume, hWeight⟩,
    fun ⟨hEach, hVolume, hWeight⟩ => ⟨⟨hWeight, hVolume⟩, hEach⟩⟩

/-- A box that takes the items makes one of them the chosen one. -/
theorem chosen_of_first {rest : List StandardBox}
    (h : Keyed.sortByKey (boxRank collate) (boxes.filter (isCandidate complete)) = box :: rest) :
    Chosen collate boxes complete box := by
  have hPerm := Keyed.sortByKey_perm (boxRank collate) (boxes.filter (isCandidate complete))
  have hSorted := Keyed.pairwise_sortByKey (boxRank collate) (boxes.filter (isCandidate complete))
  rw [h] at hPerm hSorted
  have hBox := List.mem_filter.mp (hPerm.mem_iff.mp List.mem_cons_self)
  refine ⟨hBox.1, isCandidate_iff.mp hBox.2, fun other hActive hTakes => ?_⟩
  have hOther := hPerm.mem_iff.mpr (List.mem_filter.mpr ⟨hActive, isCandidate_iff.mpr hTakes⟩)
  rcases List.mem_cons.mp hOther with rfl | hLater
  · exact le_refl _
  · exact (List.pairwise_cons.mp hSorted).1 other hLater

theorem exists_first (collate : String → κ) (hActive : box ∈ boxes)
    (hTakes : Takes box complete) : ∃ first rest,
    Keyed.sortByKey (boxRank collate) (boxes.filter (isCandidate complete)) = first :: rest := by
  apply List.exists_cons_of_ne_nil
  intro hNone
  have hIn := (Keyed.sortByKey_perm (boxRank collate) _).mem_iff.mpr
    (List.mem_filter.mpr ⟨hActive, isCandidate_iff.mpr hTakes⟩)
  rw [hNone] at hIn
  cases hIn

theorem Chosen.unique {other : StandardBox} (h : Chosen collate boxes complete box)
    (h' : Chosen collate boxes complete other) (hIds : (boxes.map (collate ·.id)).Nodup) :
    box = other := by
  have hRank := le_antisymm (h.least other h'.active h'.takes) (h'.least box h.active h.takes)
  have hId : collate box.id = collate other.id := by
    have hRanks := congrArg ofLex hRank
    simp only [boxRank, ofLex_toLex, Prod.mk.injEq] at hRanks
    exact congrArg (fun rank => (ofLex rank).2) hRanks.2
  exact List.inj_on_of_nodup_map hIds h.active h'.active hId

/-- A package is built exactly for well-formed items with a box that takes them. -/
theorem buildOrderPackage_eq_ok (hItems : items ≠ []) (hIds : (boxes.map (collate ·.id)).Nodup) :
    buildOrderPackage collate items boxes = .ok package ↔
      Packed items ∧ Chosen collate boxes (items.filterMap complete?) package.box ∧
        package = package.box.packed (items.filterMap complete?) := by
  unfold buildOrderPackage
  rw [if_neg hItems]
  cases hFound : items.find? (!isPositiveInteger ·.quantity) with
  | some line =>
      have hBad := List.find?_some hFound
      simp only [reduceCtorEq, false_iff, not_and]
      intro hPacked
      rw [(hPacked line (List.mem_of_find?_eq_some hFound)).1] at hBad
      cases hBad
  | none =>
      have hWhole : ∀ item ∈ items, isPositiveInteger item.quantity = true := by
        simpa using List.find?_eq_none.mp hFound
      simp only [requireComplete]
      cases hMissing : items.filter (complete? · |>.isNone) with
      | cons item rest =>
          simp only [bind, Except.bind, reduceCtorEq, false_iff, not_and]
          intro hPacked
          have hIn := List.mem_filter.mp (hMissing ▸ List.mem_cons_self : item ∈ items.filter _)
          exact absurd (hPacked item hIn.1).2 (by simpa using hIn.2)
      | nil =>
          have hPacked : Packed items := by
            intro item hMem
            have hSome := List.filter_eq_nil_iff.mp hMissing item hMem
            exact ⟨hWhole item hMem, by simpa [Option.isSome_iff_ne_none] using hSome⟩
          simp only [bind, Except.bind]
          cases hSort : Keyed.sortByKey (boxRank collate)
              (boxes.filter (isCandidate (items.filterMap complete?))) with
          | nil =>
              simp only [reduceCtorEq, false_iff, not_and]
              rintro _ ⟨hActive, hTakes, _⟩ _
              obtain ⟨_, _, hFirst⟩ := exists_first collate hActive hTakes
              rw [hSort] at hFirst
              cases hFirst
          | cons chosen rest =>
              have hChosen := chosen_of_first hSort
              simp only [pure, Except.pure, Except.ok.injEq]
              constructor
              · rintro rfl
                exact ⟨hPacked, hChosen, rfl⟩
              · rintro ⟨_, hBox, hSame⟩
                rw [hSame, hBox.unique hChosen hIds]

/-! ### What the choice does not depend on -/

/-- Items of the same weight and volume that fit the same boxes are packed alike. -/
theorem build_congr (hItems : items ≠ []) (hItems' : items' ≠ [])
    (hIds : (boxes.map (collate ·.id)).Nodup) (hBoxes : boxes.Perm boxes')
    (hPacked : Packed items' ↔ Packed items)
    (hWeight : contentWeight (items'.filterMap complete?) =
      contentWeight (items.filterMap complete?))
    (hVolume : contentVolume (items'.filterMap complete?) =
      contentVolume (items.filterMap complete?))
    (hEach : ∀ dims, (∃ item ∈ items'.filterMap complete?, item.dims = dims) ↔
      ∃ item ∈ items.filterMap complete?, item.dims = dims) :
    (buildOrderPackage collate items' boxes').toOption =
      (buildOrderPackage collate items boxes).toOption := by
  have hIds' : (boxes'.map (collate ·.id)).Nodup := (hBoxes.map _).nodup_iff.mp hIds
  have hTakes : ∀ box, Takes box (items'.filterMap complete?) ↔
      Takes box (items.filterMap complete?) := by
    intro box
    have hAll : ∀ complete : List CompleteItem, (∀ item ∈ complete,
        FitsRotated item.dims box.inner) ↔
          ∀ dims, (∃ item ∈ complete, item.dims = dims) → FitsRotated dims box.inner := by
      intro complete
      exact ⟨fun h dims ⟨item, hMem, hDims⟩ => hDims ▸ h item hMem,
        fun h item hMem => h _ ⟨item, hMem, rfl⟩⟩
    constructor
    · rintro ⟨hFits, hRoom, hStrong⟩
      exact ⟨(hAll _).mpr fun dims hDims => (hAll _).mp hFits dims ((hEach dims).mpr hDims),
        hVolume ▸ hRoom, hWeight ▸ hStrong⟩
    · rintro ⟨hFits, hRoom, hStrong⟩
      exact ⟨(hAll _).mpr fun dims hDims => (hAll _).mp hFits dims ((hEach dims).mp hDims),
        hVolume ▸ hRoom, hWeight ▸ hStrong⟩
  have hChosen : ∀ box, Chosen collate boxes' (items'.filterMap complete?) box ↔
      Chosen collate boxes (items.filterMap complete?) box := by
    intro box
    constructor
    · rintro ⟨hActive, hBox, hLeast⟩
      exact ⟨hBoxes.mem_iff.mpr hActive, (hTakes _).mp hBox, fun other hOther hFits =>
        hLeast other (hBoxes.mem_iff.mp hOther) ((hTakes _).mpr hFits)⟩
    · rintro ⟨hActive, hBox, hLeast⟩
      exact ⟨hBoxes.mem_iff.mp hActive, (hTakes _).mpr hBox, fun other hOther hFits =>
        hLeast other (hBoxes.mem_iff.mpr hOther) ((hTakes _).mp hFits)⟩
  have hPack : ∀ box : StandardBox, box.packed (items'.filterMap complete?) =
      box.packed (items.filterMap complete?) := by
    intro box
    rw [StandardBox.packed, StandardBox.packed, hWeight]
  have hSome : ∀ {ε α : Type} {x : Except ε α} {a : α}, x.toOption = some a ↔ x = .ok a := by
    intro ε α x a
    cases x <;> simp [Except.toOption]
  apply Option.ext
  intro package
  rw [hSome, hSome, buildOrderPackage_eq_ok hItems' hIds', buildOrderPackage_eq_ok hItems hIds,
    hPacked, hChosen, hPack]

theorem packed_perm (hPerm : items.Perm items') : Packed items' ↔ Packed items := by
  simp only [Packed, hPerm.mem_iff]

theorem build_perm (hItems : items ≠ []) (hIds : (boxes.map (collate ·.id)).Nodup)
    (hPerm : items.Perm items') (hBoxes : boxes.Perm boxes') :
    (buildOrderPackage collate items' boxes').toOption =
      (buildOrderPackage collate items boxes).toOption := by
  have hComplete := (hPerm.filterMap complete?).symm
  apply build_congr hItems (fun hNone => hItems (hPerm.trans (hNone ▸ .refl _)).eq_nil) hIds hBoxes
    (packed_perm hPerm)
  · exact (hComplete.map _).sum_eq
  · exact (hComplete.map _).sum_eq
  · simp only [hComplete.mem_iff, implies_true]

/-- The lines that an item is split into. -/
def splitLine (line : PackageItem) (parts : List Nat) : List PackageItem :=
  parts.map fun part : Nat => { line with quantity := (part : ℚ) }

theorem complete?_quantity (line : PackageItem) (quantity : ℚ) :
    complete? { line with quantity := quantity } =
      (complete? line).map ({ · with quantity := quantity }) := by
  rcases line with ⟨_, _, _, weight, dims, _⟩
  cases weight <;> cases dims <;> rfl

theorem sum_parts (each : ℚ) (parts : List Nat) :
    (parts.map fun part : Nat => each * (part : ℚ)).sum = each * (parts.sum : Nat) := by
  induction parts with
  | nil => simp
  | cons part rest ih =>
      rw [List.map_cons, List.sum_cons, List.sum_cons, ih]
      push_cast
      ring

theorem isPositiveInteger_natCast {n : Nat} (hPos : 0 < n) : isPositiveInteger n = true := by
  simp [isPositiveInteger, Rat.isInt, hPos]

theorem build_split {before after : List PackageItem} {line : PackageItem} {parts : List Nat}
    (hIds : (boxes.map (collate ·.id)).Nodup) (hParts : parts ≠ [])
    (hEach : ∀ part ∈ parts, 0 < part) (hSum : line.quantity = (parts.sum : Nat)) :
    (buildOrderPackage collate (before ++ splitLine line parts ++ after) boxes).toOption =
      (buildOrderPackage collate (before ++ line :: after) boxes).toOption := by
  have hSumPos : 0 < parts.sum := List.sum_pos parts hEach hParts
  have hLine : ∀ item ∈ splitLine line parts, isPositiveInteger item.quantity = true := by
    intro item hMem
    obtain ⟨part, hPart, rfl⟩ := List.mem_map.mp hMem
    exact isPositiveInteger_natCast (hEach part hPart)
  have hWhole : isPositiveInteger line.quantity = true := by
    rw [hSum]
    exact isPositiveInteger_natCast hSumPos
  obtain ⟨first, rest, hFirst⟩ := List.exists_cons_of_ne_nil hParts
  have hSplit : (splitLine line parts).filterMap complete? =
      match complete? line with
      | none => []
      | some item => parts.map fun part : Nat => { item with quantity := (part : ℚ) } := by
    rw [splitLine, List.filterMap_map]
    cases hComplete : complete? line with
    | none => simp [complete?_quantity, hComplete]
    | some item => simp [complete?_quantity, hComplete]
  have hQuantity : ∀ item, complete? line = some item → item.quantity = (parts.sum : Nat) := by
    intro item hItem
    rw [← hSum]
    unfold complete? at hItem
    simp only [Option.bind_eq_bind, Option.bind_eq_some_iff, pure, Option.some.injEq] at hItem
    obtain ⟨_, _, _, _, rfl⟩ := hItem
    rfl
  apply build_congr (by simp) (by simp [splitLine, hFirst]) hIds (.refl _)
  · simp only [Packed, List.forall_mem_append, List.forall_mem_cons, and_assoc]
    have hSame : (∀ item ∈ splitLine line parts, isPositiveInteger item.quantity = true ∧
        (complete? item).isSome) ↔ isPositiveInteger line.quantity = true ∧
          (complete? line).isSome := by
      rw [hWhole]
      constructor
      · intro hAll
        have hOne := (hAll { line with quantity := first } (by
          simp [splitLine, hFirst])).2
        rw [complete?_quantity, Option.isSome_map] at hOne
        exact ⟨rfl, hOne⟩
      · rintro ⟨_, hSome⟩ item hMem
        refine ⟨hLine item hMem, ?_⟩
        obtain ⟨part, _, rfl⟩ := List.mem_map.mp hMem
        rwa [complete?_quantity, Option.isSome_map]
    rw [hSame, and_assoc]
  · rw [List.filterMap_append, List.filterMap_append, List.filterMap_append, List.filterMap_cons,
      hSplit]
    cases hComplete : complete? line with
    | none => simp [contentWeight]
    | some item =>
        simp [contentWeight, hQuantity item hComplete, Function.comp_def, sum_parts]
  · rw [List.filterMap_append, List.filterMap_append, List.filterMap_append, List.filterMap_cons,
      hSplit]
    cases hComplete : complete? line with
    | none => simp [contentVolume]
    | some item =>
        simp [contentVolume, hQuantity item hComplete, Function.comp_def, sum_parts]
  · intro dims
    rw [List.filterMap_append, List.filterMap_append, List.filterMap_append, List.filterMap_cons,
      hSplit]
    cases hComplete : complete? line with
    | none => simp
    | some item => simp [hFirst]; grind

/-- What takes more items takes fewer of them. -/
theorem Takes.of_cons {item : CompleteItem} (h : Takes box (item :: complete))
    (hWeight : 0 ≤ item.weightG) (hQuantity : 0 ≤ item.quantity) : Takes box complete := by
  obtain ⟨hEach, hVolume, hStrong⟩ := h
  have hRoom : 0 ≤ item.dims.volume * item.quantity := by
    obtain ⟨hLength, hWidth, hHeight⟩ := item.dims.positive
    unfold PackageDims.volume
    positivity
  have hLoad : 0 ≤ item.weightG * item.quantity := mul_nonneg hWeight hQuantity
  simp only [contentVolume, contentWeight, List.map_cons, List.sum_cons] at hVolume hStrong
  exact ⟨(List.forall_mem_cons.mp hEach).2, by unfold contentVolume; linarith,
    by unfold contentWeight; linarith⟩

/-- One item more needs a box that is no smaller. -/
theorem build_of_more {item : PackageItem} (hItems : items ≠ [])
    (hIds : (boxes.map (collate ·.id)).Nodup)
    (hOk : buildOrderPackage collate (item :: items) boxes = .ok package) :
    ∃ fewer, buildOrderPackage collate items boxes = .ok fewer ∧
      fewer.box.inner.volume ≤ package.box.inner.volume := by
  obtain ⟨hPacked, hChosen, _⟩ := (buildOrderPackage_eq_ok (by simp) hIds).mp hOk
  obtain ⟨⟨hWhole, hSome⟩, hRest⟩ := List.forall_mem_cons.mp hPacked
  obtain ⟨whole, hComplete⟩ := Option.isSome_iff_exists.mp hSome
  have hTakes := hChosen.takes
  rw [List.filterMap_cons, hComplete] at hTakes
  have hBounds : 0 ≤ whole.weightG ∧ 0 ≤ whole.quantity := by
    unfold complete? at hComplete
    simp only [Option.bind_eq_bind, Option.bind_eq_some_iff, pure, Option.some.injEq] at hComplete
    obtain ⟨weight, hWeight, _, _, rfl⟩ := hComplete
    simp only [isPositiveInteger, Bool.and_eq_true, decide_eq_true_eq] at hWhole
    exact ⟨(item.positive weight hWeight).le, hWhole.2.le⟩
  have hFewer := hTakes.of_cons hBounds.1 hBounds.2
  obtain ⟨first, rest, hFirst⟩ := exists_first collate hChosen.active hFewer
  have hLeast := chosen_of_first hFirst
  refine ⟨first.packed _, (buildOrderPackage_eq_ok hItems hIds).mpr ⟨hRest, hLeast, rfl⟩, ?_⟩
  have hRank := hLeast.least _ hChosen.active hFewer
  rcases Prod.Lex.le_iff.mp hRank with hLess | ⟨hSame, _⟩
  · exact le_of_lt hLess
  · exact le_of_eq hSame

/-- The choice of the box: when there is none, which one it is, and what it does not depend on. -/
theorem order_package_choice (collate : String → κ) (items : List PackageItem)
    (boxes : List StandardBox) (hItems : items ≠ []) (hIds : (boxes.map (·.id)).Nodup)
    (hCollate : ∀ box ∈ boxes, ∀ other ∈ boxes, collate box.id = collate other.id →
      box.id = other.id) :
    ((∃ package, buildOrderPackage collate items boxes = .ok package) ↔
      (∀ item ∈ items, isPositiveInteger item.quantity = true ∧ item.packageWeightG.isSome ∧
        item.dims.isSome) ∧ ∃ box ∈ boxes, Takes box (items.filterMap complete?)) ∧
    (∀ package, buildOrderPackage collate items boxes = .ok package → package.box ∈ boxes ∧
      Takes package.box (items.filterMap complete?) ∧ ∀ other ∈ boxes,
        Takes other (items.filterMap complete?) → other ≠ package.box →
          boxRank collate package.box < boxRank collate other) ∧
    (∀ items' boxes', items.Perm items' → boxes.Perm boxes' →
      (buildOrderPackage collate items' boxes').toOption =
        (buildOrderPackage collate items boxes).toOption) ∧
    (∀ before line after (parts : List Nat), items = before ++ line :: after → parts ≠ [] →
      (∀ part ∈ parts, 0 < part) → line.quantity = ((parts.sum : Nat) : ℚ) →
      (buildOrderPackage collate (before ++ splitLine line parts ++ after) boxes).toOption =
        (buildOrderPackage collate items boxes).toOption) ∧
    ∀ item items', items'.Perm (item :: items) → ∀ package,
      buildOrderPackage collate items' boxes = .ok package →
      ∃ fewer, buildOrderPackage collate items boxes = .ok fewer ∧
        fewer.box.inner.volume ≤ package.box.inner.volume := by
  have hKeys : (boxes.map (collate ·.id)).Nodup := by
    rw [List.nodup_map_iff_inj_on (List.Nodup.of_map _ hIds)]
    exact fun box hBox other hOther hSame =>
      List.inj_on_of_nodup_map hIds hBox hOther (hCollate box hBox other hOther hSame)
  have hPacked : Packed items ↔ ∀ item ∈ items, isPositiveInteger item.quantity = true ∧
      item.packageWeightG.isSome ∧ item.dims.isSome := by
    have hSome : ∀ item,
        (complete? item).isSome ↔ item.packageWeightG.isSome ∧ item.dims.isSome := by
      intro item
      unfold complete?
      cases item.packageWeightG <;> cases item.dims <;> simp
    simp only [Packed, hSome]
  refine ⟨?_, ?_, ?_, ?_, ?_⟩
  · rw [← hPacked]
    constructor
    · rintro ⟨package, hOk⟩
      obtain ⟨hItem, hChosen, _⟩ := (buildOrderPackage_eq_ok hItems hKeys).mp hOk
      exact ⟨hItem, package.box, hChosen.active, hChosen.takes⟩
    · rintro ⟨hItem, box, hActive, hTakes⟩
      obtain ⟨first, rest, hFirst⟩ := exists_first collate hActive hTakes
      exact ⟨first.packed _, (buildOrderPackage_eq_ok hItems hKeys).mpr
        ⟨hItem, chosen_of_first hFirst, rfl⟩⟩
  · intro package hOk
    obtain ⟨_, hChosen, _⟩ := (buildOrderPackage_eq_ok hItems hKeys).mp hOk
    refine ⟨hChosen.active, hChosen.takes, fun other hActive hTakes hOther => ?_⟩
    refine lt_of_le_of_ne (hChosen.least other hActive hTakes) fun hRank => hOther ?_
    have hAlso : Chosen collate boxes (items.filterMap complete?) other :=
      ⟨hActive, hTakes, fun third hIn hFits => hRank ▸ hChosen.least third hIn hFits⟩
    exact hAlso.unique hChosen hKeys
  · exact fun items' boxes' hPerm hBoxes => build_perm hItems hKeys hPerm hBoxes
  · rintro before line after parts rfl hParts hEach hSum
    exact build_split hKeys hParts hEach hSum
  · intro item items' hPerm package hOk
    have hSame : (buildOrderPackage collate items' boxes).toOption =
        (buildOrderPackage collate (item :: items) boxes).toOption :=
      build_perm (by simp) hKeys hPerm.symm (List.Perm.refl boxes)
    rw [hOk] at hSame
    have hMore : buildOrderPackage collate (item :: items) boxes = .ok package := by
      cases hBuild : buildOrderPackage collate (item :: items) boxes with
      | error e =>
          rw [hBuild] at hSame
          cases hSame
      | ok other =>
          rw [hBuild] at hSame
          rw [Option.some.inj hSame]
    exact build_of_more hItems hKeys hMore

/-! ### A line that is split -/

namespace OrderPackage

def cube (side : Nat) : PackageDims where
  lengthCm := side + 1
  widthCm := side + 1
  heightCm := side + 1
  positive := by
    have hSide : (0 : ℚ) < side + 1 := by positivity
    exact ⟨hSide, hSide, hSide⟩

def mugs (quantity : ℚ) : PackageItem where
  productId := "mug"
  variantId := none
  quantity := quantity
  packageWeightG := some 300
  dims := some (cube 9)
  positive := by
    rintro weight ⟨⟩
    norm_num

/-- A box that takes three mugs, and a larger one. -/
def small : StandardBox := ⟨"a", "Chica", ⟨20, 10, 15, by norm_num⟩, 120, 2000⟩

def large : StandardBox := ⟨"b", "Grande", cube 29, 400, 20000⟩

end OrderPackage

open OrderPackage in
/-- Three mugs go into the smaller of two boxes, and so do one mug and two more. -/
theorem order_package_choice_of_mugs :
    (∃ package, buildOrderPackage id [mugs 3] [large, small] = .ok package) ∧
    (buildOrderPackage id ([] ++ splitLine (mugs 3) [1, 2] ++ []) [large, small]).toOption =
      (buildOrderPackage id [mugs 3] [large, small]).toOption := by
  have hAll := order_package_choice id [mugs 3] [large, small] (by simp) (by decide)
    fun box _ other _ hSame => hSame
  refine ⟨hAll.1.mpr ⟨?_, small, by simp, ?_⟩, hAll.2.2.2.1 [] (mugs 3) [] [1, 2] rfl (by simp)
    (by simp) (by norm_num [mugs])⟩
  · decide +kernel
  · exact isCandidate_iff.mp (by decide +kernel)

end Houndfe.Shipping
