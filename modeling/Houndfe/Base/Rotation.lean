import Mathlib.Algebra.Order.Group.Nat
import Mathlib.Data.List.Sort

/-! Paging through a sorted list with a cursor that rotates: a page holds the entries after the
cursor, the cursor moves to the last of a full page, and a page that is not full sends it back to
the start. Every entry comes up within one page more than the list has pages. -/

namespace Rotation

/-! ### Offsets -/

/-- The offset after a page of `size` at `offset` of `n` entries. -/
def advance (size n offset : Nat) : Nat :=
  if n - offset < size then 0 else offset + size

/-- The offset after so many pages. -/
def offsetAfter (size n : Nat) : Nat → Nat → Nat
  | 0, offset => offset
  | pages + 1, offset => offsetAfter size n pages (advance size n offset)

section

variable {size n offset place pages : Nat}

theorem offsetAfter_add (first second : Nat) : offsetAfter size n (first + second) offset =
    offsetAfter size n second (offsetAfter size n first offset) := by
  induction first generalizing offset with
  | zero => rw [Nat.zero_add, offsetAfter]
  | succ first ih => rw [Nat.succ_add, offsetAfter, offsetAfter, ih]

/-- Full pages follow one another. -/
theorem offsetAfter_full (h : offset + pages * size ≤ n) :
    offsetAfter size n pages offset = offset + pages * size := by
  induction pages generalizing offset with
  | zero => simp [offsetAfter]
  | succ pages ih =>
      rw [Nat.succ_mul] at h ⊢
      have hFull : ¬ n - offset < size := by omega
      rw [offsetAfter, advance, if_neg hFull, ih (by omega)]
      omega

/-- What is left after the cursor takes so many pages, the one that sends it back among them. -/
theorem offsetAfter_wrap (hSize : 0 < size) (h : offset ≤ n) :
    offsetAfter size n ((n - offset) / size + 1) offset = 0 := by
  have hPages := Nat.div_mul_le_self (n - offset) size
  have hRest : n - offset < (n - offset) / size * size + size := Nat.lt_div_mul_add hSize
  have hFits : offset + (n - offset) / size * size ≤ n := by omega
  have hShort : n - (offset + (n - offset) / size * size) < size := by omega
  rw [offsetAfter_add, offsetAfter_full hFits, offsetAfter, offsetAfter, advance, if_pos hShort]

/-- Every place comes up within one page more than there are pages. -/
theorem exists_page (hSize : 0 < size) (hOffset : offset ≤ n) (hPlace : place < n) :
    ∃ pages, pages ≤ (n - 1) / size + 1 ∧ offsetAfter size n pages offset ≤ place ∧
      place < offsetAfter size n pages offset + size := by
  by_cases h : offset ≤ place
  · have hPages := Nat.div_mul_le_self (place - offset) size
    have hRest : place - offset < (place - offset) / size * size + size :=
      Nat.lt_div_mul_add hSize
    refine ⟨(place - offset) / size, ?_, ?_⟩
    · exact (Nat.div_le_div_right (by omega)).trans (Nat.le_succ _)
    · rw [offsetAfter_full (by omega)]
      omega
  · have hPages := Nat.div_mul_le_self place size
    have hRest : place < place / size * size + size := Nat.lt_div_mul_add hSize
    refine ⟨(n - offset) / size + 1 + place / size, ?_, ?_⟩
    · have hSum : (n - offset) / size + place / size ≤ (n - offset + place) / size :=
        Nat.div_add_div_le_add_div
      have hMono : (n - offset + place) / size ≤ (n - 1) / size :=
        Nat.div_le_div_right (by omega)
      omega
    · rw [offsetAfter_add, offsetAfter_wrap hSize hOffset, offsetAfter_full (by omega)]
      omega

end

/-! ### Cursors -/

variable {α κ : Type} [LinearOrder κ] (key : α → κ)

/-- The entries after the cursor. -/
def remaining (entries : List α) : Option κ → List α
  | none => entries
  | some cursor => entries.filter fun entry => cursor < key entry

/-- One page. -/
def page (size : Nat) (entries : List α) (cursor : Option κ) : List α :=
  (remaining key entries cursor).take size

/-- The cursor that a page leaves behind. -/
def nextCursor (size : Nat) (page : List α) : Option κ :=
  if page.length < size then none else page.getLast?.map key

section

variable {key} {entries : List α} {cursor : Option κ} {size : Nat}

/-- In a sorted list the entries after a cursor are the end of the list. -/
theorem filter_eq_drop (hSorted : (entries.map key).Pairwise (· < ·)) (bound : κ) :
    ∃ offset, offset ≤ entries.length ∧
      entries.filter (fun entry => bound < key entry) = entries.drop offset := by
  induction entries with
  | nil => exact ⟨0, Nat.le_refl _, rfl⟩
  | cons first rest ih =>
      rw [List.map_cons, List.pairwise_cons] at hSorted
      by_cases h : bound < key first
      · refine ⟨0, Nat.zero_le _, ?_⟩
        rw [List.drop_zero, List.filter_eq_self]
        intro entry hEntry
        rcases List.mem_cons.mp hEntry with rfl | hRest
        · simpa using h
        · simpa using h.trans (hSorted.1 _ (List.mem_map_of_mem hRest))
      · obtain ⟨offset, hOffset, hDrop⟩ := ih hSorted.2
        refine ⟨offset + 1, Nat.succ_le_succ hOffset, ?_⟩
        rw [List.filter_cons_of_neg (by simpa using h), hDrop, List.drop_succ_cons]

/-- The cursor stands at an offset. -/
def At (key : α → κ) (entries : List α) (cursor : Option κ) (offset : Nat) : Prop :=
  offset ≤ entries.length ∧ remaining key entries cursor = entries.drop offset

theorem exists_at (hSorted : (entries.map key).Pairwise (· < ·)) (cursor : Option κ) :
    ∃ offset, At key entries cursor offset := by
  cases cursor with
  | none => exact ⟨0, Nat.zero_le _, rfl⟩
  | some bound => exact filter_eq_drop hSorted bound

/-- After the last entry of the front of a sorted list comes the rest of it. -/
theorem filter_after {front back : List α} {last : α}
    (hSorted : ((front ++ back).map key).Pairwise (· < ·)) (hLast : front.getLast? = some last) :
    (front ++ back).filter (fun entry => key last < key entry) = back := by
  obtain ⟨start, rfl⟩ := List.getLast?_eq_some_iff.mp hLast
  rw [List.map_append, List.pairwise_append] at hSorted
  obtain ⟨hFront, _, hAcross⟩ := hSorted
  rw [List.map_append, List.pairwise_append] at hFront
  have hNone : (start ++ [last]).filter (fun entry => key last < key entry) = [] := by
    rw [List.filter_eq_nil_iff]
    intro entry hEntry
    simp only [decide_eq_true_eq, not_lt]
    rcases List.mem_append.mp hEntry with hStart | hEnd
    · exact (hFront.2.2 _ (List.mem_map_of_mem hStart) _ (by simp)).le
    · rw [List.mem_singleton.mp hEnd]
  have hAll : back.filter (fun entry => key last < key entry) = back := by
    rw [List.filter_eq_self]
    intro entry hEntry
    simpa using hAcross (key last) (by simp) _ (List.mem_map_of_mem hEntry)
  rw [List.filter_append, hNone, hAll, List.nil_append]

/-- The page at an offset, and where its cursor stands. -/
theorem At.step {offset : Nat} (h : At key entries cursor offset) (hSize : 0 < size)
    (hSorted : (entries.map key).Pairwise (· < ·)) :
    page key size entries cursor = (entries.drop offset).take size ∧
      At key entries (nextCursor key size (page key size entries cursor))
        (advance size entries.length offset) := by
  have hPage : page key size entries cursor = (entries.drop offset).take size := by
    rw [page, h.2]
  refine ⟨hPage, ?_⟩
  have hLength : ((entries.drop offset).take size).length =
      min size (entries.length - offset) := by
    rw [List.length_take, List.length_drop]
  rw [hPage, nextCursor, advance, hLength]
  split
  · next hShort =>
      rw [if_pos (by omega)]
      exact ⟨Nat.zero_le _, rfl⟩
  · next hFull =>
      rw [if_neg (by omega)]
      have hFound : ∃ last, ((entries.drop offset).take size).getLast? = some last := by
        apply Option.isSome_iff_exists.mp
        rw [List.getLast?_isSome, ← List.length_pos_iff, hLength]
        omega
      obtain ⟨last, hLast⟩ := hFound
      refine ⟨by omega, ?_⟩
      have hSplit : entries.take (offset + size) ++ entries.drop (offset + size) = entries :=
        List.take_append_drop _ _
      have hFront : (entries.take (offset + size)).getLast? = some last := by
        rw [List.take_add, List.getLast?_append, hLast, Option.some_or]
      rw [hLast, Option.map_some, remaining]
      rw [← hSplit] at hSorted
      have hRest := filter_after hSorted hFront
      rw [hSplit] at hRest
      exact hRest

/-- The cursor after so many pages. -/
def cursorAfter (key : α → κ) (size : Nat) (entries : List α) : Nat → Option κ → Option κ
  | 0, cursor => cursor
  | pages + 1, cursor =>
      cursorAfter key size entries pages (nextCursor key size (page key size entries cursor))

/-- One page more, at the end. -/
theorem cursorAfter_succ (pages : Nat) : cursorAfter key size entries (pages + 1) cursor =
    nextCursor key size (page key size entries (cursorAfter key size entries pages cursor)) := by
  induction pages generalizing cursor with
  | zero => rfl
  | succ pages ih =>
      rw [cursorAfter, ih]
      rfl

theorem At.after {offset : Nat} (h : At key entries cursor offset) (hSize : 0 < size)
    (hSorted : (entries.map key).Pairwise (· < ·)) (pages : Nat) :
    At key entries (cursorAfter key size entries pages cursor)
      (offsetAfter size entries.length pages offset) := by
  induction pages generalizing cursor offset with
  | zero => exact h
  | succ pages ih => exact ih (h.step hSize hSorted).2

/-- Every entry is on one of so many pages, wherever the cursor starts. -/
theorem exists_mem_page (hSize : 0 < size) (hSorted : (entries.map key).Pairwise (· < ·))
    (cursor : Option κ) {entry : α} (hEntry : entry ∈ entries) :
    ∃ pages, pages ≤ (entries.length - 1) / size + 1 ∧
      entry ∈ page key size entries (cursorAfter key size entries pages cursor) := by
  obtain ⟨offset, hAt⟩ := exists_at hSorted cursor
  obtain ⟨place, hPlace, rfl⟩ := List.getElem_of_mem hEntry
  obtain ⟨pages, hPages, hLow, hHigh⟩ := exists_page hSize hAt.1 hPlace
  refine ⟨pages, hPages, ?_⟩
  rw [((hAt.after hSize hSorted pages).step hSize hSorted).1, List.mem_take_iff_getElem]
  refine ⟨place - offsetAfter size entries.length pages offset, ?_, ?_⟩
  · rw [List.length_drop]
    omega
  · rw [List.getElem_drop]
    congr 1
    omega

end

end Rotation
