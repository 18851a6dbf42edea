import Mathlib.Data.List.Nodup
import Mathlib.Data.List.Perm.Basic
import Mathlib.Order.Lattice

/-! Reading a list page by page when every read sorts it anew: rows of one key may change places
between two reads. The pages together hold every row once, whatever the reads do, exactly when no
page ends between two rows of one key. -/

namespace Paging

variable {α κ : Type*} [LinearOrder κ] {key : α → κ} {limit : Nat} {rows arranged : List α}

/-- The rows with the greatest keys first. -/
def Descending (key : α → κ) (rows : List α) : Prop :=
  rows.Pairwise fun a b => key b ≤ key a

/-- What a read may sort the rows into. -/
structure Arranges (key : α → κ) (rows arranged : List α) : Prop where
  perm : arranged.Perm rows
  descending : Descending key arranged

def page (limit : Nat) (rows : List α) (number : Nat) : List α :=
  (rows.drop (number * limit)).take limit

/-- No page ends between two rows of one key. -/
def Uncut (key : α → κ) (limit : Nat) (rows : List α) : Prop :=
  ∀ number a b, rows[(number + 1) * limit - 1]? = some a → rows[(number + 1) * limit]? = some b →
    key b < key a

theorem take_append_page (number : Nat) :
    rows.take (number * limit) ++ page limit rows number = rows.take ((number + 1) * limit) := by
  rw [page, Nat.succ_mul, List.take_add]

theorem flatMap_page (pages : Nat) :
    (List.range pages).flatMap (page limit rows) = rows.take (pages * limit) := by
  induction pages with
  | zero => simp
  | succ pages ih => rw [List.range_succ, List.flatMap_append, ih, ← take_append_page]; simp

theorem Descending.le (hRows : Descending key rows) {i j : Nat} (hLe : i ≤ j)
    (hj : j < rows.length) : key rows[j] ≤ key rows[i] := by
  rcases Nat.eq_or_lt_of_le hLe with rfl | hLt
  · exact le_rfl
  · exact List.pairwise_iff_getElem.mp hRows i j (by omega) hj hLt

/-- The rows before a place where the key falls are those of greater keys. -/
theorem take_eq_filter (hRows : Descending key rows) {place : Nat}
    (hPlace : place + 1 < rows.length) (hFalls : key rows[place + 1] < key rows[place]) :
    rows.take (place + 1) = rows.filter fun row => key rows[place + 1] < key row := by
  have hBefore : (rows.take (place + 1)).filter (fun row => key rows[place + 1] < key row) =
      rows.take (place + 1) := by
    refine List.filter_eq_self.mpr fun row hRow => ?_
    obtain ⟨i, hi, rfl⟩ := List.mem_iff_getElem.mp hRow
    rw [List.length_take] at hi
    rw [List.getElem_take, decide_eq_true_iff]
    exact hFalls.trans_le (hRows.le (by omega) _)
  have hAfter : (rows.drop (place + 1)).filter (fun row => key rows[place + 1] < key row) = [] := by
    refine List.filter_eq_nil_iff.mpr fun row hRow => ?_
    obtain ⟨i, hi, rfl⟩ := List.mem_iff_getElem.mp hRow
    rw [List.length_drop] at hi
    rw [List.getElem_drop, decide_eq_true_iff, not_lt]
    exact hRows.le (by omega) _
  generalize key rows[place + 1] = bound at hBefore hAfter ⊢
  conv_rhs => rw [← List.take_append_drop (place + 1) rows]
  rw [List.filter_append, hBefore, hAfter, List.append_nil]

/-- Reads agree on the keys. -/
theorem Arranges.map_key (h : Arranges key rows arranged) (hRows : Descending key rows) :
    arranged.map key = rows.map key :=
  (h.perm.map key).eq_of_pairwise (fun _ _ _ _ hLe hGe => le_antisymm hGe hLe)
    (List.pairwise_map.mpr h.descending) (List.pairwise_map.mpr hRows)

/-- Before the end of a page every read has the same rows. -/
theorem take_perm (hRows : Descending key rows) (hUncut : Uncut key limit rows)
    (hArranged : Arranges key rows arranged) (number : Nat) :
    (arranged.take (number * limit)).Perm (rows.take (number * limit)) := by
  have hLength := hArranged.perm.length_eq
  rcases Nat.eq_zero_or_pos (number * limit) with hZero | hPos
  · simp [hZero]
  · rcases Nat.lt_or_ge (number * limit) rows.length with hInside | hAll
    · obtain ⟨place, hPlace⟩ : ∃ place, number * limit = place + 1 :=
        Nat.exists_eq_succ_of_ne_zero (by omega)
      obtain ⟨before, rfl⟩ : ∃ before, number = before + 1 :=
        Nat.exists_eq_succ_of_ne_zero (by rintro rfl; simp at hPos)
      rw [hPlace] at hInside ⊢
      have hFalls : key rows[place + 1] < key rows[place] :=
        hUncut before _ _ (by simp [hPlace]) (by simp [hPlace])
      have hKeys := hArranged.map_key hRows
      have hKey : ∀ i (hi : i < rows.length), key arranged[i] = key rows[i] := by
        intro i hi
        have hAt := congrArg (fun keys => keys[i]?) hKeys
        simpa [hi, hLength] using hAt
      rw [take_eq_filter hRows hInside hFalls,
        take_eq_filter hArranged.descending (by omega) (by rwa [hKey, hKey]), hKey]
      exact hArranged.perm.filter _
    · rw [List.take_of_length_le hAll, List.take_of_length_le (by omega)]
      exact hArranged.perm

theorem page_perm (hRows : Descending key rows) (hUncut : Uncut key limit rows)
    (hArranged : Arranges key rows arranged) (number : Nat) :
    (page limit arranged number).Perm (page limit rows number) := by
  have hBoth := take_perm hRows hUncut hArranged (number + 1)
  rw [← take_append_page, ← take_append_page] at hBoth
  have hFirst := take_perm hRows hUncut hArranged number
  exact (List.perm_append_left_iff _).mp (hBoth.trans (hFirst.symm.append_right _))

theorem pages_perm (hRows : Descending key rows) (hUncut : Uncut key limit rows) {pages : Nat}
    (hPages : rows.length ≤ pages * limit) {reads : Nat → List α}
    (hReads : ∀ number, Arranges key rows (reads number)) :
    ((List.range pages).flatMap fun number => page limit (reads number) number).Perm rows := by
  have hEach : ((List.range pages).flatMap fun number => page limit (reads number) number).Perm
      ((List.range pages).flatMap (page limit rows)) :=
    List.Perm.flatMap_left _ fun number _ => page_perm hRows hUncut (hReads number) number
  rwa [flatMap_page, List.take_of_length_le hPages] at hEach

/-! ### A page that ends between two rows of one key -/

theorem mem_page {a : α} {number place : Nat} (hAt : rows[place]? = some a)
    (hFrom : number * limit ≤ place) (hTo : place < (number + 1) * limit) :
    a ∈ page limit rows number := by
  rw [Nat.succ_mul] at hTo
  refine List.mem_of_getElem? (i := place - number * limit) ?_
  rw [page, List.getElem?_take_of_lt (by omega), List.getElem?_drop, Nat.add_sub_cancel' hFrom, hAt]

/-- The two rows may change places, so one of them comes on both pages. -/
theorem exists_repeated (hRows : Descending key rows) {pages : Nat}
    (hPages : rows.length ≤ pages * limit) (hLimit : 0 < limit) (hCut : ¬ Uncut key limit rows) :
    ∃ reads : Nat → List α, (∀ number, Arranges key rows (reads number)) ∧
      ¬ ((List.range pages).flatMap fun number => page limit (reads number) number).Nodup := by
  simp only [Uncut, not_forall, not_lt] at hCut
  obtain ⟨number, a, b, ha, hb, hLe⟩ := hCut
  have hEnd : (number + 1) * limit = number * limit + limit := Nat.succ_mul number limit
  obtain ⟨place, hPlace⟩ : ∃ place, (number + 1) * limit = place + 1 :=
    Nat.exists_eq_succ_of_ne_zero
      (Nat.mul_ne_zero (Nat.succ_ne_zero _) (Nat.pos_iff_ne_zero.mp hLimit))
  rw [hPlace] at ha hb
  obtain ⟨hInside, rfl⟩ := List.getElem?_eq_some_iff.mp hb
  obtain ⟨_, rfl⟩ := List.getElem?_eq_some_iff.mp ha
  have hKeys : key rows[place + 1] = key rows[place] := le_antisymm (hRows.le (by omega) _) hLe
  -- the read in which the last row of the page and the next one have changed places
  let swapped := rows.take place ++ rows[place + 1] :: rows[place] :: rows.drop (place + 2)
  have hSplit : rows =
      rows.take place ++ rows[place] :: rows[place + 1] :: rows.drop (place + 2) := by
    rw [← List.drop_eq_getElem_cons, ← List.drop_eq_getElem_cons, List.take_append_drop]
  have hPerm : swapped.Perm rows := by
    conv_rhs => rw [hSplit]
    exact (List.Perm.swap _ _ _).append_left _
  have hSame : swapped.map key = rows.map key := by
    calc
      swapped.map key =
          (rows.take place ++ rows[place] :: rows[place + 1] :: rows.drop (place + 2)).map key := by
        simp only [swapped, List.map_append, List.map_cons, hKeys]
      _ = rows.map key := by rw [← hSplit]
  have hSwapped : Arranges key rows swapped := by
    refine ⟨hPerm, ?_⟩
    have hKeysDescend : (rows.map key).Pairwise fun k k' => k' ≤ k := List.pairwise_map.mpr hRows
    rw [← hSame] at hKeysDescend
    exact List.pairwise_map.mp hKeysDescend
  refine ⟨fun page => if page = number + 1 then swapped else rows, fun page => ?_, fun hNodup => ?_⟩
  · dsimp only
    split
    · exact hSwapped
    · exact ⟨.refl _, hRows⟩
  · have hNumber : number + 1 < pages := by
      by_contra hNot
      have hFew := Nat.mul_le_mul_right limit (Nat.le_of_not_lt hNot)
      omega
    have hApart := (List.nodup_flatMap.mp hNodup).2
    have hTwice := List.pairwise_iff_getElem.mp hApart number (number + 1) (by simpa using by omega)
      (by simpa) (Nat.lt_succ_self _)
    simp only [List.getElem_range, Function.onFun] at hTwice
    refine hTwice (a := rows[place]) ?_ ?_
    · rw [if_neg (by omega)]
      exact mem_page (List.getElem?_eq_getElem (by omega)) (by omega) (by omega)
    · rw [if_pos trivial]
      have hAt : swapped[place + 1]? = some rows[place] := by
        have hLength : (rows.take place).length = place := List.length_take_of_le (by omega)
        rw [List.getElem?_append_right (by omega), hLength, Nat.add_sub_cancel_left]
        rfl
      exact mem_page hAt (by omega) (by rw [Nat.succ_mul]; omega)

end Paging
