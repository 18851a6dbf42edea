import Mathlib.Algebra.GroupWithZero.Nat
import Mathlib.Data.List.Basic

/-! The string operations the source takes from its language: trimming with the
language's own white space, and lengths counted in UTF-16 code units. -/

namespace Text

/-- White space and line terminators, as `String.prototype.trim` removes them. -/
def isWhiteSpace (c : Char) : Bool :=
  c.val == 0x9 || c.val == 0xA || c.val == 0xB || c.val == 0xC || c.val == 0xD || c.val == 0x20 ||
  c.val == 0xA0 || c.val == 0x1680 || (0x2000 ≤ c.val && c.val ≤ 0x200A) || c.val == 0x2028 ||
  c.val == 0x2029 || c.val == 0x202F || c.val == 0x205F || c.val == 0x3000 || c.val == 0xFEFF

def trim (s : String) : String :=
  String.ofList ((s.toList.dropWhile isWhiteSpace).reverse.dropWhile isWhiteSpace).reverse

def utf16Length (s : String) : Nat :=
  (s.toList.map fun c => if c.val > 0xFFFF then 2 else 1).sum

/-- `isNonEmptyText` of the cash guards, on a string that is present. -/
def isNonEmptyText (s : String) : Bool :=
  trim s != ""

/-- Dropping twice what satisfies `p` drops nothing more. -/
private theorem dropWhile_dropWhile {α : Type*} (p : α → Bool) (xs : List α) :
    (xs.dropWhile p).dropWhile p = xs.dropWhile p := by
  induction xs with
  | nil => rfl
  | cons x rest ih =>
      cases hx : p x with
      | true => simpa [List.dropWhile_cons, hx] using ih
      | false => simp [hx]

/-- What is left after trimming the front of a list still starts with a kept
element once its end is trimmed too. -/
private theorem dropWhile_reverse_dropWhile {α : Type*} (p : α → Bool) (xs : List α)
    (hxs : xs.dropWhile p = xs) :
    (xs.reverse.dropWhile p).reverse.dropWhile p = (xs.reverse.dropWhile p).reverse := by
  cases xs with
  | nil => rfl
  | cons x rest =>
      have hx : p x = false := by
        cases hp : p x with
        | false => rfl
        | true =>
            have hlen := congrArg List.length hxs
            have hle := (List.dropWhile_suffix p (l := rest)).length_le
            simp only [List.dropWhile_cons, hp, if_true, List.length_cons] at hlen
            omega
      have hsplit : ∃ middle, (x :: rest).reverse.dropWhile p = middle ++ [x] := by
        rw [List.reverse_cons, List.dropWhile_append]
        split
        · exact ⟨[], by simp [hx]⟩
        · exact ⟨_, rfl⟩
      obtain ⟨middle, hMiddle⟩ := hsplit
      rw [hMiddle]
      simp [hx]

/-- A stored name is trimmed once: trimming it again when it is read changes nothing. -/
theorem trim_trim (s : String) : trim (trim s) = trim s := by
  unfold trim
  simp only [String.toList_ofList]
  have hFront := dropWhile_dropWhile isWhiteSpace s.toList
  rw [dropWhile_reverse_dropWhile isWhiteSpace _ hFront]
  rw [List.reverse_reverse, dropWhile_dropWhile]

/-! ### Runs of white space -/

/-- White space in a run is one space; within a run the space is already there. -/
def collapseFrom : Bool → List Char → List Char
  | _, [] => []
  | inRun, c :: rest =>
      if isWhiteSpace c then
        if inRun then collapseFrom true rest else ' ' :: collapseFrom true rest
      else c :: collapseFrom false rest

/-- `replace(/\s+/gu, ' ')`. -/
def collapse (value : String) : String :=
  String.ofList (collapseFrom false value.toList)

end Text
