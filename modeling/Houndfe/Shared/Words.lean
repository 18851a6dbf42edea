import Houndfe.Shared.Text
import Mathlib.Data.List.DropRight

/-! Texts as the language compares them, and the words of a text: collapsing the white space and
trimming leaves the words with single spaces between them. -/

namespace Text

/-! ### Code units -/

/-- The code units of a character in UTF-16. -/
def codeUnits (c : Char) : List Nat :=
  if c.toNat ≤ 0xFFFF then [c.toNat]
  else [0xD800 + (c.toNat - 0x10000) / 0x400, 0xDC00 + (c.toNat - 0x10000) % 0x400]

/-- What the comparison of two texts compares. -/
def units (s : String) : List Nat :=
  s.toList.flatMap codeUnits

theorem codeUnits_unique {c d : Char} {rest rest' : List Nat}
    (h : codeUnits c ++ rest = codeUnits d ++ rest') : c = d ∧ rest = rest' := by
  have hScalar : ∀ c : Char, c.toNat < 0xD800 ∨ 0xDFFF < c.toNat ∧ c.toNat < 0x110000 :=
    fun c => c.valid
  have hSame : c.toNat = d.toNat ∧ rest = rest' := by
    have hLeft := hScalar c
    have hRight := hScalar d
    unfold codeUnits at h
    split at h <;> split at h <;>
      simp only [List.cons_append, List.nil_append, List.cons.injEq] at h
    · exact h
    · omega
    · omega
    · exact ⟨by omega, h.2.2⟩
  exact ⟨Char.toNat_inj.mp hSame.1, hSame.2⟩

theorem units_injective : Function.Injective units := by
  intro s t h
  have hList : ∀ cs ds : List Char, cs.flatMap codeUnits = ds.flatMap codeUnits → cs = ds := by
    have hSome : ∀ (c : Char) (cs : List Char), (c :: cs).flatMap codeUnits ≠ [] := by
      intro c cs
      rw [List.flatMap_cons, codeUnits]
      split <;> simp
    intro cs
    induction cs with
    | nil =>
        intro ds h
        cases ds with
        | nil => rfl
        | cons d ds => exact absurd h.symm (hSome d ds)
    | cons c cs ih =>
        intro ds h
        cases ds with
        | nil => exact absurd h (hSome c cs)
        | cons d ds =>
            rw [List.flatMap_cons, List.flatMap_cons] at h
            obtain ⟨rfl, hRest⟩ := codeUnits_unique h
            rw [ih ds hRest]
  exact String.toList_inj.mp (hList _ _ h)

/-! ### Words -/

/-- A letter before a text: it starts a word, or goes on the first one. -/
def extend (c : Char) : List Char → List (List Char) → List (List Char)
  | d :: _, word :: others => if isWhiteSpace d then [c] :: word :: others else (c :: word) :: others
  | _, others => [c] :: others

/-- The words between the white space. -/
def words : List Char → List (List Char)
  | [] => []
  | c :: rest => if isWhiteSpace c then words rest else extend c rest (words rest)

theorem words_of_white {cs : List Char} (hWhite : ∀ c ∈ cs, isWhiteSpace c = true) :
    words cs = [] := by
  induction cs with
  | nil => rfl
  | cons c rest ih =>
      rw [words, if_pos (hWhite c List.mem_cons_self)]
      exact ih fun d hIn => hWhite d (List.mem_cons_of_mem _ hIn)

theorem words_append_of_white {before after : List Char}
    (hWhite : ∀ c ∈ before, isWhiteSpace c = true) : words (before ++ after) = words after := by
  induction before with
  | nil => rfl
  | cons c rest ih =>
      rw [List.cons_append, words, if_pos (hWhite c List.mem_cons_self)]
      exact ih fun d hIn => hWhite d (List.mem_cons_of_mem _ hIn)

theorem words_append_white {before after : List Char}
    (hWhite : ∀ c ∈ after, isWhiteSpace c = true) : words (before ++ after) = words before := by
  induction before with
  | nil => exact words_of_white hWhite
  | cons c rest ih =>
      rw [List.cons_append, words, words, ih]
      cases rest with
      | nil => cases after <;> rfl
      | cons d others => cases words (d :: others) <;> rfl

theorem ne_nil_of_mem_words {cs word : List Char} (hWord : word ∈ words cs) : word ≠ [] := by
  induction cs with
  | nil => cases hWord
  | cons c rest ih =>
      rw [words, extend.eq_def] at hWord
      split at hWord
      · exact ih hWord
      · split at hWord
        · split at hWord <;> grind
        · grind

theorem words_ne_nil {c : Char} {rest : List Char} (hLetter : isWhiteSpace c = false) :
    words (c :: rest) ≠ [] := by
  rw [words, if_neg (by simp [hLetter]), extend.eq_def]
  split
  · split <;> simp
  · simp

/-- Dropped at the end: what is kept stops it. -/
theorem rdropWhile_cons (c : Char) (cs : List Char) :
    (c :: cs).rdropWhile isWhiteSpace =
      if isWhiteSpace c = true ∧ cs.rdropWhile isWhiteSpace = [] then []
      else c :: cs.rdropWhile isWhiteSpace := by
  rw [List.rdropWhile, List.reverse_cons, List.dropWhile_append, List.rdropWhile]
  cases hRest : cs.reverse.dropWhile isWhiteSpace with
  | nil => cases hSpace : isWhiteSpace c <;> simp [hSpace]
  | cons d others => simp

theorem intercalate_cons (word next : List Char) (others : List (List Char)) :
    [' '].intercalate (word :: next :: others) =
      word ++ ' ' :: [' '].intercalate (next :: others) := by
  simp [List.intercalate]

/-- Single spaces between the words: within a run, and trimmed at the end. -/
theorem rdropWhile_collapseFrom (cs : List Char) :
    (collapseFrom true cs).rdropWhile isWhiteSpace = [' '].intercalate (words cs) := by
  induction cs with
  | nil => rfl
  | cons c rest ih =>
      rw [collapseFrom, words]
      cases hSpace : isWhiteSpace c with
      | true => simpa using ih
      | false =>
          simp only [Bool.false_eq_true, if_false, rdropWhile_cons, hSpace, false_and]
          cases rest with
          | nil => rfl
          | cons d others =>
              cases hNext : isWhiteSpace d with
              | true =>
                  have hSame : collapseFrom false (d :: others) =
                      ' ' :: collapseFrom true (d :: others) := by
                    simp [collapseFrom, hNext]
                  rw [hSame, rdropWhile_cons, ih]
                  cases hWords : words (d :: others) with
                  | nil => simp [extend]; decide
                  | cons word others =>
                      have hWord : word ≠ [] := ne_nil_of_mem_words (hWords ▸ List.mem_cons_self)
                      have hFull : [' '].intercalate (word :: others) ≠ [] := by
                        cases others <;> simp [hWord]
                      rw [if_neg fun h => hFull h.2, extend, if_pos hNext, intercalate_cons]
                      rfl
              | false =>
                  have hSame : collapseFrom false (d :: others) =
                      collapseFrom true (d :: others) := by
                    simp [collapseFrom, hNext]
                  rw [hSame, ih]
                  cases hWords : words (d :: others) with
                  | nil => exact absurd hWords (words_ne_nil hNext)
                  | cons word others =>
                      rw [extend, if_neg (by simp [hNext])]
                      cases others <;> simp

theorem dropWhile_collapseFrom (inRun : Bool) (cs : List Char) :
    (collapseFrom inRun cs).dropWhile isWhiteSpace = collapseFrom true cs := by
  induction cs generalizing inRun with
  | nil => rfl
  | cons c rest ih =>
      rw [collapseFrom, collapseFrom]
      cases hSpace : isWhiteSpace c with
      | true =>
          cases inRun with
          | true => simpa using ih true
          | false => simpa [show isWhiteSpace ' ' = true from rfl] using ih true
      | false => simp [hSpace]

/-- What is trimmed is white space. -/
theorem trim_split (s : String) : ∃ before after : List Char,
    (∀ c ∈ before, isWhiteSpace c = true) ∧ (∀ c ∈ after, isWhiteSpace c = true) ∧
      s.toList = before ++ ((trim s).toList ++ after) := by
  refine ⟨s.toList.takeWhile isWhiteSpace,
    ((s.toList.dropWhile isWhiteSpace).reverse.takeWhile isWhiteSpace).reverse,
    fun c hIn => List.mem_takeWhile_imp hIn,
    fun c hIn => List.mem_takeWhile_imp (List.mem_reverse.mp hIn), ?_⟩
  rw [trim, String.toList_ofList, ← List.reverse_append, List.takeWhile_append_dropWhile,
    List.reverse_reverse, List.takeWhile_append_dropWhile]

/-- Trimming keeps the words, also of what stands for the characters. -/
theorem words_flatMap_trim {base : Char → List Char}
    (hBase : ∀ c, isWhiteSpace c = true → ∀ d ∈ base c, isWhiteSpace d = true) (s : String) :
    words ((trim s).toList.flatMap base) = words (s.toList.flatMap base) := by
  obtain ⟨before, after, hBefore, hAfter, hSplit⟩ := trim_split s
  have hWhite : ∀ {cs : List Char}, (∀ c ∈ cs, isWhiteSpace c = true) →
      ∀ d ∈ cs.flatMap base, isWhiteSpace d = true := by
    intro cs hAll d hIn
    obtain ⟨c, hThere, hBased⟩ := List.mem_flatMap.mp hIn
    exact hBase c (hAll c hThere) d hBased
  rw [hSplit, List.flatMap_append, List.flatMap_append, words_append_of_white (hWhite hBefore),
    words_append_white (hWhite hAfter)]

/-- Collapsing and trimming leaves the words with single spaces between them. -/
theorem trim_collapse (s : String) :
    trim (collapse s) = String.ofList ([' '].intercalate (words s.toList)) := by
  rw [trim, collapse, String.toList_ofList, dropWhile_collapseFrom, ← rdropWhile_collapseFrom]
  rfl

end Text
