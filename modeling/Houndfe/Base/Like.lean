import Mathlib.Data.List.Infix

/-! The pattern matching of `LIKE`: a pattern of escaped text between two wildcards looks for the
text itself, also where both sides are folded to one case first. -/

namespace Like

/-- The escape character and the two wildcards. -/
def wildcards : List Char := ['\\', '%', '_']

/-- Whether the text matches the pattern, the first character of which may be escaped. A pattern
that ends with an escape character is an error of the database. -/
def matchesFrom : Bool → List Char → List Char → Bool
  | escaped, [], text => !escaped && text.isEmpty
  | true, c :: pattern, text =>
      match text with
      | [] => false
      | d :: rest => c = d && matchesFrom false pattern rest
  | false, c :: pattern, text =>
      if c = '\\' then matchesFrom true pattern text
      else if c = '%' then text.tails.any (matchesFrom false pattern)
      else match text with
        | [] => false
        | d :: rest => (c = '_' || c = d) && matchesFrom false pattern rest

def matchesText : List Char → List Char → Bool :=
  matchesFrom false

def escapeChar (c : Char) : List Char :=
  if wildcards.contains c then ['\\', c] else [c]

/-- Every special character with the escape character before it. -/
def escape (term : List Char) : List Char :=
  term.flatMap escapeChar

variable {c : Char} {term pattern text : List Char}

/-- An escaped character matches itself alone. -/
theorem matchesText_escapeChar : matchesText (escapeChar c ++ pattern) text = true ↔
    ∃ rest, text = c :: rest ∧ matchesText pattern rest = true := by
  unfold escapeChar matchesText
  cases text with
  | nil =>
      split
      · simp [matchesFrom]
      · next hPlain =>
          have hNot : c ≠ '\\' ∧ c ≠ '%' := by
            constructor <;> rintro rfl <;> simp [wildcards] at hPlain
          simp [matchesFrom, hNot]
  | cons d text =>
      split
      · simp [matchesFrom, @eq_comm _ d c]
      · next hPlain =>
          have hNot : c ≠ '\\' ∧ c ≠ '%' ∧ c ≠ '_' := by
            refine ⟨?_, ?_, ?_⟩ <;> rintro rfl <;> simp [wildcards] at hPlain
          simp [matchesFrom, hNot, @eq_comm _ d c]

theorem matchesText_escape : matchesText (escape term ++ pattern) text = true ↔
    ∃ rest, text = term ++ rest ∧ matchesText pattern rest = true := by
  induction term generalizing text with
  | nil => simp [escape]
  | cons c term ih =>
      have hTail : escape (c :: term) ++ pattern = escapeChar c ++ (escape term ++ pattern) := by
        simp [escape]
      rw [hTail, matchesText_escapeChar]
      simp only [ih]
      constructor
      · rintro ⟨_, rfl, rest, rfl, hMatches⟩
        exact ⟨rest, rfl, hMatches⟩
      · rintro ⟨rest, rfl, hMatches⟩
        exact ⟨term ++ rest, rfl, rest, rfl, hMatches⟩

theorem matchesText_percent : matchesText ('%' :: pattern) text = true ↔
    ∃ before rest, text = before ++ rest ∧ matchesText pattern rest = true := by
  have hAny : matchesText ('%' :: pattern) text = text.tails.any (matchesText pattern) := by
    simp [matchesText, matchesFrom]
  rw [hAny, List.any_eq_true]
  simp only [List.mem_tails]
  constructor
  · rintro ⟨rest, ⟨before, rfl⟩, hMatches⟩
    exact ⟨before, rest, rfl, hMatches⟩
  · rintro ⟨before, rest, rfl, hMatches⟩
    exact ⟨rest, ⟨before, rfl⟩, hMatches⟩

/-- `'%' || term || '%'` with its special characters escaped looks for the term. -/
theorem matchesText_contains : matchesText ('%' :: (escape term ++ ['%'])) text = true ↔
    term <:+: text := by
  rw [matchesText_percent]
  simp only [matchesText_escape]
  constructor
  · rintro ⟨before, _, rfl, rest, rfl, _⟩
    exact ⟨before, rest, by simp⟩
  · rintro ⟨before, rest, rfl⟩
    refine ⟨before, term ++ rest, by simp, rest, rfl, ?_⟩
    exact matchesText_percent.mpr ⟨rest, [], by simp, rfl⟩

/-- A folding of case leaves the special characters alone. -/
structure Folding (fold : Char → List Char) : Prop where
  special : ∀ c ∈ wildcards, fold c = [c]
  plain : ∀ c, c ∉ wildcards → ∀ d ∈ fold c, d ∉ wildcards

variable {fold : Char → List Char}

theorem Folding.flatMap_escape (h : Folding fold) :
    (escape term).flatMap fold = escape (term.flatMap fold) := by
  induction term with
  | nil => rfl
  | cons c term ih =>
      have hFirst : (escapeChar c).flatMap fold = escape (fold c) := by
        unfold escapeChar
        split
        · next hSpecial =>
            have hMem : c ∈ wildcards := by simpa using hSpecial
            simp [h.special c hMem, h.special '\\' (by decide), escape, escapeChar, hMem]
        · next hPlain =>
            have hNot : c ∉ wildcards := by simpa using hPlain
            have hSame : escape (fold c) = (fold c).flatMap fun d => [d] :=
              List.flatMap_congr fun d hMem => by simp [escapeChar, h.plain c hNot d hMem]
            rw [hSame]
            simp
      have hCons : escape (c :: term) = escapeChar c ++ escape term := rfl
      rw [hCons, List.flatMap_append, hFirst, ih, List.flatMap_cons]
      simp [escape]

end Like
