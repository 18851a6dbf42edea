import Mathlib.Data.List.Sort
import Mathlib.Data.String.Basic

/-! JSON documents and the text that stands for them. Two documents are the same when they
differ in the order of the keys of their objects only; sorting the keys gives one document for
each of these classes. The text of a document, as `JSON.stringify` writes it, determines the
document. -/

/-- A JSON document whose numbers are whole. An entry of an object that is undefined is one
that is not there. -/
inductive Json where
  | null
  | bool (value : Bool)
  | number (value : Int)
  | string (value : String)
  | array (elements : List Json)
  | object (entries : List (String × Json))

namespace Json

/-! ### Equality up to the order of keys -/

/-- Equal up to the order of the keys, in the objects at any depth. -/
inductive Same : Json → Json → Prop where
  | refl (value : Json) : Same value value
  | trans {first second third : Json} : Same first second → Same second third → Same first third
  | reorder {entries entries' : List (String × Json)} :
      entries.Perm entries' → Same (.object entries) (.object entries')
  | element (before after : List Json) {value value' : Json} : Same value value' →
      Same (.array (before ++ value :: after)) (.array (before ++ value' :: after))
  | entry (before after : List (String × Json)) (key : String) {value value' : Json} :
      Same value value' →
      Same (.object (before ++ (key, value) :: after)) (.object (before ++ (key, value') :: after))

theorem Same.symm {first second : Json} (h : Same first second) : Same second first := by
  induction h with
  | refl value => exact .refl value
  | trans _ _ ih ih' => exact .trans ih' ih
  | reorder h => exact .reorder h.symm
  | element before after _ ih => exact .element before after ih
  | entry before after key _ ih => exact .entry before after key ih

/-! ### The canonical form -/

/-- Entries in the order of their keys. -/
def byKey : List (String × Json) → List (String × Json) :=
  List.insertionSort fun left right => left.1 ≤ right.1

mutual

/-- The same document with the keys of every object sorted. -/
def canonicalize : Json → Json
  | .array elements => .array (canonicalizeElements elements)
  | .object entries => .object (byKey (canonicalizeEntries entries))
  | .null => .null
  | .bool value => .bool value
  | .number value => .number value
  | .string value => .string value

def canonicalizeElements : List Json → List Json
  | [] => []
  | element :: rest => element.canonicalize :: canonicalizeElements rest

def canonicalizeEntries : List (String × Json) → List (String × Json)
  | [] => []
  | (key, value) :: rest => (key, value.canonicalize) :: canonicalizeEntries rest

end

mutual

/-- No object holds a key twice. -/
def Wellformed : Json → Prop
  | .array elements => WellformedElements elements
  | .object entries => (entries.map Prod.fst).Nodup ∧ WellformedEntries entries
  | .null => True
  | .bool _ => True
  | .number _ => True
  | .string _ => True

def WellformedElements : List Json → Prop
  | [] => True
  | element :: rest => element.Wellformed ∧ WellformedElements rest

def WellformedEntries : List (String × Json) → Prop
  | [] => True
  | (_, value) :: rest => value.Wellformed ∧ WellformedEntries rest

end

theorem wellformedElements_iff (elements : List Json) :
    WellformedElements elements ↔ ∀ element ∈ elements, element.Wellformed := by
  induction elements with
  | nil => simp [WellformedElements]
  | cons element rest ih => simp [WellformedElements, ih]

theorem wellformedEntries_iff (entries : List (String × Json)) :
    WellformedEntries entries ↔ ∀ entry ∈ entries, entry.2.Wellformed := by
  induction entries with
  | nil => simp [WellformedEntries]
  | cons entry rest ih => simp [WellformedEntries, ih]

theorem canonicalizeElements_eq (elements : List Json) :
    canonicalizeElements elements = elements.map canonicalize := by
  induction elements with
  | nil => rfl
  | cons element rest ih => simp [canonicalizeElements, ih]

theorem canonicalizeEntries_eq (entries : List (String × Json)) :
    canonicalizeEntries entries = entries.map fun entry => (entry.1, entry.2.canonicalize) := by
  induction entries with
  | nil => rfl
  | cons entry rest ih => simp [canonicalizeEntries, ih]

theorem byKey_perm (entries : List (String × Json)) : (byKey entries).Perm entries :=
  List.perm_insertionSort _ entries

/-- Entries with distinct keys have one order by key. -/
theorem byKey_eq_of_perm {entries entries' : List (String × Json)}
    (hDistinct : (entries.map Prod.fst).Nodup) (h : entries.Perm entries') :
    byKey entries = byKey entries' := by
  have hTotal : Std.Total fun left right : String × Json => left.1 ≤ right.1 :=
    ⟨fun left right => le_total _ _⟩
  have hTrans : IsTrans (String × Json) fun left right => left.1 ≤ right.1 :=
    ⟨fun _ _ _ h h' => le_trans h h'⟩
  have hSame : (byKey entries).Perm (byKey entries') :=
    (byKey_perm entries).trans (h.trans (byKey_perm entries').symm)
  refine hSame.eq_of_pairwise (fun left right hLeft hRight hLe hGe => ?_)
    (List.pairwise_insertionSort _ entries) (List.pairwise_insertionSort _ entries')
  have hMem : right ∈ entries :=
    h.mem_iff.mpr ((byKey_perm entries').mem_iff.mp hRight)
  exact List.inj_on_of_nodup_map hDistinct ((byKey_perm entries).mem_iff.mp hLeft) hMem
    (le_antisymm hLe hGe)

theorem map_fst_canonicalize (entries : List (String × Json)) :
    (entries.map fun entry => (entry.1, entry.2.canonicalize)).map Prod.fst =
      entries.map Prod.fst := by
  simp [Function.comp_def]

/-- Documents that are the same are well formed together. -/
theorem Same.wellformed_iff {first second : Json} (h : Same first second) :
    first.Wellformed ↔ second.Wellformed := by
  induction h with
  | refl value => rfl
  | trans _ _ ih ih' => exact ih.trans ih'
  | reorder h =>
      simp only [Wellformed, wellformedEntries_iff, (h.map Prod.fst).nodup_iff, h.mem_iff]
  | element before after _ ih =>
      simp only [Wellformed, wellformedElements_iff, List.forall_mem_append,
        List.forall_mem_cons, ih]
  | entry before after key _ ih =>
      simp only [Wellformed, wellformedEntries_iff, List.forall_mem_append,
        List.forall_mem_cons, ih, List.map_append, List.map_cons]

/-- Sorting the keys forgets their order. -/
theorem Same.canonicalize_eq {first second : Json} (h : Same first second)
    (hFirst : first.Wellformed) : first.canonicalize = second.canonicalize := by
  induction h with
  | refl value => rfl
  | trans h _ ih ih' => exact (ih hFirst).trans (ih' (h.wellformed_iff.mp hFirst))
  | @reorder entries entries' h =>
      simp only [canonicalize, canonicalizeEntries_eq]
      exact congrArg Json.object (byKey_eq_of_perm
        ((map_fst_canonicalize entries).symm ▸ hFirst.1) (h.map _))
  | element before after _ ih =>
      simp only [Wellformed, wellformedElements_iff, List.forall_mem_append,
        List.forall_mem_cons] at hFirst
      simp only [canonicalize, canonicalizeElements_eq, List.map_append, List.map_cons,
        ih hFirst.2.1]
  | entry before after key _ ih =>
      simp only [Wellformed, wellformedEntries_iff, List.forall_mem_append,
        List.forall_mem_cons] at hFirst
      simp only [canonicalize, canonicalizeEntries_eq, List.map_append, List.map_cons,
        ih hFirst.2.2.1]

mutual

theorem same_canonicalize : ∀ value : Json, Same value value.canonicalize
  | .array elements => by
      simpa [canonicalize] using same_canonicalizeElements [] elements
  | .object entries => by
      refine .trans ?_ (.reorder (byKey_perm _).symm)
      simpa using same_canonicalizeEntries [] entries
  | .null => .refl _
  | .bool _ => .refl _
  | .number _ => .refl _
  | .string _ => .refl _

theorem same_canonicalizeElements (before : List Json) : ∀ elements : List Json,
    Same (.array (before ++ elements)) (.array (before ++ canonicalizeElements elements))
  | [] => .refl _
  | element :: rest => by
      refine .trans (.element before rest (same_canonicalize element)) ?_
      simpa [canonicalizeElements] using
        same_canonicalizeElements (before ++ [element.canonicalize]) rest

theorem same_canonicalizeEntries (before : List (String × Json)) :
    ∀ entries : List (String × Json),
    Same (.object (before ++ entries)) (.object (before ++ canonicalizeEntries entries))
  | [] => .refl _
  | (key, value) :: rest => by
      refine .trans (.entry before rest key (same_canonicalize value)) ?_
      simpa [canonicalizeEntries] using
        same_canonicalizeEntries (before ++ [(key, value.canonicalize)]) rest

end

/-- One canonical form for each class of documents that are the same. -/
theorem canonicalize_eq_iff {first second : Json} (hFirst : first.Wellformed) :
    first.canonicalize = second.canonicalize ↔ Same first second := by
  constructor
  · intro h
    exact .trans (same_canonicalize first) (h ▸ (same_canonicalize second).symm)
  · exact fun h => h.canonicalize_eq hFirst

end Json

/-! ### The text of a document -/

namespace Json

/-! ### Numbers -/

/-- What may follow a number. -/
def Stops (rest : List Char) : Prop :=
  ∀ c ∈ rest.head?, c.isDigit = false

theorem stops_nil : Stops [] := by
  simp [Stops]

theorem stops_cons {c : Char} {rest : List Char} (h : c.isDigit = false) : Stops (c :: rest) := by
  simpa [Stops] using h

def naturalText (n : Nat) : List Char :=
  Nat.toDigits 10 n

def numberText : Int → List Char
  | .ofNat n => naturalText n
  | .negSucc n => '-' :: naturalText (n + 1)

theorem isDigit_of_mem_naturalText {n : Nat} {c : Char} (h : c ∈ naturalText n) :
    c.isDigit = true :=
  Nat.isDigit_of_mem_toDigits (by decide) (by decide) h

theorem takeWhile_naturalText (n : Nat) {rest : List Char} (hRest : Stops rest) :
    (naturalText n ++ rest).takeWhile Char.isDigit = naturalText n := by
  rw [List.takeWhile_append_of_pos fun c hc => isDigit_of_mem_naturalText hc]
  cases rest with
  | nil => simp
  | cons c rest =>
      have hStop : c.isDigit = false := hRest c rfl
      simp [hStop]

theorem naturalText_unique {m n : Nat} {rest rest' : List Char} (hRest : Stops rest)
    (hRest' : Stops rest') (h : naturalText m ++ rest = naturalText n ++ rest') :
    m = n ∧ rest = rest' := by
  have hText : naturalText m = naturalText n := by
    have hTaken := congrArg (List.takeWhile Char.isDigit) h
    rwa [takeWhile_naturalText m hRest, takeWhile_naturalText n hRest'] at hTaken
  have hValue := congrArg (fun text => Nat.ofDigitChars 10 text 0) hText
  simp only [naturalText, Nat.ofDigitChars_ten_toDigits] at hValue
  rw [hText] at h
  exact ⟨hValue, List.append_cancel_left h⟩

/-- A digit, and so not a sign. -/
theorem naturalText_head (n : Nat) : ∃ c rest, naturalText n = c :: rest ∧ c.isDigit = true := by
  cases hText : naturalText n with
  | nil => exact absurd hText Nat.toDigits_ne_nil
  | cons c rest => exact ⟨c, rest, rfl, isDigit_of_mem_naturalText (hText ▸ List.mem_cons_self)⟩

theorem naturalText_ne_sign {n : Nat} {rest rest' : List Char} :
    naturalText n ++ rest ≠ '-' :: rest' := by
  obtain ⟨c, others, hText, hDigit⟩ := naturalText_head n
  rw [hText, List.cons_append]
  intro h
  obtain ⟨rfl, _⟩ := List.cons.inj h
  exact absurd hDigit (by decide)

theorem numberText_unique {m n : Int} {rest rest' : List Char} (hRest : Stops rest)
    (hRest' : Stops rest') (h : numberText m ++ rest = numberText n ++ rest') :
    m = n ∧ rest = rest' := by
  cases m with
  | ofNat m =>
      cases n with
      | ofNat n =>
          obtain ⟨rfl, hSame⟩ := naturalText_unique hRest hRest' h
          exact ⟨rfl, hSame⟩
      | negSucc n => exact absurd h naturalText_ne_sign
  | negSucc m =>
      cases n with
      | ofNat n => exact absurd h.symm naturalText_ne_sign
      | negSucc n =>
          obtain ⟨hValue, hSame⟩ := naturalText_unique hRest hRest' (List.cons.inj h).2
          exact ⟨by rw [Nat.succ.inj hValue], hSame⟩

/-! ### Strings -/

def quote : Char := '\x22'

def backslash : Char := '\x5c'

/-- The characters with an escape of their own, and its second character. -/
def marks : List (Char × Char) :=
  [(quote, quote), (backslash, backslash), ('\x08', 'b'), ('\x0c', 'f'), ('\n', 'n'),
    ('\r', 'r'), ('\t', 't')]

def escaped (c : Char) : List Char :=
  match marks.lookup c with
  | some mark => [backslash, mark]
  | none =>
      -- the other control characters
      if c.toNat < 32 then
        [backslash, 'u', '0', '0', Nat.digitChar (c.toNat / 16), Nat.digitChar (c.toNat % 16)]
      else [c]

def stringText (s : String) : List Char :=
  quote :: (s.toList.flatMap escaped ++ [quote])

/-- The character that an escape of a control character stands for. -/
def controlCharacter (high low : Char) : Option Char :=
  ((List.range 32).map Char.ofNat).find? fun c =>
    Nat.digitChar (c.toNat / 16) = high ∧ Nat.digitChar (c.toNat % 16) = low

/-- The first character that an escaped text stands for. -/
def unescaped : List Char → Option (Char × List Char)
  | [] => none
  | c :: rest =>
      if c = backslash then
        match rest with
        | 'u' :: '0' :: '0' :: high :: low :: rest =>
            (controlCharacter high low).map fun c => (c, rest)
        | mark :: rest =>
            (marks.find? fun pair => pair.2 = mark).map fun pair => (pair.1, rest)
        | [] => none
      else some (c, rest)

theorem mem_marks_of_lookup {c mark : Char} (h : marks.lookup c = some mark) :
    (c, mark) ∈ marks := by
  obtain ⟨before, after, hSplit, _⟩ := List.lookup_eq_some_iff.mp h
  simp [hSplit]

theorem unescaped_mark (rest : List Char) : ∀ pair ∈ marks,
    unescaped ([backslash, pair.2] ++ rest) = some (pair.1, rest) := by
  simp [marks, unescaped, quote, backslash]

theorem controlCharacter_of_lt : ∀ code < 32,
    controlCharacter (Nat.digitChar ((Char.ofNat code).toNat / 16))
      (Nat.digitChar ((Char.ofNat code).toNat % 16)) = some (Char.ofNat code) := by
  decide

theorem unescaped_escaped (c : Char) (rest : List Char) :
    unescaped (escaped c ++ rest) = some (c, rest) := by
  unfold escaped
  split
  · next mark hMark => exact unescaped_mark rest (c, mark) (mem_marks_of_lookup hMark)
  · next hPlain =>
      split
      · next hControl =>
          have hCharacter := controlCharacter_of_lt c.toNat hControl
          rw [Char.ofNat_toNat] at hCharacter
          simp [unescaped, hCharacter]
      · have hNe : c ≠ backslash := by
          rintro rfl
          simp [marks, backslash, quote] at hPlain
        simp [unescaped, hNe]

theorem escaped_head (c : Char) : (escaped c).head? ≠ some quote := by
  unfold escaped
  split
  · simp [backslash, quote]
  · next hPlain =>
      split
      · simp [backslash, quote]
      · rintro h
        obtain rfl := Option.some.inj h
        simp [marks] at hPlain

theorem escaped_unique {c d : Char} {rest rest' : List Char}
    (h : escaped c ++ rest = escaped d ++ rest') : c = d ∧ rest = rest' := by
  have hRead := congrArg unescaped h
  rw [unescaped_escaped, unescaped_escaped] at hRead
  exact Prod.mk.inj (Option.some.inj hRead)

theorem quote_ne_escaped {c : Char} {rest rest' : List Char} :
    quote :: rest ≠ escaped c ++ rest' := by
  intro h
  have hHead := congrArg List.head? h
  cases hText : escaped c with
  | nil =>
      have hRead := unescaped_escaped c []
      simp [hText, unescaped] at hRead
  | cons d others =>
      have hNot := escaped_head c
      rw [hText] at hHead hNot
      exact hNot hHead.symm

theorem characters_unique {cs ds : List Char} {rest rest' : List Char}
    (h : cs.flatMap escaped ++ quote :: rest = ds.flatMap escaped ++ quote :: rest') :
    cs = ds ∧ rest = rest' := by
  induction cs generalizing ds with
  | nil =>
      cases ds with
      | nil => exact ⟨rfl, (List.cons.inj h).2⟩
      | cons d ds =>
          rw [List.flatMap_cons, List.append_assoc] at h
          exact absurd h quote_ne_escaped
  | cons c cs ih =>
      cases ds with
      | nil =>
          rw [List.flatMap_cons, List.append_assoc] at h
          exact absurd h.symm quote_ne_escaped
      | cons d ds =>
          rw [List.flatMap_cons, List.flatMap_cons, List.append_assoc, List.append_assoc] at h
          obtain ⟨rfl, hRest⟩ := escaped_unique h
          obtain ⟨rfl, hSame⟩ := ih hRest
          exact ⟨rfl, hSame⟩

theorem stringText_unique {s t : String} {rest rest' : List Char}
    (h : stringText s ++ rest = stringText t ++ rest') : s = t ∧ rest = rest' := by
  simp only [stringText, List.cons_append, List.append_assoc, List.nil_append] at h
  obtain ⟨hCharacters, hSame⟩ := characters_unique (List.cons.inj h).2
  exact ⟨String.toList_inj.mp hCharacters, hSame⟩

/-! ### Documents -/

mutual

def text : Json → List Char
  | .null => ['n', 'u', 'l', 'l']
  | .bool true => ['t', 'r', 'u', 'e']
  | .bool false => ['f', 'a', 'l', 's', 'e']
  | .number value => numberText value
  | .string value => stringText value
  | .array [] => ['[', ']']
  | .array (element :: rest) => '[' :: (element.text ++ elementsText rest)
  | .object [] => ['\x7b', '\x7d']
  | .object ((key, value) :: rest) =>
      '\x7b' :: (stringText key ++ ':' :: (value.text ++ entriesText rest))

/-- The elements after the first one. -/
def elementsText : List Json → List Char
  | [] => [']']
  | element :: rest => ',' :: (element.text ++ elementsText rest)

/-- The entries after the first one. -/
def entriesText : List (String × Json) → List Char
  | [] => ['\x7d']
  | (key, value) :: rest =>
      ',' :: (stringText key ++ ':' :: (value.text ++ entriesText rest))

end

/-- What tells the kinds of documents apart: the first character of the text. -/
def Starts (c : Char) : Json → Prop
  | .null => c = 'n'
  | .bool true => c = 't'
  | .bool false => c = 'f'
  | .number _ => c = '-' ∨ c.isDigit = true
  | .string _ => c = quote
  | .array _ => c = '['
  | .object _ => c = '\x7b'

theorem text_head (value : Json) : ∃ c rest, value.text = c :: rest ∧ value.Starts c := by
  cases value with
  | null => exact ⟨_, _, rfl, rfl⟩
  | bool value => cases value <;> exact ⟨_, _, rfl, rfl⟩
  | number value =>
      cases value with
      | ofNat n =>
          obtain ⟨c, rest, hText, hDigit⟩ := naturalText_head n
          exact ⟨c, rest, hText, Or.inr hDigit⟩
      | negSucc n => exact ⟨_, _, rfl, Or.inl rfl⟩
  | string value => exact ⟨_, _, rfl, rfl⟩
  | array elements => cases elements <;> exact ⟨_, _, rfl, rfl⟩
  | object entries => cases entries <;> exact ⟨_, _, rfl, rfl⟩

/-- Texts that go on alike start documents of one kind. -/
theorem starts_of_text {value value' : Json} {rest rest' : List Char}
    (h : value.text ++ rest = value'.text ++ rest') :
    ∃ c, value.Starts c ∧ value'.Starts c := by
  obtain ⟨c, others, hText, hStarts⟩ := text_head value
  obtain ⟨c', others', hText', hStarts'⟩ := text_head value'
  rw [hText, hText'] at h
  obtain ⟨rfl, _⟩ := List.cons.inj h
  exact ⟨c, hStarts, hStarts'⟩

theorem stops_elementsText (elements : List Json) (rest : List Char) :
    Stops (elementsText elements ++ rest) := by
  cases elements <;> exact stops_cons (by decide)

theorem stops_entriesText (entries : List (String × Json)) (rest : List Char) :
    Stops (entriesText entries ++ rest) := by
  cases entries <;> exact stops_cons (by decide)

/-- The text of a document is not a closing bracket. -/
theorem text_ne_cons {value : Json} {c : Char} {rest rest' : List Char}
    (hNot : ¬ value.Starts c) : c :: rest ≠ value.text ++ rest' := by
  obtain ⟨d, others, hText, hStarts⟩ := text_head value
  rw [hText, List.cons_append]
  intro h
  obtain ⟨rfl, _⟩ := List.cons.inj h
  exact hNot hStarts

theorem not_starts_bracket (value : Json) : ¬ value.Starts ']' := by
  cases value with
  | bool value => cases value <;> simp [Starts]
  | number value => simp [Starts, Char.isDigit]
  | _ => simp [Starts, quote]

mutual

/-- A text that is followed by a stop has one document in front. -/
theorem text_unique : ∀ (value value' : Json) {rest rest' : List Char}, Stops rest →
    Stops rest' → value.text ++ rest = value'.text ++ rest' → value = value' ∧ rest = rest'
  | .null, value', rest, rest', _, _, h => by
      obtain ⟨c, hStarts, hStarts'⟩ := starts_of_text h
      cases value' with
      | null => exact ⟨rfl, List.append_cancel_left h⟩
      | bool value' => cases value' <;> simp_all [Starts]
      | _ => simp_all [Starts, quote]
  | .bool value, value', rest, rest', _, _, h => by
      obtain ⟨c, hStarts, hStarts'⟩ := starts_of_text h
      cases value' with
      | bool value' =>
          cases value <;> cases value'
          · exact ⟨rfl, List.append_cancel_left h⟩
          · simp_all [Starts]
          · simp_all [Starts]
          · exact ⟨rfl, List.append_cancel_left h⟩
      | _ => cases value <;> simp_all [Starts, quote]
  | .number value, value', rest, rest', hRest, hRest', h => by
      obtain ⟨c, hStarts, hStarts'⟩ := starts_of_text h
      cases value' with
      | number value' =>
          obtain ⟨rfl, hSame⟩ := numberText_unique hRest hRest' h
          exact ⟨rfl, hSame⟩
      | bool value' => cases value' <;> simp_all [Starts]
      | _ => simp_all [Starts, quote]
  | .string value, value', rest, rest', _, _, h => by
      obtain ⟨c, hStarts, hStarts'⟩ := starts_of_text h
      cases value' with
      | string value' =>
          obtain ⟨rfl, hSame⟩ := stringText_unique h
          exact ⟨rfl, hSame⟩
      | bool value' => cases value' <;> simp_all [Starts, quote]
      | _ => simp_all [Starts, quote]
  | .array [], value', rest, rest', _, _, h => by
      obtain ⟨c, hStarts, hStarts'⟩ := starts_of_text h
      cases value' with
      | array elements =>
          cases elements with
          | nil => exact ⟨rfl, List.append_cancel_left h⟩
          | cons element others =>
              simp only [text, List.cons_append, List.append_assoc] at h
              exact absurd (List.cons.inj h).2 (text_ne_cons (not_starts_bracket element))
      | bool value' => cases value' <;> simp_all [Starts]
      | _ => simp_all [Starts, quote]
  | .array (element :: others), value', rest, rest', _, _, h => by
      obtain ⟨c, hStarts, hStarts'⟩ := starts_of_text h
      cases value' with
      | array elements =>
          cases elements with
          | nil =>
              simp only [text, List.cons_append, List.append_assoc] at h
              exact absurd (List.cons.inj h).2.symm (text_ne_cons (not_starts_bracket element))
          | cons element' others' =>
              simp only [text, List.cons_append, List.append_assoc] at h
              obtain ⟨rfl, hOthers⟩ := text_unique element element'
                (stops_elementsText others rest) (stops_elementsText others' rest')
                (List.cons.inj h).2
              obtain ⟨rfl, hSame⟩ := elementsText_unique others others' hOthers
              exact ⟨rfl, hSame⟩
      | bool value' => cases value' <;> simp_all [Starts]
      | _ => simp_all [Starts, quote]
  | .object [], value', rest, rest', _, _, h => by
      obtain ⟨c, hStarts, hStarts'⟩ := starts_of_text h
      cases value' with
      | object entries =>
          cases entries with
          | nil => exact ⟨rfl, List.append_cancel_left h⟩
          | cons entry others => simp [text, stringText, quote] at h
      | bool value' => cases value' <;> simp_all [Starts]
      | _ => simp_all [Starts, quote]
  | .object ((key, value) :: others), value', rest, rest', _, _, h => by
      obtain ⟨c, hStarts, hStarts'⟩ := starts_of_text h
      cases value' with
      | object entries =>
          cases entries with
          | nil => simp [text, stringText, quote] at h
          | cons entry' others' =>
              obtain ⟨key', value'⟩ := entry'
              simp only [text, List.cons_append, List.append_assoc] at h
              obtain ⟨rfl, hRest⟩ := stringText_unique (List.cons.inj h).2
              obtain ⟨rfl, hOthers⟩ := text_unique value value' (stops_entriesText others rest)
                (stops_entriesText others' rest') (List.cons.inj hRest).2
              obtain ⟨rfl, hSame⟩ := entriesText_unique others others' hOthers
              exact ⟨rfl, hSame⟩
      | bool value' => cases value' <;> simp_all [Starts]
      | _ => simp_all [Starts, quote]

theorem elementsText_unique : ∀ (elements elements' : List Json) {rest rest' : List Char},
    elementsText elements ++ rest = elementsText elements' ++ rest' →
      elements = elements' ∧ rest = rest'
  | [], [], _, _, h => ⟨rfl, List.append_cancel_left h⟩
  | [], _ :: _, _, _, h => by simp [elementsText] at h
  | _ :: _, [], _, _, h => by simp [elementsText] at h
  | element :: others, element' :: others', rest, rest', h => by
      simp only [elementsText, List.cons_append, List.append_assoc] at h
      obtain ⟨rfl, hOthers⟩ := text_unique element element' (stops_elementsText others rest)
        (stops_elementsText others' rest') (List.cons.inj h).2
      obtain ⟨rfl, hSame⟩ := elementsText_unique others others' hOthers
      exact ⟨rfl, hSame⟩

theorem entriesText_unique : ∀ (entries entries' : List (String × Json))
    {rest rest' : List Char}, entriesText entries ++ rest = entriesText entries' ++ rest' →
      entries = entries' ∧ rest = rest'
  | [], [], _, _, h => ⟨rfl, List.append_cancel_left h⟩
  | [], (_, _) :: _, _, _, h => by simp [entriesText] at h
  | (_, _) :: _, [], _, _, h => by simp [entriesText] at h
  | (key, value) :: others, (key', value') :: others', rest, rest', h => by
      simp only [entriesText, List.cons_append, List.append_assoc] at h
      obtain ⟨rfl, hRest⟩ := stringText_unique (List.cons.inj h).2
      obtain ⟨rfl, hOthers⟩ := text_unique value value' (stops_entriesText others rest)
        (stops_entriesText others' rest') (List.cons.inj hRest).2
      obtain ⟨rfl, hSame⟩ := entriesText_unique others others' hOthers
      exact ⟨rfl, hSame⟩

end

/-- `JSON.stringify`. -/
def stringify (value : Json) : String :=
  String.ofList value.text

theorem stringify_injective {value value' : Json} (h : value.stringify = value'.stringify) :
    value = value' := by
  have hText : value.text = value'.text := by
    simpa [stringify] using congrArg String.toList h
  have hEnds : value.text ++ [] = value'.text ++ [] := by rw [hText]
  exact (text_unique value value' stops_nil stops_nil hEnds).1

end Json
