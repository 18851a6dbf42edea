import Houndfe.Base.JsonText

/-! JSON documents over any kind of numbers, the shortest text of a document and a reader of such
texts. The reader gives back the document whose text it reads, so the text determines it. -/

/-- A JSON document. -/
inductive JsonTree (ν : Type) where
  | null
  | bool (value : Bool)
  | number (value : ν)
  | string (value : String)
  | array (elements : List (JsonTree ν))
  | object (members : List (String × JsonTree ν))

namespace JsonTree

open Json (backslash marks unescaped)

variable {ν : Type}

instance : Inhabited (JsonTree ν) :=
  ⟨.null⟩

/-! ### Numbers -/

/-- A character of a number. -/
def isNumeral (c : Char) : Bool :=
  c.isDigit || ['-', '+', '.', 'e', 'E'].contains c

/-- How the numbers are spelled: each spelling is read back. -/
structure Numerals (ν : Type) where
  spell : ν → List Char
  read : List Char → Option ν
  isNumeral_spell : ∀ value, ∀ c ∈ spell value, isNumeral c = true
  spell_ne_nil : ∀ value, spell value ≠ []
  read_spell : ∀ value, read (spell value) = some value

/-- What may follow a number. -/
def Stops (rest : List Char) : Prop :=
  ∀ c ∈ rest.head?, isNumeral c = false

@[simp] theorem stops_nil : Stops [] := by
  simp [Stops]

theorem stops_cons {c : Char} {rest : List Char} (h : isNumeral c = false) : Stops (c :: rest) := by
  simpa [Stops] using h

theorem span_spell (numerals : Numerals ν) (value : ν) {rest : List Char} (hRest : Stops rest) :
    (numerals.spell value ++ rest).takeWhile isNumeral = numerals.spell value ∧
      (numerals.spell value ++ rest).dropWhile isNumeral = rest := by
  have hAll := numerals.isNumeral_spell value
  rw [List.takeWhile_append_of_pos hAll, List.dropWhile_append_of_pos hAll]
  cases rest with
  | nil => simp
  | cons c rest =>
      have hStop : isNumeral c = false := hRest c rfl
      simp [hStop]

/-! ### Strings -/

/-- The quote, the backslash and the control characters are escaped, and no others. -/
def escaped (c : Char) : List Char :=
  if c = '\x22' ∨ c = backslash then [backslash, c]
  else if c.toNat < 32 then
    [backslash, 'u', '0', '0', Nat.digitChar (c.toNat / 16), Nat.digitChar (c.toNat % 16)]
  else [c]

def stringText (s : String) : List Char :=
  '\x22' :: (s.toList.flatMap escaped ++ ['\x22'])

/-- The characters up to the closing quote. -/
def readCharacters : Nat → List Char → Option (List Char × List Char)
  | 0, _ => none
  | fuel + 1, text =>
      if text.head? = some '\x22' then some ([], text.tail)
      else do
        let (c, rest) ← unescaped text
        let (characters, rest) ← readCharacters fuel rest
        some (c :: characters, rest)

def readString : List Char → Option (String × List Char)
  | '\x22' :: rest =>
      (readCharacters rest.length rest).map fun (characters, rest) => (.ofList characters, rest)
  | _ => none

theorem unescaped_escaped (c : Char) (rest : List Char) :
    unescaped (escaped c ++ rest) = some (c, rest) := by
  unfold escaped
  split
  · next hMark =>
      rcases hMark with rfl | rfl <;> simp [unescaped, marks, Json.quote, backslash]
  · next hPlain =>
      split
      · next hControl =>
          have hCharacter := Json.controlCharacter_of_lt c.toNat hControl
          rw [Char.ofNat_toNat] at hCharacter
          simp [unescaped, hCharacter]
      · simp [unescaped, mt Or.inr hPlain]

theorem escaped_head (c : Char) (rest : List Char) : (escaped c ++ rest).head? ≠ some '\x22' := by
  unfold escaped
  split
  · simp [backslash]
  · next hPlain =>
      split
      · simp [backslash]
      · simpa using mt Or.inl hPlain

theorem readCharacters_escaped (characters rest : List Char) {fuel : Nat}
    (hFuel : characters.length < fuel) :
    readCharacters fuel (characters.flatMap escaped ++ '\x22' :: rest) =
      some (characters, rest) := by
  induction characters generalizing fuel with
  | nil =>
      obtain ⟨fuel, rfl⟩ := Nat.exists_eq_add_of_lt hFuel
      simp [readCharacters]
  | cons c characters ih =>
      obtain ⟨fuel, rfl⟩ : ∃ least, fuel = least + 1 := Nat.exists_eq_succ_of_ne_zero (by omega)
      have hFuel' : characters.length < fuel := by simpa using hFuel
      rw [List.flatMap_cons, List.append_assoc, readCharacters, if_neg (escaped_head _ _),
        unescaped_escaped]
      simp [ih hFuel']

theorem length_le_flatMap_escaped (characters : List Char) :
    characters.length ≤ (characters.flatMap escaped).length := by
  induction characters with
  | nil => simp
  | cons c characters ih =>
      have hOne : 1 ≤ (escaped c).length := by
        unfold escaped
        split <;> [simp; split <;> simp]
      simp only [List.flatMap_cons, List.length_append, List.length_cons]
      omega

@[simp] theorem readString_stringText (s : String) (rest : List Char) :
    readString (stringText s ++ rest) = some (s, rest) := by
  have hFuel : s.toList.length < (s.toList.flatMap escaped ++ '\x22' :: rest).length := by
    have hShorter := length_le_flatMap_escaped s.toList
    simp only [List.length_append, List.length_cons]
    omega
  simp only [stringText, List.cons_append, List.append_assoc, List.nil_append, readString]
  rw [readCharacters_escaped s.toList rest hFuel]
  simp

/-! ### Documents -/

/-- The texts with commas between them. -/
def join : List (List Char) → List Char
  | [] => []
  | [text] => text
  | text :: next :: others => text ++ ',' :: join (next :: others)

theorem join_cons (c : Char) (text : List Char) (others : List (List Char)) :
    ∃ tail, join ((c :: text) :: others) = c :: tail := by
  cases others with
  | nil => exact ⟨text, rfl⟩
  | cons next others => exact ⟨text ++ ',' :: join (next :: others), rfl⟩

mutual

def text (numerals : Numerals ν) : JsonTree ν → List Char
  | .null => ['n', 'u', 'l', 'l']
  | .bool true => ['t', 'r', 'u', 'e']
  | .bool false => ['f', 'a', 'l', 's', 'e']
  | .number value => numerals.spell value
  | .string value => stringText value
  | .array elements => '[' :: (join (texts numerals elements) ++ [']'])
  | .object members => '\x7b' :: (join (memberTexts numerals members) ++ ['\x7d'])

def texts (numerals : Numerals ν) : List (JsonTree ν) → List (List Char)
  | [] => []
  | element :: rest => element.text numerals :: texts numerals rest

def memberTexts (numerals : Numerals ν) : List (String × JsonTree ν) → List (List Char)
  | [] => []
  | (key, value) :: rest =>
      (stringText key ++ ':' :: value.text numerals) :: memberTexts numerals rest

end

theorem texts_eq (numerals : Numerals ν) (elements : List (JsonTree ν)) :
    texts numerals elements = elements.map (text numerals) := by
  induction elements with
  | nil => rfl
  | cons element rest ih => simp [texts, ih]

theorem memberTexts_eq (numerals : Numerals ν) (members : List (String × JsonTree ν)) :
    memberTexts numerals members =
      members.map fun member => stringText member.1 ++ ':' :: member.2.text numerals := by
  induction members with
  | nil => rfl
  | cons member rest ih => simp [memberTexts, ih]

/-! ### Reading -/

def isSpace (c : Char) : Bool :=
  [' ', '\t', '\n', '\r'].contains c

/-- The text after the white space in front. -/
def skip (text : List Char) : List Char :=
  text.dropWhile isSpace

/-- The last member of each key. -/
def latest : List (String × JsonTree ν) → List (String × JsonTree ν)
  | [] => []
  | member :: rest =>
      if member.1 ∈ rest.map Prod.fst then latest rest else member :: latest rest

mutual

/-- The document in front of a text, and the text after it. -/
def read (numerals : Numerals ν) : Nat → List Char → Option (JsonTree ν × List Char)
  | 0, _ => none
  | fuel + 1, text =>
      match skip text with
      | 'n' :: 'u' :: 'l' :: 'l' :: rest => some (.null, rest)
      | 't' :: 'r' :: 'u' :: 'e' :: rest => some (.bool true, rest)
      | 'f' :: 'a' :: 'l' :: 's' :: 'e' :: rest => some (.bool false, rest)
      | '\x22' :: rest =>
          (readString ('\x22' :: rest)).map fun (value, rest) => (.string value, rest)
      | '[' :: rest =>
          if (skip rest).head? = some ']' then some (.array [], (skip rest).tail)
          else (readElements numerals fuel rest).map fun (elements, rest) => (.array elements, rest)
      | '\x7b' :: rest =>
          if (skip rest).head? = some '\x7d' then some (.object [], (skip rest).tail)
          else (readMembers numerals fuel rest).map fun (members, rest) =>
            (.object (latest members), rest)
      | text =>
          (numerals.read (text.takeWhile isNumeral)).map fun value =>
            (.number value, text.dropWhile isNumeral)

def readElements (numerals : Numerals ν) : Nat → List Char → Option (List (JsonTree ν) × List Char)
  | 0, _ => none
  | fuel + 1, text => do
      let (element, rest) ← read numerals fuel text
      match skip rest with
      | ']' :: rest => some ([element], rest)
      | ',' :: rest =>
          (readElements numerals fuel rest).map fun (others, rest) => (element :: others, rest)
      | _ => none

def readMembers (numerals : Numerals ν) :
    Nat → List Char → Option (List (String × JsonTree ν) × List Char)
  | 0, _ => none
  | fuel + 1, text => do
      let (key, rest) ← readString (skip text)
      match skip rest with
      | ':' :: rest =>
          let (value, rest) ← read numerals fuel rest
          match skip rest with
          | '\x7d' :: rest => some ([(key, value)], rest)
          | ',' :: rest =>
              (readMembers numerals fuel rest).map fun (others, rest) =>
                ((key, value) :: others, rest)
          | _ => none
      | _ => none

end

/-- The document of a whole text. -/
def parse (numerals : Numerals ν) (text : List Char) : Option (JsonTree ν) :=
  match read numerals (text.length + 1) text with
  | some (tree, rest) => if skip rest = [] then some tree else none
  | none => none

/-- No object holds a key twice. -/
inductive Distinct : JsonTree ν → Prop
  | null : Distinct .null
  | bool (value : Bool) : Distinct (.bool value)
  | number (value : ν) : Distinct (.number value)
  | string (value : String) : Distinct (.string value)
  | array {elements : List (JsonTree ν)} (hEach : ∀ element ∈ elements, Distinct element) :
      Distinct (.array elements)
  | object {members : List (String × JsonTree ν)} (hKeys : (members.map Prod.fst).Nodup)
      (hEach : ∀ member ∈ members, Distinct member.2) : Distinct (.object members)

theorem latest_eq {members : List (String × JsonTree ν)} (hKeys : (members.map Prod.fst).Nodup) :
    latest members = members := by
  induction members with
  | nil => rfl
  | cons member rest ih =>
      rw [List.map_cons, List.nodup_cons] at hKeys
      rw [latest, if_neg hKeys.1, ih hKeys.2]

theorem skip_cons {c : Char} (h : isSpace c = false) (rest : List Char) :
    skip (c :: rest) = c :: rest := by
  simp [skip, h]

theorem not_isSpace_of_isNumeral {c : Char} (h : isNumeral c = true) : isSpace c = false := by
  by_contra hSpace
  simp only [isSpace, List.contains_eq_mem, Bool.not_eq_false, decide_eq_true_eq, List.mem_cons,
    List.not_mem_nil, or_false] at hSpace
  rcases hSpace with rfl | rfl | rfl | rfl <;> simp [isNumeral] at h

/-- A text does not start with white space or with a closing bracket. -/
theorem text_head (numerals : Numerals ν) (tree : JsonTree ν) : ∃ c rest,
    tree.text numerals = c :: rest ∧ isSpace c = false ∧ c ≠ ']' := by
  cases tree with
  | bool value => cases value <;> exact ⟨_, _, rfl, by decide, by decide⟩
  | number value =>
      cases hText : numerals.spell value with
      | nil => exact absurd hText (numerals.spell_ne_nil value)
      | cons c rest =>
          have hNumeral := numerals.isNumeral_spell value c (hText ▸ List.mem_cons_self)
          refine ⟨c, rest, hText, not_isSpace_of_isNumeral hNumeral, ?_⟩
          rintro rfl
          simp [isNumeral] at hNumeral
  | _ => exact ⟨_, _, rfl, by decide, by decide⟩

theorem read_numeral (numerals : Numerals ν) {c : Char} (hNumeral : isNumeral c = true)
    (fuel : Nat) (rest : List Char) : read numerals (fuel + 1) (c :: rest) =
      (numerals.read ((c :: rest).takeWhile isNumeral)).map fun value =>
        (.number value, (c :: rest).dropWhile isNumeral) := by
  rw [read, skip_cons (not_isSpace_of_isNumeral hNumeral)]
  split <;> simp_all [isNumeral]

theorem skip_stringText (s : String) (rest : List Char) :
    skip (stringText s ++ rest) = stringText s ++ rest :=
  skip_cons rfl _

/-- The text of a tree is read back whatever follows it. -/
def ReadBack (numerals : Numerals ν) (tree : JsonTree ν) : Prop :=
  ∀ (fuel : Nat) (rest : List Char), (tree.text numerals).length < fuel → Stops rest →
    read numerals fuel (tree.text numerals ++ rest) = some (tree, rest)

theorem readElements_join {numerals : Numerals ν} {elements : List (JsonTree ν)}
    (hEach : ∀ element ∈ elements, ReadBack numerals element) (hSome : elements ≠ [])
    {fuel : Nat} (hFuel : (join (texts numerals elements)).length + 1 < fuel) (rest : List Char) :
    readElements numerals fuel (join (texts numerals elements) ++ ']' :: rest) =
      some (elements, rest) := by
  induction elements generalizing fuel with
  | nil => exact absurd rfl hSome
  | cons element others ih =>
      obtain ⟨fuel, rfl⟩ : ∃ least, fuel = least + 1 := Nat.exists_eq_succ_of_ne_zero (by omega)
      have hFirst := hEach element List.mem_cons_self
      cases others with
      | nil =>
          simp only [texts, join] at hFuel ⊢
          rw [readElements, hFirst fuel _ (by omega) (stops_cons rfl)]
          simp [skip_cons, isSpace]
      | cons next others =>
          simp only [texts, join, List.length_append, List.length_cons] at hFuel ih
          have hShorter :
              (join (text numerals next :: texts numerals others)).length + 1 < fuel := by
            omega
          have hOthers := ih (fun other hOther => hEach other (List.mem_cons_of_mem _ hOther))
            (List.cons_ne_nil _ _) hShorter
          simp only [texts, join, List.append_assoc, List.cons_append]
          rw [readElements, hFirst fuel _ (by omega) (stops_cons rfl)]
          simp [skip_cons, isSpace, hOthers]

theorem readMembers_join {numerals : Numerals ν} {members : List (String × JsonTree ν)}
    (hEach : ∀ member ∈ members, ReadBack numerals member.2) (hSome : members ≠ [])
    {fuel : Nat} (hFuel : (join (memberTexts numerals members)).length + 1 < fuel)
    (rest : List Char) :
    readMembers numerals fuel (join (memberTexts numerals members) ++ '\x7d' :: rest) =
      some (members, rest) := by
  induction members generalizing fuel with
  | nil => exact absurd rfl hSome
  | cons member others ih =>
      obtain ⟨key, value⟩ := member
      obtain ⟨fuel, rfl⟩ : ∃ least, fuel = least + 1 := Nat.exists_eq_succ_of_ne_zero (by omega)
      have hFirst : ReadBack numerals value := hEach (key, value) List.mem_cons_self
      cases others with
      | nil =>
          simp only [memberTexts, join, List.length_append, List.length_cons, List.append_assoc,
            List.cons_append] at hFuel ⊢
          rw [readMembers]
          simp [skip_stringText, skip_cons, isSpace,
            hFirst fuel ('\x7d' :: rest) (by omega) (stops_cons rfl)]
      | cons next others =>
          simp only [memberTexts, join, List.length_append, List.length_cons] at hFuel ih
          have hShorter : (join ((stringText next.1 ++ ':' :: next.2.text numerals) ::
              memberTexts numerals others)).length + 1 < fuel := by
            omega
          have hOthers := ih (fun other hOther => hEach other (List.mem_cons_of_mem _ hOther))
            (List.cons_ne_nil _ _) hShorter
          simp only [memberTexts, join, List.append_assoc, List.cons_append]
          rw [readMembers]
          simp [skip_stringText, skip_cons, isSpace, hOthers,
            hFirst fuel (',' :: _) (by omega) (stops_cons rfl)]

theorem readBack_of {numerals : Numerals ν} {tree : JsonTree ν}
    (h : ∀ (fuel : Nat) (rest : List Char), (tree.text numerals).length ≤ fuel → Stops rest →
      read numerals (fuel + 1) (tree.text numerals ++ rest) = some (tree, rest)) :
    ReadBack numerals tree := by
  intro fuel rest hFuel hRest
  cases fuel with
  | zero => omega
  | succ fuel => exact h fuel rest (by omega) hRest

theorem readBack_number (numerals : Numerals ν) (value : ν) :
    ReadBack numerals (.number value) := by
  refine readBack_of fun fuel rest hFuel hRest => ?_
  obtain ⟨hTake, hDrop⟩ := span_spell numerals value hRest
  cases hText : numerals.spell value with
  | nil => exact absurd hText (numerals.spell_ne_nil value)
  | cons c others =>
      have hNumeral := numerals.isNumeral_spell value c (hText ▸ List.mem_cons_self)
      rw [hText, List.cons_append] at hTake hDrop
      rw [text, hText, List.cons_append, read_numeral numerals hNumeral, hTake, hDrop, ← hText,
        numerals.read_spell]
      rfl

/-- What the text of a tree is followed by is left. -/
theorem read_text (numerals : Numerals ν) {tree : JsonTree ν} (hTree : tree.Distinct) :
    ReadBack numerals tree := by
  induction hTree with
  | number value => exact readBack_number numerals value
  | null =>
      refine readBack_of fun fuel rest hFuel hRest => ?_
      simp [text, read, skip, isSpace]
  | bool value =>
      refine readBack_of fun fuel rest hFuel hRest => ?_
      cases value <;> simp [text, read, skip, isSpace]
  | string value =>
      refine readBack_of fun fuel rest hFuel hRest => ?_
      have hRead := readString_stringText value rest
      rw [stringText, List.cons_append] at hRead
      rw [text, stringText, List.cons_append, read, skip_cons rfl]
      exact congrArg (Option.map _) hRead
  | @array elements hEach ih =>
      refine readBack_of fun fuel rest hFuel hRest => ?_
      simp only [text, List.cons_append, List.append_assoc, List.nil_append, List.length_cons,
        List.length_append, List.length_nil] at hFuel ⊢
      rw [read, skip_cons rfl]
      cases elements with
      | nil => simp [texts, join, skip_cons, isSpace]
      | cons element others =>
          have hLonger : (join (texts numerals (element :: others))).length + 1 < fuel := by omega
          have hElements := readElements_join ih (List.cons_ne_nil _ _) hLonger rest
          obtain ⟨c, tail, hText, hSpace, hClosed⟩ := text_head numerals element
          obtain ⟨more, hJoin⟩ := join_cons c tail (texts numerals others)
          rw [← hText, ← texts] at hJoin
          have hOpen : (skip (join (texts numerals (element :: others)) ++ ']' :: rest)).head? ≠
              some ']' := by
            simpa [hJoin, skip_cons hSpace] using hClosed
          simp [hOpen, hElements]
  | @object members hKeys hEach ih =>
      refine readBack_of fun fuel rest hFuel hRest => ?_
      simp only [text, List.cons_append, List.append_assoc, List.nil_append, List.length_cons,
        List.length_append, List.length_nil] at hFuel ⊢
      rw [read, skip_cons rfl]
      cases members with
      | nil => simp [memberTexts, join, skip_cons, isSpace]
      | cons member others =>
          have hLonger : (join (memberTexts numerals (member :: others))).length + 1 < fuel := by
            omega
          have hMembers := readMembers_join ih (List.cons_ne_nil _ _) hLonger rest
          obtain ⟨more, hJoin⟩ := join_cons '\x22' (member.1.toList.flatMap escaped ++ ['\x22'] ++
            ':' :: member.2.text numerals) (memberTexts numerals others)
          have hOpen : (skip (join (memberTexts numerals (member :: others)) ++
              '\x7d' :: rest)).head? ≠ some '\x7d' := by
            rw [memberTexts, stringText, List.cons_append, hJoin, List.cons_append, skip_cons rfl]
            simp
          simp [hOpen, hMembers, latest_eq hKeys]

/-- The text of a document is read as the document. -/
theorem parse_text (numerals : Numerals ν) {tree : JsonTree ν} (hTree : tree.Distinct) :
    parse numerals (tree.text numerals) = some tree := by
  have hRead := read_text numerals hTree _ [] (Nat.lt_succ_self _) stops_nil
  rw [List.append_nil] at hRead
  rw [parse, hRead]
  rfl

/-! ### Bytes -/

def bytes (numerals : Numerals ν) (tree : JsonTree ν) : ByteArray :=
  (String.ofList (tree.text numerals)).toUTF8

def parseBytes (numerals : Numerals ν) (bytes : ByteArray) : Option (JsonTree ν) :=
  (String.fromUTF8? bytes).bind fun text => parse numerals text.toList

theorem parseBytes_bytes (numerals : Numerals ν) {tree : JsonTree ν} (hTree : tree.Distinct) :
    parseBytes numerals (tree.bytes numerals) = some tree := by
  have hText : String.fromUTF8? (tree.bytes numerals) = some (.ofList (tree.text numerals)) :=
    dif_pos (String.ofList (tree.text numerals)).isValidUTF8
  simp [parseBytes, hText, parse_text numerals hTree]

theorem bytes_injective (numerals : Numerals ν) {tree tree' : JsonTree ν} (hTree : tree.Distinct)
    (hTree' : tree'.Distinct) (h : tree.bytes numerals = tree'.bytes numerals) : tree = tree' := by
  have hParse := parseBytes_bytes numerals hTree
  rw [h, parseBytes_bytes numerals hTree'] at hParse
  exact (Option.some.inj hParse).symm

end JsonTree
