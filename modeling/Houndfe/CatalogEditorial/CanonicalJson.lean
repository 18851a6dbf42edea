import Houndfe.Base.JsonTree
import Houndfe.Base.Traverse
import Mathlib.Data.List.Perm.Subperm
import Mathlib.Data.Set.List

/-! The canonical JSON of the editorial documents: a value of the language is encoded when it is
finite, acyclic JSON data, with the keys of every object in the order of their bytes. The values
are those of a whole heap, so a value may hold itself, be shared, or be no data at all. -/

namespace Houndfe.CanonicalJson

/-! ### Values -/

/-- A string of the language: its characters, or its code points with lone surrogates among
them. -/
inductive Text where
  | wellFormed (text : String)
  | withLoneSurrogates (points : List (Char ⊕ Nat))
  deriving DecidableEq

inductive Key where
  | string (text : Text)
  | symbol (id : Nat)
  deriving DecidableEq

inductive Number (ν : Type) where
  | finite (value : ν)
  | negativeZero
  | notFinite

inductive Value (ν : Type) where
  | undefined
  | null
  | boolean (value : Bool)
  | number (value : Number ν)
  | string (text : Text)
  | bigint (value : Int)
  | symbol (id : Nat)
  | function (address : Nat)
  | object (address : Nat)

instance {ν : Type} : Inhabited (Value ν) :=
  ⟨.undefined⟩

/-- An own property; an accessor has no value. -/
structure Descriptor (ν : Type) where
  enumerable : Bool
  value : Option (Value ν)

inductive Prototype where
  | none
  | object
  | array
  | foreign
  deriving DecidableEq

def lengthKey : Key :=
  .string (.wellFormed "length")

/-- An object with its own properties; an array has a length. -/
structure Object (ν : Type) where
  length : Option Nat
  prototype : Prototype
  properties : List (Key × Descriptor ν)
  distinct : (properties.map Prod.fst).Nodup
  lengthKey_mem : length.isSome = true → lengthKey ∈ properties.map Prod.fst

variable {ν : Type}

namespace Object

/-- `Reflect.ownKeys`. -/
def ownKeys (value : Object ν) : List Key :=
  value.properties.map Prod.fst

def getOwnPropertyDescriptor (value : Object ν) (key : Key) : Option (Descriptor ν) :=
  value.properties.lookup key

/-- The value of an own enumerable data property. -/
def data (value : Object ν) (key : Key) : Option (Value ν) :=
  match value.getOwnPropertyDescriptor key with
  | some ⟨true, some data⟩ => some data
  | _ => none

end Object

/-! ### The encoder -/

/-- How the language writes its finite numbers, and its zero. -/
structure Numbers (ν : Type) extends JsonTree.Numerals ν where
  zero : ν

/-- The number that `JSON.stringify` writes: zero has no sign. -/
def Number.finite? (numbers : Numbers ν) : Number ν → Option ν
  | .finite value => some value
  | .negativeZero => some numbers.zero
  | .notFinite => none

def quoted : Text → Option (List Char)
  | .wellFormed text => some (JsonTree.stringText text)
  | .withLoneSurrogates _ => none

/-- The bytes of `Buffer.from`: a lone surrogate becomes a replacement character. -/
def Text.bytes : Text → List Nat
  | .wellFormed text => text.toUTF8.data.toList.map UInt8.toNat
  | .withLoneSurrogates points =>
      points.flatMap fun point =>
        match point with
        | .inl c => (String.utf8EncodeChar c).map UInt8.toNat
        | .inr _ => [0xEF, 0xBF, 0xBD]

def sortNames (names : List Text) : List Text :=
  names.insertionSort fun left right => left.bytes ≤ right.bytes

def Key.string? : Key → Option Text
  | .string text => some text
  | .symbol _ => none

/-- `String(index)`. -/
def indexKey (index : Nat) : Key :=
  .string (.wellFormed (.ofList (Json.naturalText index)))

def encodeProperty (encode : Value ν → Option (List Char)) (value : Object ν) (key : Key) :
    Option (List Char) :=
  (value.data key).bind encode

def encodeArray (encode : Value ν → Option (List Char)) (value : Object ν) (length : Nat) :
    Option (List Char) :=
  if value.prototype ≠ .array ∨ value.ownKeys.length ≠ length + 1 then none
  else do
    let entries ← (List.range length).mapM fun index => encodeProperty encode value (indexKey index)
    some ('[' :: (JsonTree.join entries ++ [']']))

def encodeMember (encode : Value ν → Option (List Char)) (value : Object ν) (name : Text) :
    Option (List Char) := do
  let key ← quoted name
  let property ← encodeProperty encode value (.string name)
  some (key ++ ':' :: property)

def encodeObject (encode : Value ν → Option (List Char)) (value : Object ν) :
    Option (List Char) :=
  if value.prototype ≠ .none ∧ value.prototype ≠ .object then none
  else do
    let names ← value.ownKeys.mapM Key.string?
    let members ← (sortNames names).mapM (encodeMember encode value)
    some ('\x7b' :: (JsonTree.join members ++ ['\x7d']))

/-- No path through the heap is longer than the heap, as an ancestor is not entered again. -/
def encode (numbers : Numbers ν) (heap : List (Object ν)) :
    Nat → List Nat → Value ν → Option (List Char)
  | _, _, .null => some ['n', 'u', 'l', 'l']
  | _, _, .string text => quoted text
  | _, _, .boolean true => some ['t', 'r', 'u', 'e']
  | _, _, .boolean false => some ['f', 'a', 'l', 's', 'e']
  | _, _, .number value => (value.finite? numbers).map numbers.spell
  | fuel + 1, ancestors, .object address =>
      if address ∈ ancestors then none
      else
        match heap[address]? with
        | none => none
        | some value =>
            match value.length with
            | some length =>
                encodeArray (encode numbers heap fuel (address :: ancestors)) value length
            | none => encodeObject (encode numbers heap fuel (address :: ancestors)) value
  | _, _, _ => none

def canonicalEditorialJson (numbers : Numbers ν) (heap : List (Object ν)) (value : Value ν) :
    Option ByteArray :=
  (encode numbers heap (heap.length + 1) [] value).map fun text => (String.ofList text).toUTF8

/-! ### JSON trees -/

/-- The object is an array of the values, with nothing else to it. -/
structure Object.IsArray (value : Object ν) (count : Nat) (values : Nat → Value ν) : Prop where
  prototype : value.prototype = .array
  length : value.length = some count
  keys : value.ownKeys.Perm (lengthKey :: (List.range count).map indexKey)
  data : ∀ index < count, value.data (indexKey index) = some (values index)

/-- In the order of their bytes, and so apart. -/
def ByBytes (names : List String) : Prop :=
  names.Pairwise fun left right => (Text.wellFormed left).bytes < (Text.wellFormed right).bytes

/-- The object is a plain one with the values under the names, which are in the order of their
bytes. -/
structure Object.IsPlain (value : Object ν) (names : List String) (values : String → Value ν) :
    Prop where
  prototype : value.prototype = .none ∨ value.prototype = .object
  length : value.length = none
  keys : value.ownKeys.Perm (names.map fun name => .string (.wellFormed name))
  sorted : ByBytes names
  data : ∀ name ∈ names, value.data (.string (.wellFormed name)) = some (values name)

/-- The value is the JSON tree. The members of a tree are in the order of their keys, so trees
that differ in the order of keys only are one tree; a zero of either sign is the same number. -/
inductive Represents (numbers : Numbers ν) (heap : List (Object ν)) : Value ν → JsonTree ν → Prop
  | null : Represents numbers heap .null .null
  | bool (value : Bool) : Represents numbers heap (.boolean value) (.bool value)
  | number {value : Number ν} {finite : ν} (hFinite : value.finite? numbers = some finite) :
      Represents numbers heap (.number value) (.number finite)
  | string (text : String) : Represents numbers heap (.string (.wellFormed text)) (.string text)
  | array {address : Nat} {value : Object ν} {elements : List (JsonTree ν)} (values : Nat → Value ν)
      (hAt : heap[address]? = some value) (hArray : value.IsArray elements.length values)
      (hEach : ∀ index element, elements[index]? = some element →
        Represents numbers heap (values index) element) :
      Represents numbers heap (.object address) (.array elements)
  | object {address : Nat} {value : Object ν} {members : List (String × JsonTree ν)}
      (values : String → Value ν) (hAt : heap[address]? = some value)
      (hPlain : value.IsPlain (members.map Prod.fst) values)
      (hEach : ∀ member ∈ members, Represents numbers heap (values member.1) member.2) :
      Represents numbers heap (.object address) (.object members)

/-! ### Keys -/

theorem bytes_injective {left right : String}
    (h : (Text.wellFormed left).bytes = (Text.wellFormed right).bytes) : left = right := by
  have hBytes : left.toUTF8.data.toList = right.toUTF8.data.toList :=
    List.map_injective_iff.mpr (fun _ _ => UInt8.toNat_inj.mp) h
  exact String.toByteArray_inj.mp (ByteArray.ext (Array.toList_inj.mp hBytes))

theorem indexKey_injective : Function.Injective indexKey := by
  intro index index' h
  have hText : Json.naturalText index = Json.naturalText index' := by
    simpa [indexKey, ← String.toList_inj] using h
  have hEnds : Json.naturalText index ++ [] = Json.naturalText index' ++ [] := by rw [hText]
  exact (Json.naturalText_unique Json.stops_nil Json.stops_nil hEnds).1

theorem indexKey_ne_lengthKey (index : Nat) : lengthKey ≠ indexKey index := by
  intro h
  have hText : ['l', 'e', 'n', 'g', 't', 'h'] = Json.naturalText index := by
    simpa [indexKey, lengthKey, ← String.toList_inj] using h
  have hDigit := Json.isDigit_of_mem_naturalText (hText ▸ List.mem_cons_self)
  exact absurd hDigit (by decide)

theorem nodup_arrayKeys (count : Nat) :
    (lengthKey :: (List.range count).map indexKey).Nodup := by
  refine List.nodup_cons.mpr ⟨?_, List.nodup_range.map indexKey_injective⟩
  simp only [List.mem_map, not_exists, not_and]
  exact fun index _ h => indexKey_ne_lengthKey index h.symm

namespace Object

theorem mem_ownKeys_of_data {value : Object ν} {key : Key} {data : Value ν}
    (h : value.data key = some data) : key ∈ value.ownKeys := by
  unfold Object.data getOwnPropertyDescriptor at h
  split at h
  · next hFound =>
      obtain ⟨before, after, hSplit, _⟩ := List.lookup_eq_some_iff.mp hFound
      simp [ownKeys, hSplit]
  · cases h

/-- An array with one key more than its length and every index among them has no other keys. -/
theorem isArray_of_count {value : Object ν} {count : Nat} {values : Nat → Value ν}
    (hPrototype : value.prototype = .array) (hLength : value.length = some count)
    (hCount : value.ownKeys.length = count + 1)
    (hData : ∀ index < count, value.data (indexKey index) = some (values index)) :
    value.IsArray count values := by
  refine ⟨hPrototype, hLength, ?_, hData⟩
  have hSubset : (lengthKey :: (List.range count).map indexKey) ⊆ value.ownKeys := by
    intro key hKey
    rcases List.mem_cons.mp hKey with rfl | hIndex
    · exact value.lengthKey_mem (by simp [hLength])
    · obtain ⟨index, hRange, rfl⟩ := List.mem_map.mp hIndex
      exact mem_ownKeys_of_data (hData index (List.mem_range.mp hRange))
  exact ((nodup_arrayKeys count).subperm hSubset).perm_of_length_le (by simp [hCount]) |>.symm

end Object

/-! ### One tree for a value -/

theorem ByBytes.nodup {names : List String} (h : ByBytes names) : names.Nodup :=
  h.imp fun hLess hSame => absurd hLess (by simp [hSame])

theorem ByBytes.unique {names names' : List String} (hSorted : ByBytes names)
    (hSorted' : ByBytes names') (hPerm : names.Perm names') : names = names' :=
  hPerm.eq_of_pairwise (fun _ _ _ _ h h' => absurd (h.trans h') (lt_irrefl _)) hSorted hSorted'

theorem Object.IsPlain.names_unique {value : Object ν} {names names' : List String}
    {values values' : String → Value ν} (h : value.IsPlain names values)
    (h' : value.IsPlain names' values') : names = names' := by
  refine h.sorted.unique h'.sorted ?_
  have hInjective : Function.Injective fun name => Key.string (.wellFormed name) :=
    fun _ _ h => Text.wellFormed.inj (Key.string.inj h)
  exact (List.map_perm_map_iff hInjective).mp (h.keys.symm.trans h'.keys)

theorem members_unique {members members' : List (String × JsonTree ν)}
    (hNames : members.map Prod.fst = members'.map Prod.fst)
    (hEach : ∀ name tree tree', (name, tree) ∈ members → (name, tree') ∈ members' → tree = tree') :
    members = members' := by
  induction members generalizing members' with
  | nil => exact (List.map_eq_nil_iff.mp hNames.symm).symm
  | cons member rest ih =>
      obtain ⟨name, tree⟩ := member
      obtain ⟨⟨name', tree'⟩, rest', rfl, hName, hRest⟩ := List.map_eq_cons_iff.mp hNames.symm
      obtain rfl : name' = name := hName
      rw [hEach name' tree tree' List.mem_cons_self List.mem_cons_self, ih hRest.symm
        fun name tree tree' hIn hIn' =>
          hEach name tree tree' (List.mem_cons_of_mem _ hIn) (List.mem_cons_of_mem _ hIn')]

theorem Represents.unique {numbers : Numbers ν} {heap : List (Object ν)} {value : Value ν}
    {tree tree' : JsonTree ν} (h : Represents numbers heap value tree)
    (h' : Represents numbers heap value tree') : tree = tree' := by
  induction h generalizing tree' with
  | null => cases h'; rfl
  | bool value => cases h'; rfl
  | string text => cases h'; rfl
  | number hFinite =>
      cases h' with
      | number hFinite' => rw [Option.some.inj (hFinite.symm.trans hFinite')]
  | array values hAt hArray hEach ih =>
      cases h' with
      | array values' hAt' hArray' hEach' =>
          obtain rfl := Option.some.inj (hAt.symm.trans hAt')
          have hLength := Option.some.inj (hArray.length.symm.trans hArray'.length)
          refine congrArg JsonTree.array (List.ext_getElem hLength fun index hIndex hIndex' => ?_)
          have hData := (hArray.data index hIndex).symm.trans (hArray'.data index hIndex')
          refine ih index _ (List.getElem?_eq_getElem hIndex) ?_
          rw [Option.some.inj hData]
          exact hEach' index _ (List.getElem?_eq_getElem hIndex')
      | object values' hAt' hPlain' hEach' =>
          obtain rfl := Option.some.inj (hAt.symm.trans hAt')
          exact absurd (hArray.length.symm.trans hPlain'.length) (by simp)
  | object values hAt hPlain hEach ih =>
      cases h' with
      | array values' hAt' hArray' hEach' =>
          obtain rfl := Option.some.inj (hAt.symm.trans hAt')
          exact absurd (hArray'.length.symm.trans hPlain.length) (by simp)
      | object values' hAt' hPlain' hEach' =>
          obtain rfl := Option.some.inj (hAt.symm.trans hAt')
          refine congrArg JsonTree.object (members_unique (hPlain.names_unique hPlain') ?_)
          intro name tree tree' hIn hIn'
          have hData := (hPlain.data name (List.mem_map_of_mem hIn)).symm.trans
            (hPlain'.data name (List.mem_map_of_mem hIn'))
          refine ih (name, tree) hIn ?_
          rw [Option.some.inj hData]
          exact hEach' (name, tree') hIn'

theorem Represents.distinct {numbers : Numbers ν} {heap : List (Object ν)} {value : Value ν}
    {tree : JsonTree ν} (h : Represents numbers heap value tree) : tree.Distinct := by
  induction h with
  | null => exact .null
  | bool value => exact .bool value
  | number hFinite => exact .number _
  | string text => exact .string text
  | array values hAt hArray hEach ih =>
      refine .array fun element hElement => ?_
      obtain ⟨index, hIndex⟩ := List.mem_iff_getElem?.mp hElement
      exact ih index element hIndex
  | object values hAt hPlain hEach ih =>
      exact .object hPlain.sorted.nodup ih

/-! ### What is encoded is a tree -/

section

variable {numbers : Numbers ν} {encode : Value ν → Option (List Char)}
  {Holds : Value ν → JsonTree ν → Prop}

theorem encodeProperty_sound
    (hEncode : ∀ {value text}, encode value = some text →
      ∃ tree, Holds value tree ∧ text = tree.text numbers.toNumerals)
    {value : Object ν} {key : Key} {text : List Char}
    (h : encodeProperty encode value key = some text) :
    ∃ data tree, value.data key = some data ∧ Holds data tree ∧
      text = tree.text numbers.toNumerals := by
  obtain ⟨data, hData, hText⟩ := Option.bind_eq_some_iff.mp h
  obtain ⟨tree, hHolds, hTree⟩ := hEncode hText
  exact ⟨data, tree, hData, hHolds, hTree⟩

theorem encodeArray_sound
    (hEncode : ∀ {value text}, encode value = some text →
      ∃ tree, Holds value tree ∧ text = tree.text numbers.toNumerals)
    {value : Object ν} {count : Nat} (hLength : value.length = some count) {text : List Char}
    (h : encodeArray encode value count = some text) :
    ∃ (values : Nat → Value ν) (elements : List (JsonTree ν)),
      value.IsArray elements.length values ∧
        (∀ index element, elements[index]? = some element → Holds (values index) element) ∧
        text = (JsonTree.array elements).text numbers.toNumerals := by
  unfold encodeArray at h
  split at h
  · cases h
  · next hShape =>
      obtain ⟨hPrototype, hCount⟩ := not_or.mp hShape
      obtain ⟨entries, hEntries, hText⟩ := Option.bind_eq_some_iff.mp h
      have hEach : ∀ index < count, ∃ data tree, value.data (indexKey index) = some data ∧
          Holds data tree ∧ encodeProperty encode value (indexKey index) =
            some (tree.text numbers.toNumerals) := by
        intro index hIndex
        obtain ⟨entry, hEntry⟩ := Traverse.exists_of_mapM_some hEntries (List.mem_range.mpr hIndex)
        obtain ⟨data, tree, hData, hHolds, rfl⟩ := encodeProperty_sound hEncode hEntry
        exact ⟨data, tree, hData, hHolds, hEntry⟩
      choose! values trees hData hHolds hEntry using hEach
      refine ⟨values, (List.range count).map trees, ?_, ?_, ?_⟩
      · simpa using Object.isArray_of_count (not_ne_iff.mp hPrototype) hLength
          (not_ne_iff.mp hCount) hData
      · intro index element hElement
        simp only [List.getElem?_map, Option.map_eq_some_iff, List.getElem?_eq_some_iff] at hElement
        obtain ⟨_, ⟨hIndex, rfl⟩, rfl⟩ := hElement
        simpa using hHolds _ (by simpa using hIndex)
      · rw [Traverse.mapM_eq_some_map fun index hIndex => hEntry index (List.mem_range.mp hIndex)]
          at hEntries
        obtain rfl := Option.some.inj hEntries
        rw [← Option.some.inj hText, JsonTree.text, JsonTree.texts_eq, List.map_map]
        rfl

theorem map_string_of_mapM {keys : List Key} {texts : List Text}
    (h : keys.mapM Key.string? = some texts) : keys = texts.map .string := by
  have hEach := Traverse.forall₂_of_mapM_some h
  have hSame : List.Forall₂ (fun key text => key = Key.string text) keys texts := by
    refine hEach.imp fun key text hText => ?_
    cases key with
    | string text' => rw [Option.some.inj hText]
    | symbol id => cases hText
  have hKeys := List.forall₂_map_right_iff.mpr hSame
  rwa [List.forall₂_eq_eq_eq] at hKeys

theorem sortNames_perm (names : List Text) : (sortNames names).Perm names :=
  List.perm_insertionSort _ names

theorem sortNames_sorted (names : List Text) :
    (sortNames names).Pairwise fun left right => left.bytes ≤ right.bytes := by
  have hTotal : Std.Total fun left right : Text => left.bytes ≤ right.bytes :=
    ⟨fun left right => le_total _ _⟩
  have hTrans : IsTrans Text fun left right => left.bytes ≤ right.bytes :=
    ⟨fun _ _ _ h h' => le_trans h h'⟩
  exact List.pairwise_insertionSort _ names

/-- Distinct own keys that are well-formed strings are sorted without ties. -/
theorem sorted_of_sortNames {texts : List Text} {names : List String} (hDistinct : texts.Nodup)
    (hNames : sortNames texts = names.map Text.wellFormed) :
    ByBytes names := by
  have hSorted := sortNames_sorted texts
  have hNodup : (names.map Text.wellFormed).Nodup :=
    hNames ▸ (sortNames_perm texts).nodup_iff.mpr hDistinct
  rw [hNames, List.pairwise_map] at hSorted
  refine (hSorted.and hNodup.of_map).imp fun h => lt_of_le_of_ne h.1 fun hBytes => ?_
  exact h.2 (bytes_injective hBytes)

theorem encodeMember_sound
    (hEncode : ∀ {value text}, encode value = some text →
      ∃ tree, Holds value tree ∧ text = tree.text numbers.toNumerals)
    {value : Object ν} {name : Text} {text : List Char}
    (h : encodeMember encode value name = some text) :
    ∃ wellFormed data tree, name = .wellFormed wellFormed ∧
      value.data (.string name) = some data ∧ Holds data tree ∧
      text = JsonTree.stringText wellFormed ++ ':' :: tree.text numbers.toNumerals := by
  obtain ⟨key, hKey, hRest⟩ := Option.bind_eq_some_iff.mp h
  obtain ⟨property, hProperty, hText⟩ := Option.bind_eq_some_iff.mp hRest
  obtain ⟨data, tree, hData, hHolds, rfl⟩ := encodeProperty_sound hEncode hProperty
  cases name with
  | withLoneSurrogates points => cases hKey
  | wellFormed name =>
      obtain rfl := Option.some.inj hKey
      exact ⟨name, data, tree, rfl, hData, hHolds, (Option.some.inj hText).symm⟩

theorem encodeObject_sound
    (hEncode : ∀ {value text}, encode value = some text →
      ∃ tree, Holds value tree ∧ text = tree.text numbers.toNumerals)
    {value : Object ν} (hLength : value.length = none) {text : List Char}
    (h : encodeObject encode value = some text) :
    ∃ (values : String → Value ν) (members : List (String × JsonTree ν)),
      value.IsPlain (members.map Prod.fst) values ∧
        (∀ member ∈ members, Holds (values member.1) member.2) ∧
        text = (JsonTree.object members).text numbers.toNumerals := by
  unfold encodeObject at h
  split at h
  · cases h
  · next hShape =>
      obtain ⟨texts, hTexts, hRest⟩ := Option.bind_eq_some_iff.mp h
      obtain ⟨entries, hEntries, hText⟩ := Option.bind_eq_some_iff.mp hRest
      have hSound := fun name (hName : name ∈ sortNames texts) =>
        encodeMember_sound hEncode (Traverse.exists_of_mapM_some hEntries hName).choose_spec
      obtain ⟨names, hNames⟩ : sortNames texts ∈ Set.range (List.map Text.wellFormed) := by
        rw [Set.range_list_map]
        intro name hName
        obtain ⟨wellFormed, _, _, rfl, _⟩ := hSound name hName
        exact ⟨wellFormed, rfl⟩
      have hKeys := map_string_of_mapM hTexts
      rw [← hNames] at hEntries
      have hEach : ∀ name ∈ names, ∃ data tree,
          value.data (.string (.wellFormed name)) = some data ∧ Holds data tree ∧
          encodeMember encode value (.wellFormed name) =
            some (JsonTree.stringText name ++ ':' :: tree.text numbers.toNumerals) := by
        intro name hName
        obtain ⟨entry, hEntry⟩ :=
          Traverse.exists_of_mapM_some hEntries (List.mem_map_of_mem hName)
        obtain ⟨_, data, tree, hSame, hData, hHolds, rfl⟩ := encodeMember_sound hEncode hEntry
        obtain rfl := Text.wellFormed.inj hSame
        exact ⟨data, tree, hData, hHolds, hEntry⟩
      choose! values trees hData hHolds hEntry using hEach
      refine ⟨values, names.map fun name => (name, trees name), ?_, ?_, ?_⟩
      · rw [List.map_map, show Prod.fst ∘ (fun name => (name, trees name)) = id from rfl,
          List.map_id]
        refine ⟨?_, hLength, ?_, sorted_of_sortNames ?_ hNames.symm, hData⟩
        · by_contra hNot
          exact hShape (not_or.mp hNot)
        · have hPerm := (sortNames_perm texts).symm.map Key.string
          rwa [← hKeys, ← hNames, List.map_map] at hPerm
        · have hDistinct := value.distinct
          rw [← Object.ownKeys, hKeys] at hDistinct
          exact hDistinct.of_map
      · simpa using hHolds
      · have hMembers : names.mapM (encodeMember encode value ∘ Text.wellFormed) = some _ :=
          Traverse.mapM_eq_some_map hEntry
        rw [List.mapM_map, hMembers] at hEntries
        obtain rfl := Option.some.inj hEntries
        rw [← Option.some.inj hText, JsonTree.text, JsonTree.memberTexts_eq, List.map_map]
        rfl

end

variable {numbers : Numbers ν} {heap : List (Object ν)}

theorem leaf_sound {fuel : Nat} {ancestors : List Nat} {value : Value ν} {text : List Char}
    (hLeaf : ∀ address, value ≠ .object address)
    (h : encode numbers heap fuel ancestors value = some text) :
    ∃ tree, Represents numbers heap value tree ∧ text = tree.text numbers.toNumerals := by
  cases value with
  | null => exact ⟨.null, .null, by simpa [encode, JsonTree.text] using h.symm⟩
  | boolean value =>
      refine ⟨.bool value, .bool value, ?_⟩
      cases value <;> simpa [encode, JsonTree.text] using h.symm
  | number value =>
      obtain ⟨finite, hFinite, hText⟩ := Option.map_eq_some_iff.mp (by simpa [encode] using h)
      exact ⟨.number finite, .number hFinite, hText.symm⟩
  | string value =>
      cases value with
      | wellFormed value =>
          exact ⟨.string value, .string value,
            by simpa [encode, quoted, JsonTree.text] using h.symm⟩
      | withLoneSurrogates points => simp [encode, quoted] at h
  | object address => exact absurd rfl (hLeaf address)
  | _ => simp [encode] at h

theorem encode_sound {fuel : Nat} {ancestors : List Nat} {value : Value ν} {text : List Char}
    (h : encode numbers heap fuel ancestors value = some text) :
    ∃ tree, Represents numbers heap value tree ∧ text = tree.text numbers.toNumerals := by
  induction fuel generalizing ancestors value text with
  | zero =>
      refine leaf_sound (fun address hObject => ?_) h
      subst hObject
      simp [encode] at h
  | succ fuel ih =>
      cases value with
      | object address =>
          rw [encode] at h
          split at h
          · cases h
          · split at h
            · cases h
            · next value hAt =>
                split at h
                · next count hLength =>
                    obtain ⟨values, elements, hArray, hEach, hText⟩ :=
                      encodeArray_sound ih hLength h
                    exact ⟨_, .array values hAt hArray hEach, hText⟩
                · next hLength =>
                    obtain ⟨values, members, hPlain, hEach, hText⟩ :=
                      encodeObject_sound ih hLength h
                    exact ⟨_, .object values hAt hPlain hEach, hText⟩
      | _ => exact leaf_sound (by simp) h

/-! ### Every tree is encoded -/

theorem encodeArray_complete {encode : Value ν → Option (List Char)} {value : Object ν}
    {values : Nat → Value ν} {elements : List (JsonTree ν)}
    (hArray : value.IsArray elements.length values)
    (hEach : ∀ index element, elements[index]? = some element →
      encode (values index) = some (element.text numbers.toNumerals)) :
    encodeArray encode value elements.length =
      some ((JsonTree.array elements).text numbers.toNumerals) := by
  have hShape : ¬ (value.prototype ≠ .array ∨ value.ownKeys.length ≠ elements.length + 1) := by
    simp [hArray.prototype, hArray.keys.length_eq]
  have hEntries : (List.range elements.length).mapM
      (fun index => encodeProperty encode value (indexKey index)) =
        some (elements.map (JsonTree.text numbers.toNumerals)) := by
    have hIndexed : elements.map (JsonTree.text numbers.toNumerals) =
        (List.range elements.length).map fun index =>
          (elements[index]?.map (JsonTree.text numbers.toNumerals)).getD [] :=
      List.ext_getElem (by simp) (by simp +contextual)
    rw [hIndexed]
    refine Traverse.mapM_eq_some_map fun index hRange => ?_
    have hIndex := List.mem_range.mp hRange
    rw [encodeProperty, hArray.data index hIndex, List.getElem?_eq_getElem hIndex]
    exact hEach index _ (List.getElem?_eq_getElem hIndex)
  rw [encodeArray, if_neg hShape, hEntries, JsonTree.text, JsonTree.texts_eq]
  rfl

theorem sortNames_eq {texts : List Text} {names : List String}
    (hPerm : texts.Perm (names.map Text.wellFormed))
    (hSorted : ByBytes names) :
    sortNames texts = names.map Text.wellFormed := by
  have hSortedPerm := (sortNames_perm texts).trans hPerm
  have hInjective : Function.Injective Text.wellFormed := fun _ _ => Text.wellFormed.inj
  have hNodup : (names.map Text.wellFormed).Nodup :=
    hSorted.nodup.map hInjective
  obtain ⟨names', hNames⟩ : sortNames texts ∈ Set.range (List.map Text.wellFormed) := by
    rw [Set.range_list_map]
    intro text hText
    obtain ⟨name, _, rfl⟩ := List.mem_map.mp (hSortedPerm.mem_iff.mp hText)
    exact ⟨name, rfl⟩
  have hSorted' := sorted_of_sortNames (hPerm.nodup_iff.mpr hNodup) hNames.symm
  have hSame := (List.map_perm_map_iff hInjective).mp (hNames ▸ hSortedPerm)
  rw [← hNames, hSorted'.unique hSorted hSame]

theorem encodeObject_complete {encode : Value ν → Option (List Char)} {value : Object ν}
    {values : String → Value ν} {members : List (String × JsonTree ν)}
    (hPlain : value.IsPlain (members.map Prod.fst) values)
    (hEach : ∀ member ∈ members,
      encode (values member.1) = some (member.2.text numbers.toNumerals)) :
    encodeObject encode value = some ((JsonTree.object members).text numbers.toNumerals) := by
  have hShape : ¬ (value.prototype ≠ .none ∧ value.prototype ≠ .object) :=
    fun h => hPlain.prototype.elim h.1 h.2
  obtain ⟨texts, hTexts⟩ : value.ownKeys ∈ Set.range (List.map Key.string) := by
    rw [Set.range_list_map]
    intro key hKey
    obtain ⟨name, _, rfl⟩ := List.mem_map.mp (hPlain.keys.mem_iff.mp hKey)
    exact ⟨.wellFormed name, rfl⟩
  have hNames : value.ownKeys.mapM Key.string? = some texts := by
    have hFound : texts.mapM (Key.string? ∘ Key.string) = some (texts.map id) :=
      Traverse.mapM_eq_some_map fun _ _ => rfl
    rwa [List.map_id, ← List.mapM_map, hTexts] at hFound
  have hKeys := hPlain.keys
  rw [← hTexts] at hKeys
  have hMembers : ((members.map Prod.fst).map Text.wellFormed).mapM (encodeMember encode value) =
      some (members.map fun member =>
        JsonTree.stringText member.1 ++ ':' :: member.2.text numbers.toNumerals) := by
    rw [List.map_map, List.mapM_map]
    refine Traverse.mapM_eq_some_map fun member hMember => ?_
    have hData := hPlain.data member.1 (List.mem_map_of_mem hMember)
    simp [encodeMember, quoted, encodeProperty, hData, hEach member hMember]
  have hSorted : sortNames texts = (members.map Prod.fst).map Text.wellFormed := by
    refine sortNames_eq ?_ hPlain.sorted
    refine (List.map_perm_map_iff fun _ _ => Key.string.inj).mp ?_
    simpa [Function.comp_def] using hKeys
  rw [encodeObject, if_neg hShape, hNames, JsonTree.text, JsonTree.memberTexts_eq]
  change Option.bind ((sortNames texts).mapM (encodeMember encode value)) _ = _
  rw [hSorted, hMembers]
  rfl

/-- The ancestors of a value are apart, and each represents a larger tree if any. -/
structure Inside (numbers : Numbers ν) (heap : List (Object ν)) (fuel : Nat) (ancestors : List Nat)
    (tree : JsonTree ν) : Prop where
  nodup : ancestors.Nodup
  bounded : ∀ address ∈ ancestors, address < heap.length
  fuel : heap.length < fuel + ancestors.length
  larger : ∀ address ∈ ancestors, ∀ tree', Represents numbers heap (.object address) tree' →
    sizeOf tree < sizeOf tree'

theorem Inside.enter {fuel : Nat} {ancestors : List Nat} {tree : JsonTree ν}
    (h : Inside numbers heap fuel ancestors tree) {address : Nat}
    (hRepresents : Represents numbers heap (.object address) tree) {value : Object ν}
    (hAt : heap[address]? = some value) :
    address ∉ ancestors ∧ ∃ rest, fuel = rest + 1 ∧
      ∀ child : JsonTree ν, sizeOf child < sizeOf tree →
        Inside numbers heap rest (address :: ancestors) child := by
  have hNew : address ∉ ancestors := fun hIn => lt_irrefl _ (h.larger address hIn tree hRepresents)
  have hBounded : ∀ place ∈ address :: ancestors, place < heap.length :=
    List.forall_mem_cons.mpr ⟨(List.getElem?_eq_some_iff.mp hAt).1, h.bounded⟩
  have hNodup : (address :: ancestors).Nodup := List.nodup_cons.mpr ⟨hNew, h.nodup⟩
  have hLength : (address :: ancestors).length ≤ heap.length := by
    simpa using (hNodup.subperm fun place hPlace =>
      List.mem_range.mpr (hBounded place hPlace)).length_le
  have hFuel := h.fuel
  simp only [List.length_cons] at hLength
  obtain ⟨rest, rfl⟩ : ∃ rest, fuel = rest + 1 := Nat.exists_eq_succ_of_ne_zero (by omega)
  refine ⟨hNew, rest, rfl, fun child hChild => ⟨hNodup, hBounded, ?_, ?_⟩⟩
  · simp only [List.length_cons]
    omega
  · refine List.forall_mem_cons.mpr ⟨fun tree' hTree' => ?_, fun place hPlace tree' hTree' => ?_⟩
    · rwa [← hRepresents.unique hTree']
    · exact hChild.trans (h.larger place hPlace tree' hTree')

theorem encode_complete {value : Value ν} {tree : JsonTree ν}
    (h : Represents numbers heap value tree) {fuel : Nat} {ancestors : List Nat}
    (hInside : Inside numbers heap fuel ancestors tree) :
    encode numbers heap fuel ancestors value = some (tree.text numbers.toNumerals) := by
  induction h generalizing fuel ancestors with
  | null => simp [encode, JsonTree.text]
  | bool value => cases value <;> simp [encode, JsonTree.text]
  | number hFinite => simp [encode, JsonTree.text, hFinite]
  | string text => simp [encode, quoted, JsonTree.text]
  | @array address value elements values hAt hArray hEach ih =>
      obtain ⟨hNew, rest, rfl, hChild⟩ := hInside.enter (.array values hAt hArray hEach) hAt
      simp only [encode, if_neg hNew, hAt, hArray.length]
      refine encodeArray_complete hArray fun index element hElement => ?_
      refine ih index element hElement (hChild element ?_)
      have hSmaller := List.sizeOf_lt_of_mem (List.mem_of_getElem? hElement)
      simp only [JsonTree.array.sizeOf_spec]
      omega
  | @object address value members values hAt hPlain hEach ih =>
      obtain ⟨hNew, rest, rfl, hChild⟩ := hInside.enter (.object values hAt hPlain hEach) hAt
      simp only [encode, if_neg hNew, hAt, hPlain.length]
      refine encodeObject_complete hPlain fun member hMember => ?_
      refine ih member hMember (hChild member.2 ?_)
      have hSmaller := List.sizeOf_lt_of_mem hMember
      have hPair : sizeOf member.2 < sizeOf member := by
        cases member
        simp
      simp only [JsonTree.object.sizeOf_spec]
      omega

/-- A value is encoded exactly when it is a JSON tree, and then as the text of the tree. -/
theorem canonicalEditorialJson_eq_some_iff {value : Value ν} {bytes : ByteArray} :
    canonicalEditorialJson numbers heap value = some bytes ↔
      ∃ tree, Represents numbers heap value tree ∧ bytes = tree.bytes numbers.toNumerals := by
  constructor
  · intro h
    obtain ⟨text, hText, rfl⟩ := Option.map_eq_some_iff.mp h
    obtain ⟨tree, hTree, rfl⟩ := encode_sound hText
    exact ⟨tree, hTree, rfl⟩
  · rintro ⟨tree, hTree, rfl⟩
    have hInside : Inside numbers heap (heap.length + 1) [] tree :=
      ⟨List.nodup_nil, by simp, by simp, by simp⟩
    simp [canonicalEditorialJson, encode_complete hTree hInside, JsonTree.bytes]

/-- The bytes of a value are those of its one tree: what reads them gets the tree back, whatever
value is that tree has them, other trees have other bytes, and what is no tree has none. -/
theorem canonicalEditorialJson_faithful (numbers : Numbers ν) (heap : List (Object ν))
    (value : Value ν) :
    (canonicalEditorialJson numbers heap value = none ↔
      ∀ tree, ¬ Represents numbers heap value tree) ∧
    ∀ bytes, canonicalEditorialJson numbers heap value = some bytes → ∃ tree,
      (∀ tree', Represents numbers heap value tree' ↔ tree' = tree) ∧
      JsonTree.parseBytes numbers.toNumerals bytes = some tree ∧
      (∀ heap' value', Represents numbers heap' value' tree →
        canonicalEditorialJson numbers heap' value' = some bytes) ∧
      ∀ heap' value' tree' bytes', Represents numbers heap' value' tree' →
        canonicalEditorialJson numbers heap' value' = some bytes' →
          (bytes' = bytes ↔ tree' = tree) := by
  constructor
  · rw [Option.eq_none_iff_forall_not_mem]
    constructor
    · intro hNone tree hTree
      exact hNone _ (canonicalEditorialJson_eq_some_iff.mpr ⟨tree, hTree, rfl⟩)
    · intro hNone bytes hBytes
      obtain ⟨tree, hTree, _⟩ := canonicalEditorialJson_eq_some_iff.mp hBytes
      exact hNone tree hTree
  · intro bytes hBytes
    obtain ⟨tree, hTree, rfl⟩ := canonicalEditorialJson_eq_some_iff.mp hBytes
    refine ⟨tree, fun tree' => ⟨fun h => h.unique hTree, fun h => h ▸ hTree⟩,
      JsonTree.parseBytes_bytes _ hTree.distinct, ?_, ?_⟩
    · exact fun heap' value' h => canonicalEditorialJson_eq_some_iff.mpr ⟨tree, h, rfl⟩
    · intro heap' value' tree' bytes' hTree' hBytes'
      obtain ⟨other, hOther, rfl⟩ := canonicalEditorialJson_eq_some_iff.mp hBytes'
      obtain rfl := hOther.unique hTree'
      exact ⟨JsonTree.bytes_injective _ hTree'.distinct hTree.distinct, fun h => h ▸ rfl⟩

/-- The numbers of one digit. -/
def digits : Numbers (Fin 10) where
  spell value := [Nat.digitChar value]
  read text := (List.finRange 10).find? fun value => [Nat.digitChar value] = text
  isNumeral_spell := by simp only [List.forall_mem_singleton]; decide
  spell_ne_nil := by decide
  read_spell := by decide
  zero := 0

/-- An object that lists its second key first, and an array in it. -/
def draft : List (Object (Fin 10)) :=
  [{ length := none
     prototype := .object
     properties := [(.string (.wellFormed "tags"), ⟨true, some (.object 1)⟩),
       (.string (.wellFormed "rank"), ⟨true, some (.number .negativeZero)⟩)]
     distinct := by decide
     lengthKey_mem := by simp },
   { length := some 1
     prototype := .array
     properties := [(indexKey 0, ⟨true, some (.boolean true)⟩),
       (lengthKey, ⟨false, some (.number (.finite 1))⟩)]
     distinct := by decide
     lengthKey_mem := by decide }]

def draftText : String :=
  "\x7b\x22rank\x22:0,\x22tags\x22:[true]\x7d"

theorem encode_draft :
    encode digits draft (draft.length + 1) [] (.object 0) = some draftText.toList := by
  decide

theorem canonicalEditorialJson_faithful_of_draft : ∃ tree,
    JsonTree.parseBytes digits.toNumerals draftText.toUTF8 = some tree ∧
      ∀ heap' value', Represents digits heap' value' tree →
        canonicalEditorialJson digits heap' value' = some draftText.toUTF8 := by
  have hBytes : canonicalEditorialJson digits draft (.object 0) = some draftText.toUTF8 := by
    rw [canonicalEditorialJson, encode_draft]
    simp
  obtain ⟨tree, _, hParse, hSame, _⟩ :=
    (canonicalEditorialJson_faithful digits draft (.object 0)).2 _ hBytes
  exact ⟨tree, hParse, hSame⟩

end Houndfe.CanonicalJson
