import Mathlib.Data.List.Forall2
import VectorBench.Proofs.Json.Document

/-!
# JSON documents with any names

The whole grammar of JSON: the names of members are any strings, also ones that denote no text
because a surrogate in them stands alone.  Every document whose names denote texts is one of these,
with the same text.

What a value says of a structure is said here for both ways of writing it, as an object that names
the fields and as an array of their values.

    v.raw.text = v.text                                                                    (raw_text)
    RawValue.only (rawMembers members) key = (only members key).map Value.raw              (only_raw)
-/

namespace VectorBench.Json

/-- A member under any name, with the blanks around its parts. -/
structure RawMember (α : Type) where
  before : List Blank
  pieces : List StringPiece
  beforeColon : List Blank
  afterColon : List Blank
  value : α
  after : List Blank

/-- The name that a member has, if its string denotes a text. -/
def RawMember.name? {α : Type} (m : RawMember α) : Option String :=
  (denoted m.pieces).map String.ofList

/-- A value.  `inside` are blanks behind the opening bracket, which are all there is when nothing
else is inside. -/
inductive RawValue where
  | null
  | bool (value : Bool)
  | number (literal : NumberLiteral)
  | string (pieces : List StringPiece)
  | array (inside : List Blank) (elements : List (Element RawValue))
  | object (inside : List Blank) (members : List (RawMember RawValue))

namespace RawValue

mutual
def text : RawValue → List Char
  | null => ['n', 'u', 'l', 'l']
  | bool true => ['t', 'r', 'u', 'e']
  | bool false => ['f', 'a', 'l', 's', 'e']
  | number literal => literal.text
  | string pieces => stringLiteral pieces
  | array inside elements => '[' :: (blankText inside ++ (elementsText true elements ++ [']']))
  | object inside members => '{' :: (blankText inside ++ (membersText true members ++ ['}']))

/-- The text of elements, with a comma before each but the `first`. -/
def elementsText (first : Bool) : List (Element RawValue) → List Char
  | [] => []
  | ⟨before, value, after⟩ :: rest =>
    (if first then [] else [',']) ++
      (blankText before ++ (text value ++ (blankText after ++ elementsText false rest)))

/-- The text of members, with a comma before each but the `first`. -/
def membersText (first : Bool) : List (RawMember RawValue) → List Char
  | [] => []
  | ⟨before, pieces, beforeColon, afterColon, value, after⟩ :: rest =>
    (if first then [] else [',']) ++
      (blankText before ++ (stringLiteral pieces ++ (blankText beforeColon ++ (':' ::
        (blankText afterColon ++ (text value ++ (blankText after ++ membersText false rest)))))))
end

def IsObject : RawValue → Prop
  | object _ _ => True
  | _ => False

def IsArray : RawValue → Prop
  | array _ _ => True
  | _ => False

/-- The one value that members have under a name, if there is exactly one member of that name. -/
def only (members : List (RawMember RawValue)) (name : String) : Option RawValue :=
  match members.filter (·.name? == some name) with
  | [member] => some member.value
  | _ => none

/-- What a value says of a structure with some fields.  An object has each of them once, among
members of which every name denotes a text.  An array, where `lists` are allowed, has their values
in order and nothing else. -/
inductive Gives (lists : Prop) (fields : List (String × (RawValue → Prop))) : RawValue → Prop
  | named {inside : List Blank} {members : List (RawMember RawValue)} :
    (∀ m ∈ members, m.name? ≠ none) →
    (∀ field ∈ fields, ∃ w, only members field.1 = some w ∧ field.2 w) →
    Gives lists fields (object inside members)
  | listed {inside : List Blank} {elements : List (Element RawValue)} : lists →
    List.Forall₂ (fun e field => field.2 e.value) elements fields →
    Gives lists fields (array inside elements)

end RawValue

/-- A value with blanks around it. -/
structure RawDocument where
  before : List Blank
  value : RawValue
  after : List Blank

def RawDocument.text (d : RawDocument) : List Char :=
  blankText d.before ++ (d.value.text ++ blankText d.after)

/-! ## Members by their names -/

namespace RawValue

variable {m : RawMember RawValue} {members : List (RawMember RawValue)} {name : String}
  {w : RawValue}

theorem only_cons_of_ne (h : m.name? ≠ some name) : only (m :: members) name = only members name := by
  unfold only
  rw [List.filter_cons_of_neg (by simpa using h)]

theorem only_cons_of_eq (h : m.name? = some name) :
    only (m :: members) name = some w ↔
      w = m.value ∧ members.filter (·.name? == some name) = [] := by
  unfold only
  rw [List.filter_cons_of_pos (by simpa using h)]
  cases members.filter (·.name? == some name) with
  | nil => simp [eq_comm]
  | cons m' more => simp

theorem filter_eq_of_only (h : only members name = some w) :
    ∃ m, members.filter (·.name? == some name) = [m] ∧ m.value = w := by
  unfold only at h
  split at h
  · rename_i m hm
    exact ⟨m, hm, Option.some.inj h⟩
  · cases h

theorem exists_member_of_only (h : only members name = some w) :
    ∃ m ∈ members, m.name? = some name ∧ m.value = w := by
  obtain ⟨m, hm, hvalue⟩ := filter_eq_of_only h
  have hmem : m ∈ members.filter (·.name? == some name) := hm ▸ List.mem_singleton_self m
  obtain ⟨hin, hname⟩ := List.mem_filter.1 hmem
  exact ⟨m, hin, eq_of_beq hname, hvalue⟩

theorem value_eq_of_only (h : only members name = some w) (hm : m ∈ members)
    (hname : m.name? = some name) : m.value = w := by
  obtain ⟨sole, hsole, hvalue⟩ := filter_eq_of_only h
  have hmem : m ∈ members.filter (·.name? == some name) :=
    List.mem_filter.2 ⟨hm, beq_iff_eq.2 hname⟩
  rw [hsole, List.mem_singleton] at hmem
  rw [hmem, hvalue]

end RawValue

/-! ## Documents whose names denote texts -/

mutual
/-- A value, with its names among all strings. -/
def Value.raw : Value → RawValue
  | .null => .null
  | .bool b => .bool b
  | .number literal => .number literal
  | .string pieces => .string pieces
  | .array inside elements => .array inside (rawElements elements)
  | .object inside members => .object inside (rawMembers members)

def rawElements : List (Element Value) → List (Element RawValue)
  | [] => []
  | ⟨before, value, after⟩ :: rest => ⟨before, Value.raw value, after⟩ :: rawElements rest

def rawMembers : List (Member Value) → List (RawMember RawValue)
  | [] => []
  | ⟨before, name, beforeColon, afterColon, value, after⟩ :: rest =>
    ⟨before, name.pieces, beforeColon, afterColon, Value.raw value, after⟩ :: rawMembers rest
end

def Member.raw (m : Member Value) : RawMember RawValue :=
  ⟨m.before, m.name.pieces, m.beforeColon, m.afterColon, m.value.raw, m.after⟩

def Document.raw (d : Document) : RawDocument := ⟨d.before, d.value.raw, d.after⟩

mutual
theorem raw_text (v : Value) : v.raw.text = v.text := by
  match v with
  | .null => rfl
  | .bool true => rfl
  | .bool false => rfl
  | .number _ => rfl
  | .string _ => rfl
  | .array inside elements =>
    rw [Value.raw, RawValue.text, Value.text, rawElements_text true elements]
  | .object inside members =>
    rw [Value.raw, RawValue.text, Value.text, rawMembers_text true members]

theorem rawElements_text (first : Bool) (elements : List (Element Value)) :
    RawValue.elementsText first (rawElements elements) = Value.elementsText first elements := by
  match elements with
  | [] => rfl
  | ⟨before, value, after⟩ :: rest =>
    rw [rawElements, RawValue.elementsText, Value.elementsText, raw_text value,
      rawElements_text false rest]

theorem rawMembers_text (first : Bool) (members : List (Member Value)) :
    RawValue.membersText first (rawMembers members) = Value.membersText first members := by
  match members with
  | [] => rfl
  | ⟨before, name, beforeColon, afterColon, value, after⟩ :: rest =>
    rw [rawMembers, RawValue.membersText, Value.membersText, raw_text value,
      rawMembers_text false rest]
end

theorem Document.raw_text (d : Document) : d.raw.text = d.text := by
  rw [RawDocument.text, Document.text, raw, Json.raw_text]

theorem rawMembers_eq_map (members : List (Member Value)) :
    rawMembers members = members.map Member.raw := by
  induction members with
  | nil => rfl
  | cons m members ih =>
    rw [rawMembers, ih]
    rfl

theorem Member.raw_name? (m : Member Value) : m.raw.name? = some m.name.text := by
  rw [RawMember.name?, Member.raw, m.name.denotes, Option.map_some, String.ofList_toList]

theorem only_raw (members : List (Member Value)) (key : String) :
    RawValue.only (rawMembers members) key = (Json.only members key).map Value.raw := by
  have hfilter : (members.map Member.raw).filter (·.name? == some key) =
      (members.filter (·.name.text == key)).map Member.raw := by
    rw [List.filter_map]
    congr 1
    refine List.filter_congr fun m _ => ?_
    rw [Function.comp_apply, m.raw_name?, Option.some_beq_some]
  rw [rawMembers_eq_map, RawValue.only, hfilter, Json.only]
  cases members.filter (·.name.text == key) with
  | nil => rfl
  | cons m more => cases more <;> rfl

end VectorBench.Json
