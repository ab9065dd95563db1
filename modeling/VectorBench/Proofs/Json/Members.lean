import Mathlib.Data.List.Nodup
import VectorBench.Proofs.Json.Typed

/-!
# Reading structures as they are written

A structure is read from the members of an object: from the one member of every field's name, in
whatever order they stand.  Other members are passed over.  A field that is missing or there more
than once is at fault, and so is a name that denotes no text.  A structure is also read from an array
of just the values of its fields, in their order.

What a shape means is a `Meaning`: for every field what its values say of the structure, and the
laws by which one field leaves the others alone.  From these laws alone follows what is read.

    M.collect v = some a ↔ M.Kept a ∧ v.Gives True (M.fieldsOf a)             (Meaning.collect_eq_some_iff)
    Yields (s.read c) (M.collect v) rest, for c at the value v                         (Meaning.read_text)
-/

namespace VectorBench.Json

variable {c : Cursor} {blanks inside : List Blank} {rest tail : List Char} {x : Char}

/-! ## Keys and colons -/

/-- What stands behind the name of a member. -/
def RawMember.behindName (m : RawMember RawValue) (rest : List Char) : List Char :=
  blankText m.beforeColon ++ ':' :: (blankText m.afterColon ++ (m.value.text ++
    (blankText m.after ++ rest)))

theorem readKey_text {pieces : List StringPiece} (h : c.rest = stringLiteral pieces ++ rest) :
    Yields ((readString .kept c.advance).map fun (key, c) => (some key, c))
      (((denoted pieces).map String.ofList).map some) rest := by
  have h : c.rest = '"' :: (pieces.flatMap StringPiece.text ++ '"' :: rest) := by
    rw [h]
    simp [stringLiteral]
  exact (readString_kept (advance_rest h)).map some

theorem nextKey_first {m : RawMember RawValue} {members : List (RawMember RawValue)}
    (h : c.rest = blankText blanks ++ (RawValue.membersText true (m :: members) ++ rest)) :
    Yields (nextKey true c) (m.name?.map some)
      (m.behindName (RawValue.membersText false members ++ rest)) := by
  obtain ⟨before, pieces, beforeColon, afterColon, value, after⟩ := m
  simp only [RawValue.membersText, if_true, List.nil_append, List.append_assoc, List.cons_append,
    blankText_append blanks before] at h
  have hskip := skipBlanks_rest_eq h rfl
  have hread := readKey_text hskip
  unfold nextKey
  simp only [hskip]
  exact hread

theorem nextKey_comma {m : RawMember RawValue} {members : List (RawMember RawValue)}
    (h : c.rest = blankText blanks ++ (RawValue.membersText false (m :: members) ++ rest)) :
    Yields (nextKey false c) (m.name?.map some)
      (m.behindName (RawValue.membersText false members ++ rest)) := by
  obtain ⟨before, pieces, beforeColon, afterColon, value, after⟩ := m
  simp only [RawValue.membersText, Bool.false_eq_true, if_false, List.append_assoc,
    List.cons_append, List.nil_append] at h
  have hcomma := skipBlanks_rest_eq h rfl
  have hskip := skipBlanks_rest_eq (advance_rest hcomma) rfl
  have hread := readKey_text hskip
  unfold nextKey
  simp only [hcomma, hskip]
  exact hread

theorem nextKey_text (first : Bool) {m : RawMember RawValue} {members : List (RawMember RawValue)}
    (h : c.rest = blankText blanks ++ (RawValue.membersText first (m :: members) ++ rest)) :
    Yields (nextKey first c) (m.name?.map some)
      (m.behindName (RawValue.membersText false members ++ rest)) := by
  cases first
  · exact nextKey_comma h
  · exact nextKey_first h

theorem nextKey_end (first : Bool) (h : c.rest = blankText blanks ++ '}' :: rest) :
    Yields (nextKey first c) (some none) ('}' :: rest) := by
  have hskip := skipBlanks_rest_eq h rfl
  refine ⟨c.skipBlanks, ?_, hskip⟩
  unfold nextKey
  simp only [hskip, if_true]

theorem readColon_text (h : c.rest = blankText blanks ++ ':' :: rest) :
    Yields (readColon c) (some ()) rest := by
  have hskip := skipBlanks_rest_eq h rfl
  refine ⟨c.skipBlanks.advance, ?_, advance_rest hskip⟩
  unfold readColon
  simp only [hskip, if_true]

/-! ## Elements -/

theorem nextElement_text (first : Bool) {e : Element RawValue} {elements : List (Element RawValue)}
    (h : c.rest = blankText blanks ++ (RawValue.elementsText first (e :: elements) ++ rest)) :
    Yields (Shape.nextElement first c) (some true) (e.value.text ++ (blankText e.after ++
      (RawValue.elementsText false elements ++ rest))) := by
  obtain ⟨before, value, after⟩ := e
  obtain ⟨x, tail, hx, hblank, hclose, -⟩ := value.text_head
    (blankText after ++ (RawValue.elementsText false elements ++ rest))
  unfold Shape.nextElement
  cases first with
  | true =>
    simp only [RawValue.elementsText, if_true, List.nil_append, List.append_assoc,
      blankText_append blanks before] at h
    rw [hx] at h ⊢
    have hskip := skipBlanks_rest_eq h hblank
    simp only [hskip, if_neg hclose]
    exact ⟨_, rfl, hskip⟩
  | false =>
    simp only [RawValue.elementsText, Bool.false_eq_true, if_false, List.append_assoc,
      List.cons_append, List.nil_append] at h
    have hcomma := skipBlanks_rest_eq h rfl
    have hnext := advance_rest hcomma
    rw [hx] at hnext ⊢
    have hskip := skipBlanks_rest_eq hnext hblank
    simp only [hcomma, hskip, if_neg hclose]
    exact ⟨_, rfl, hskip⟩

theorem nextElement_end (first : Bool) (h : c.rest = blankText blanks ++ ']' :: rest) :
    Yields (Shape.nextElement first c) (some false) (']' :: rest) := by
  have hskip := skipBlanks_rest_eq h rfl
  refine ⟨c.skipBlanks, ?_, hskip⟩
  unfold Shape.nextElement
  simp only [hskip, if_true]

theorem readListEnd_text (h : c.rest = blankText blanks ++ ']' :: rest) :
    Yields (Shape.readListEnd c) (some ()) rest := by
  have hskip := skipBlanks_rest_eq h rfl
  refine ⟨c.skipBlanks.advance, ?_, advance_rest hskip⟩
  unfold Shape.readListEnd
  simp only [hskip]

/-- A list ends with its closing bracket only. -/
theorem readListEnd_error (hskip : c.skipBlanks.rest = x :: tail) (hx : x ≠ ']') :
    ∃ e, Shape.readListEnd c = .error e := by
  unfold Shape.readListEnd
  simp only
  split
  · exact ⟨_, rfl⟩
  · rename_i hclose
    rw [hskip] at hclose
    exact absurd (List.cons.inj hclose).1 hx
  · split
    · exact ⟨_, rfl⟩
    · exact ⟨_, rfl⟩
  · exact ⟨_, rfl⟩

theorem readListEnd_cons (first : Bool) {e : Element RawValue} {elements : List (Element RawValue)}
    (h : c.rest = blankText blanks ++ (RawValue.elementsText first (e :: elements) ++ rest)) :
    ∃ e, Shape.readListEnd c = .error e := by
  obtain ⟨before, value, after⟩ := e
  cases first with
  | true =>
    obtain ⟨x, tail, hx, hblank, hclose, -⟩ := value.text_head
      (blankText after ++ (RawValue.elementsText false elements ++ rest))
    simp only [RawValue.elementsText, if_true, List.nil_append, List.append_assoc,
      blankText_append blanks before] at h
    rw [hx] at h
    exact readListEnd_error (skipBlanks_rest_eq h hblank) hclose
  | false =>
    simp only [RawValue.elementsText, Bool.false_eq_true, if_false, List.append_assoc,
      List.cons_append, List.nil_append] at h
    exact readListEnd_error (skipBlanks_rest_eq h rfl) (by decide)

/-! ## What shapes mean -/

variable {m : RawMember RawValue} {members : List (RawMember RawValue)}
  {elements : List (Element RawValue)} {key : String}

/-- A field of a structure and what its values mean: `Holds v a` says that `a` has in this field what
`v` says. -/
structure FieldMeaning (α : Type) where
  field : Shape.Field α
  change : RawValue → Option (α → α)
  Holds : RawValue → α → Prop
  reads : ∀ {v : RawValue} {c : Cursor} {blanks : List Blank} {rest : List Char}, Ends rest →
    c.rest = blankText blanks ++ (v.text ++ rest) → Yields (field.read c) (change v) rest
  holds : ∀ {v : RawValue} {g : α → α} (a : α), change v = some g → Holds v (g a)
  exists_change : ∀ {v : RawValue} {a : α}, Holds v a → ∃ g, change v = some g

def FieldMeaning.name {α : Type} (p : FieldMeaning α) : String := p.field.name

/-- What the fields of a shape mean, one by one and together. -/
structure Meaning {α : Type} (s : Shape α) where
  parts : List (FieldMeaning α)
  fields_eq : s.fields = parts.map FieldMeaning.field
  nodup : (parts.map FieldMeaning.name).Nodup
  /-- What no field changes. -/
  Kept : α → Prop
  kept_blank : Kept s.blank
  kept_change : ∀ {p : FieldMeaning α} {v : RawValue} {g : α → α} {a : α}, p ∈ parts →
    p.change v = some g → Kept a → Kept (g a)
  holds_change : ∀ {p q : FieldMeaning α} {v w : RawValue} {g : α → α} {a : α}, p ∈ parts →
    q ∈ parts → p.name ≠ q.name → q.change w = some g → p.Holds v a → p.Holds v (g a)
  ext : ∀ {a b : α}, Kept a → Kept b → (∀ p ∈ parts, ∃ v, p.Holds v a ∧ p.Holds v b) → a = b

namespace Meaning

variable {α : Type} {s : Shape α} (M : Meaning s) {seen : List String} {value a b : α}

def part? (key : String) : Option (FieldMeaning α) := M.parts.find? fun p => p.name == key

/-- What the members say of a structure that is `value` so far; `seen` are the fields set before. -/
def collectFrom (seen : List String) (value : α) : List (RawMember RawValue) → Option α
  | [] => if ∀ p ∈ M.parts, p.name ∈ seen then some value else none
  | m :: members =>
    match m.name? with
    | none => none
    | some key =>
      match M.part? key with
      | none => collectFrom seen value members
      | some p =>
        if key ∈ seen then none
        else
          match p.change m.value with
          | none => none
          | some g => collectFrom (key :: seen) (g value) members

/-- What elements say of a structure that is `value` so far, when they are the values of just the
given fields in their order. -/
def collectElements : List (FieldMeaning α) → α → List (Element RawValue) → Option α
  | [], value, [] => some value
  | p :: parts, value, e :: elements =>
    match p.change e.value with
    | none => none
    | some g => collectElements parts (g value) elements
  | _, _, _ => none

/-- What a value says of a structure. -/
def collect : RawValue → Option α
  | .object _ members => M.collectFrom [] s.blank members
  | .array _ elements => collectElements M.parts s.blank elements
  | _ => none

/-- The fields of a structure, with what their values are to say. -/
def fieldsOf (a : α) : List (String × (RawValue → Prop)) :=
  M.parts.map fun p => (p.name, fun v => p.Holds v a)

variable {M}

theorem name_ne_of_part?_eq_none (h : M.part? key = none) {p : FieldMeaning α} (hp : p ∈ M.parts) :
    key ≠ p.name := by
  rintro rfl
  have := List.find?_eq_none.1 h p hp
  simp at this

theorem mem_of_part?_eq_some {p : FieldMeaning α} (h : M.part? key = some p) :
    p ∈ M.parts ∧ p.name = key := by
  refine ⟨List.mem_of_find?_eq_some h, ?_⟩
  simpa using List.find?_some h

/-- Parts are told apart by their names. -/
theorem eq_of_name_eq {p q : FieldMeaning α} (hp : p ∈ M.parts) (hq : q ∈ M.parts) (h : p.name = q.name) :
    p = q :=
  List.inj_on_of_nodup_map M.nodup hp hq h

/-! ## Members -/

/-- How a field comes through members: one that was set before is not set again and keeps what it
has, and any other one is set once. -/
structure SetOnce (p : FieldMeaning α) (seen : List String) (members : List (RawMember RawValue))
    (value a : α) : Prop where
  kept : p.name ∈ seen → members.filter (·.name? == some p.name) = [] ∧
    ∀ v, p.Holds v value → p.Holds v a
  set : p.name ∉ seen → ∃ v, RawValue.only members p.name = some v ∧ p.Holds v a

/-- A member of another name that changes nothing. -/
theorem SetOnce.cons_unknown {p : FieldMeaning α} (hne : m.name? ≠ some p.name)
    (h : SetOnce p seen members value a) : SetOnce p seen (m :: members) value a := by
  constructor
  · rw [List.filter_cons_of_neg (by simpa using hne)]
    exact h.kept
  · rw [RawValue.only_cons_of_ne hne]
    exact h.set

/-- The member that sets the field. -/
theorem SetOnce.cons_this {p : FieldMeaning α} {g : α → α} (hname : m.name? = some p.name)
    (hseen : p.name ∉ seen) (hchange : p.change m.value = some g)
    (h : SetOnce p (p.name :: seen) members (g value) a) :
    SetOnce p seen (m :: members) value a := by
  obtain ⟨hnone, hholds⟩ := h.kept List.mem_cons_self
  constructor
  · intro hin
    exact absurd hin hseen
  · intro _
    exact ⟨m.value, (RawValue.only_cons_of_eq hname).2 ⟨rfl, hnone⟩, hholds _ (p.holds value hchange)⟩

/-- A member that sets another field. -/
theorem SetOnce.cons_other {p q : FieldMeaning α} {g : α → α} (hp : p ∈ M.parts) (hq : q ∈ M.parts)
    (hname : m.name? = some q.name) (hne : p.name ≠ q.name)
    (hchange : q.change m.value = some g)
    (h : SetOnce p (q.name :: seen) members (g value) a) :
    SetOnce p seen (m :: members) value a := by
  have hother : m.name? ≠ some p.name := by
    rw [hname]
    exact fun he => hne (Option.some.inj he).symm
  constructor
  · rw [List.filter_cons_of_neg (by simpa using hother)]
    intro hin
    obtain ⟨hnone, hholds⟩ := h.kept (List.mem_cons_of_mem _ hin)
    exact ⟨hnone, fun v hv => hholds v (M.holds_change hp hq hne hchange hv)⟩
  · rw [RawValue.only_cons_of_ne hother]
    intro hnot
    refine h.set fun hin => ?_
    rcases List.mem_cons.1 hin with he | hin
    · exact hne he
    · exact hnot hin

/-- Members of which a structure is collected have names, and set every field once. -/
theorem setOnce_of_collectFrom (h : M.collectFrom seen value members = some a) (hk : M.Kept value) :
    M.Kept a ∧ (∀ m ∈ members, m.name? ≠ none) ∧
      ∀ p ∈ M.parts, SetOnce p seen members value a := by
  induction members generalizing seen value with
  | nil =>
    unfold collectFrom at h
    split at h
    · rename_i hall
      cases h
      exact ⟨hk, List.forall_mem_nil _,
        fun p hp => ⟨fun _ => ⟨rfl, fun _ hv => hv⟩, fun hn => absurd (hall p hp) hn⟩⟩
    · cases h
  | cons m members ih =>
    simp only [collectFrom] at h
    cases hkey : m.name? with
    | none =>
      simp only [hkey] at h
      cases h
    | some key =>
      have hnamed : m.name? ≠ none := hkey ▸ Option.some_ne_none key
      simp only [hkey] at h
      cases hpart : M.part? key with
      | none =>
        simp only [hpart] at h
        obtain ⟨hkept, hnames, hparts⟩ := ih h hk
        refine ⟨hkept, List.forall_mem_cons.2 ⟨hnamed, hnames⟩, fun p hp => ?_⟩
        refine (hparts p hp).cons_unknown fun he => ?_
        exact name_ne_of_part?_eq_none hpart hp (Option.some.inj (hkey.symm.trans he))
      | some q =>
        obtain ⟨hq, rfl⟩ := mem_of_part?_eq_some hpart
        simp only [hpart] at h
        split at h
        · cases h
        · rename_i hseen
          cases hchange : q.change m.value with
          | none =>
            simp only [hchange] at h
            cases h
          | some g =>
            simp only [hchange] at h
            obtain ⟨hkept, hnames, hparts⟩ := ih h (M.kept_change hq hchange hk)
            refine ⟨hkept, List.forall_mem_cons.2 ⟨hnamed, hnames⟩, fun p hp => ?_⟩
            by_cases hpq : p.name = q.name
            · obtain rfl : p = q := eq_of_name_eq hp hq hpq
              exact (hparts p hp).cons_this hkey hseen hchange
            · exact (hparts p hp).cons_other hp hq hkey hpq hchange

/-- Members that have names and set every field once make a structure. -/
theorem exists_collectFrom (hnames : ∀ m ∈ members, m.name? ≠ none) (h : ∀ p ∈ M.parts,
      (p.name ∈ seen → members.filter (·.name? == some p.name) = []) ∧
      (p.name ∉ seen → ∃ v g, RawValue.only members p.name = some v ∧ p.change v = some g)) :
    ∃ a, M.collectFrom seen value members = some a := by
  induction members generalizing seen value with
  | nil =>
    refine ⟨value, if_pos fun p hp => ?_⟩
    by_contra hnot
    obtain ⟨v, g, hv, -⟩ := (h p hp).2 hnot
    cases hv
  | cons m members ih =>
    obtain ⟨hnamed, hnames⟩ := List.forall_mem_cons.1 hnames
    obtain ⟨key, hkey⟩ := Option.ne_none_iff_exists'.1 hnamed
    simp only [collectFrom, hkey]
    cases hpart : M.part? key with
    | none =>
      refine ih hnames fun p hp => ?_
      have hne : m.name? ≠ some p.name := fun he =>
        name_ne_of_part?_eq_none hpart hp (Option.some.inj (hkey.symm.trans he))
      have := h p hp
      rwa [List.filter_cons_of_neg (by simpa using hne), RawValue.only_cons_of_ne hne] at this
    | some q =>
      obtain ⟨hq, rfl⟩ := mem_of_part?_eq_some hpart
      have hseen : q.name ∉ seen := by
        intro hin
        have hnil := (h q hq).1 hin
        rw [List.filter_cons_of_pos (by simpa using hkey)] at hnil
        cases hnil
      obtain ⟨v, g, hv, hchange⟩ := (h q hq).2 hseen
      obtain ⟨rfl, hnone⟩ := (RawValue.only_cons_of_eq hkey).1 hv
      simp only [if_neg hseen, hchange]
      refine ih hnames fun p hp => ?_
      by_cases hpq : p.name = q.name
      · rw [hpq]
        exact ⟨fun _ => hnone, fun hnot => absurd List.mem_cons_self hnot⟩
      · have hne : m.name? ≠ some p.name := by
          rw [hkey]
          exact fun he => hpq (Option.some.inj he).symm
        have hp' := h p hp
        rw [List.filter_cons_of_neg (by simpa using hne), RawValue.only_cons_of_ne hne] at hp'
        refine ⟨fun hin => hp'.1 ?_, fun hnot => hp'.2 fun hin => hnot (List.mem_cons_of_mem _ hin)⟩
        exact (List.mem_cons.1 hin).resolve_left hpq

/-! ## Elements -/

/-- Elements of which a structure is collected set the given fields in their order, and leave the
others alone. -/
theorem holds_of_collectElements {parts : List (FieldMeaning α)} (hparts : ∀ p ∈ parts, p ∈ M.parts)
    (hnodup : (parts.map FieldMeaning.name).Nodup)
    (h : collectElements parts value elements = some a) (hk : M.Kept value) :
    M.Kept a ∧ List.Forall₂ (fun e p => p.Holds e.value a) elements parts ∧
      ∀ q ∈ M.parts, q.name ∉ parts.map FieldMeaning.name → ∀ v, q.Holds v value → q.Holds v a := by
  induction parts generalizing value elements with
  | nil =>
    cases elements with
    | nil =>
      cases h
      exact ⟨hk, .nil, fun _ _ _ _ hv => hv⟩
    | cons e elements => cases h
  | cons p parts ih =>
    cases elements with
    | nil => cases h
    | cons e elements =>
      obtain ⟨hp, hparts⟩ := List.forall_mem_cons.1 hparts
      obtain ⟨hnew, hnodup⟩ := List.nodup_cons.1 hnodup
      simp only [collectElements] at h
      cases hchange : p.change e.value with
      | none =>
        simp only [hchange] at h
        cases h
      | some g =>
        simp only [hchange] at h
        obtain ⟨hkept, hall, hothers⟩ := ih hparts hnodup h (M.kept_change hp hchange hk)
        refine ⟨hkept, .cons (hothers p hp hnew _ (p.holds value hchange)) hall, ?_⟩
        intro q hq hnot v hv
        have hne : q.name ≠ p.name := fun he => hnot (he ▸ List.mem_cons_self)
        exact hothers q hq (fun hin => hnot (List.mem_cons_of_mem _ hin)) v
          (M.holds_change hq hp hne hchange hv)

theorem exists_collectElements {parts : List (FieldMeaning α)}
    (h : List.Forall₂ (fun e p => p.Holds e.value a) elements parts) :
    ∃ b, collectElements parts value elements = some b := by
  induction h generalizing value with
  | nil => exact ⟨value, rfl⟩
  | @cons e p _ _ hholds _ ih =>
    obtain ⟨g, hg⟩ := p.exists_change hholds
    simp only [collectElements, hg]
    exact ih

/-! ## Values -/

variable {v : RawValue}

theorem gives_of_collect (h : M.collect v = some a) : M.Kept a ∧ v.Gives True (M.fieldsOf a) := by
  cases v with
  | object inside members =>
    obtain ⟨hkept, hnames, hparts⟩ := setOnce_of_collectFrom h M.kept_blank
    refine ⟨hkept, .named hnames ?_⟩
    rw [fieldsOf, List.forall_mem_map]
    exact fun p hp => (hparts p hp).set List.not_mem_nil
  | array inside elements =>
    obtain ⟨hkept, hall, -⟩ := holds_of_collectElements (fun _ hp => hp) M.nodup h M.kept_blank
    refine ⟨hkept, .listed trivial ?_⟩
    rw [fieldsOf, List.forall₂_map_right_iff]
    exact hall
  | _ => cases h

theorem exists_collect (h : v.Gives True (M.fieldsOf a)) : ∃ b, M.collect v = some b := by
  cases h with
  | named hnames hfields =>
    rw [fieldsOf, List.forall_mem_map] at hfields
    refine exists_collectFrom hnames fun p hp => ⟨fun hin => absurd hin List.not_mem_nil, fun _ => ?_⟩
    obtain ⟨w, hw, hholds⟩ := hfields p hp
    obtain ⟨g, hg⟩ := p.exists_change hholds
    exact ⟨w, g, hw, hg⟩
  | listed _ hall =>
    rw [fieldsOf, List.forall₂_map_right_iff] at hall
    exact exists_collectElements hall

theorem exists_of_forall₂ {β γ : Type} {P Q : β → γ → Prop} {xs : List β} {ys : List γ}
    (hP : List.Forall₂ P xs ys) (hQ : List.Forall₂ Q xs ys) : ∀ y ∈ ys, ∃ x, P x y ∧ Q x y := by
  induction hP with
  | nil => exact List.forall_mem_nil _
  | cons hp _ ih =>
    obtain ⟨hq, hQ⟩ := List.forall₂_cons.1 hQ
    exact List.forall_mem_cons.2 ⟨⟨_, hp, hq⟩, ih hQ⟩

/-- A value says one thing of a structure. -/
theorem eq_of_gives (ha : M.Kept a) (hb : M.Kept b) (h : v.Gives True (M.fieldsOf a))
    (h' : v.Gives True (M.fieldsOf b)) : a = b := by
  refine M.ext ha hb fun p hp => ?_
  cases h with
  | named _ hfields =>
    cases h' with
    | named _ hfields' =>
      rw [fieldsOf, List.forall_mem_map] at hfields hfields'
      obtain ⟨w, hw, hholds⟩ := hfields p hp
      obtain ⟨w', hw', hholds'⟩ := hfields' p hp
      obtain rfl : w = w' := Option.some.inj (hw.symm.trans hw')
      exact ⟨w, hholds, hholds'⟩
  | listed _ hall =>
    cases h' with
    | listed _ hall' =>
      rw [fieldsOf, List.forall₂_map_right_iff] at hall hall'
      obtain ⟨e, hholds, hholds'⟩ := exists_of_forall₂ hall hall' p hp
      exact ⟨e.value, hholds, hholds'⟩

/-- A structure is collected exactly from the values that give its fields. -/
theorem collect_eq_some_iff :
    M.collect v = some a ↔ M.Kept a ∧ v.Gives True (M.fieldsOf a) := by
  constructor
  · exact gives_of_collect
  · rintro ⟨hkept, hgives⟩
    obtain ⟨b, hb⟩ := exists_collect hgives
    obtain ⟨hkept', hgives'⟩ := gives_of_collect hb
    rw [hb, eq_of_gives hkept' hkept hgives' hgives]

/-! ## Reading -/

theorem field?_eq (M : Meaning s) (key : String) : s.field? key = (M.part? key).map FieldMeaning.field := by
  unfold Shape.field? part?
  rw [M.fields_eq, List.find?_map]
  rfl

theorem missing?_eq_none_iff (M : Meaning s) :
    s.missing? seen = none ↔ ∀ p ∈ M.parts, p.name ∈ seen := by
  unfold Shape.missing?
  rw [M.fields_eq, List.find?_eq_none]
  simp [FieldMeaning.name]

theorem failInObject_error {ε : Type} (c : Cursor) (fault : Fault) :
    ∃ e, c.failInObject (ε := ε) fault = .error e := by
  unfold Cursor.failInObject
  simp only
  split
  · exact ⟨_, rfl⟩
  · exact ⟨_, rfl⟩

/-- Members are read into the structure that they make. -/
theorem readMembers_text (M : Meaning s) {first : Bool} {steps : Nat}
    (hs : members.length < steps)
    (h : c.rest = blankText blanks ++ (RawValue.membersText first members ++ '}' :: rest)) :
    Yields (s.readMembers steps first seen value c) (M.collectFrom seen value members) rest := by
  induction members generalizing steps first seen value c blanks with
  | nil =>
    obtain ⟨steps, rfl⟩ : ∃ k, steps = k + 1 := ⟨steps - 1, by omega⟩
    obtain ⟨c', hkey, hrest⟩ := nextKey_end first h
    unfold Shape.readMembers collectFrom
    simp only [hkey]
    cases hmissing : s.missing? seen with
    | none =>
      rw [if_pos (M.missing?_eq_none_iff.1 hmissing)]
      exact ⟨c'.advance, rfl, advance_rest hrest⟩
    | some field =>
      have hnot : ¬ ∀ p ∈ M.parts, p.name ∈ seen := by
        rw [← M.missing?_eq_none_iff, hmissing]
        exact Option.some_ne_none field
      rw [if_neg hnot]
      exact failInObject_error c' _
  | cons m members ih =>
    obtain ⟨steps, rfl⟩ : ∃ k, steps = k + 1 := ⟨steps - 1, by omega⟩
    have hlen : members.length < steps := by
      rw [List.length_cons] at hs
      omega
    have hnext := nextKey_text first h
    have hends : Ends (blankText m.after ++ (RawValue.membersText false members ++ '}' :: rest)) :=
      ends_blankText (ends_membersText members rest)
    unfold Shape.readMembers collectFrom
    cases hname : m.name? with
    | none =>
      rw [hname] at hnext
      obtain ⟨e, he⟩ := hnext
      simp only [he]
      exact ⟨e, rfl⟩
    | some key =>
      rw [hname] at hnext
      obtain ⟨c1, hkey, hc1⟩ := hnext
      obtain ⟨c2, hcolon, hc2⟩ := readColon_text hc1
      simp only [hkey, M.field?_eq]
      cases hpart : M.part? key with
      | none =>
        obtain ⟨c3, hpass, hc3⟩ := passValue_text hends hc2
        simp only [Option.map_none, hcolon, hpass]
        exact ih hlen hc3
      | some p =>
        simp only [Option.map_some, List.contains_iff_mem]
        split
        · exact failInObject_error c1 _
        · have hread := p.reads hends hc2
          simp only [hcolon]
          cases hchange : p.change m.value with
          | none =>
            rw [hchange] at hread
            obtain ⟨e, he⟩ := hread
            simp only [he]
            exact ⟨e, rfl⟩
          | some g =>
            rw [hchange] at hread
            obtain ⟨c3, hfield, hc3⟩ := hread
            simp only [hfield]
            exact ih hlen hc3

theorem length_le_membersText (first : Bool) (members : List (RawMember RawValue)) :
    members.length ≤ (RawValue.membersText first members).length := by
  induction members generalizing first with
  | nil => exact Nat.zero_le _
  | cons m members ih =>
    have := ih false
    simp only [RawValue.membersText, List.length_append, List.length_cons]
    omega

theorem failInList_error {ε : Type} (c : Cursor) (fault : Fault) :
    ∃ e, c.failInList (ε := ε) fault = .error e := by
  unfold Cursor.failInList
  simp only
  split
  · exact ⟨_, rfl⟩
  · exact ⟨_, rfl⟩
  · exact ⟨_, rfl⟩

/-- Elements are read into the structure that they make. -/
theorem readElements_text (s : Shape α) {parts : List (FieldMeaning α)} {read : Nat}
    (h : c.rest = blankText blanks ++
      (RawValue.elementsText (decide (read = 0)) elements ++ ']' :: rest)) :
    Yields (s.readElements (parts.map FieldMeaning.field) read value c)
      (collectElements parts value elements) rest := by
  induction parts generalizing elements read value c blanks with
  | nil =>
    unfold Shape.readElements
    simp only [List.map_nil]
    cases elements with
    | nil =>
      obtain ⟨c', hend, hrest⟩ := readListEnd_text h
      simp only [hend]
      exact ⟨c', rfl, hrest⟩
    | cons e elements =>
      obtain ⟨e, he⟩ := readListEnd_cons _ h
      simp only [he]
      exact ⟨e, rfl⟩
  | cons p parts ih =>
    unfold Shape.readElements
    simp only [List.map_cons]
    cases elements with
    | nil =>
      obtain ⟨c', hnext, -⟩ := nextElement_end (decide (read = 0)) h
      simp only [hnext]
      exact failInList_error c' _
    | cons e elements =>
      obtain ⟨c1, hnext, hc1⟩ := nextElement_text _ h
      have hvalue : c1.rest = blankText [] ++ (e.value.text ++
          (blankText e.after ++ (RawValue.elementsText false elements ++ ']' :: rest))) := hc1
      have hread := p.reads (ends_blankText (ends_elementsText elements rest)) hvalue
      simp only [hnext, collectElements]
      cases hchange : p.change e.value with
      | none =>
        rw [hchange] at hread
        obtain ⟨e, he⟩ := hread
        simp only [he]
        exact ⟨e, rfl⟩
      | some g =>
        rw [hchange] at hread
        obtain ⟨c2, hfield, hc2⟩ := hread
        have hrest : c2.rest = blankText e.after ++
            (RawValue.elementsText (decide (read + 1 = 0)) elements ++ ']' :: rest) := hc2
        simp only [hfield]
        exact ih hrest

/-- A value is read into the structure that it makes. -/
theorem read_text (M : Meaning s) {v : RawValue} (h : c.rest = blankText blanks ++ (v.text ++ rest)) :
    Yields (s.read c) (M.collect v) rest := by
  obtain ⟨x, tail, hx, hblank, -, -, hobject, harray⟩ := v.text_head rest
  have hhead : c.skipBlanks.rest = v.text ++ rest := by
    rw [hx] at h ⊢
    exact skipBlanks_rest_eq h hblank
  unfold Shape.read
  cases v with
  | object inside members =>
    simp only [RawValue.text, List.cons_append, List.append_assoc, List.nil_append] at hhead
    have hsteps : members.length <
        (blankText inside ++ (RawValue.membersText true members ++ '}' :: rest)).length + 1 := by
      have := length_le_membersText true members
      simp only [List.length_append]
      omega
    simp only [hhead, if_true]
    exact M.readMembers_text hsteps (advance_rest hhead)
  | array inside elements =>
    simp only [RawValue.text, List.cons_append, List.append_assoc, List.nil_append] at hhead
    have hlist : ('[' : Char) ≠ '{' := by decide
    simp only [hhead, if_neg hlist, if_true, M.fields_eq]
    exact readElements_text s (advance_rest hhead)
  | _ =>
    rw [hx] at hhead
    have hnotObject : x ≠ '{' := hobject
    have hnotArray : x ≠ '[' := harray
    simp only [hhead, if_neg hnotObject, if_neg hnotArray]
    exact wrongType_error _ x _

end Meaning

end VectorBench.Json
