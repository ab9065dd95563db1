import VectorBench.Proofs.Json.Printed
import VectorBench.Proofs.Record.Accepted

/-!
# The documented layout

A record is documented as objects that name their fields.  Texts are accepted in which the record,
its configuration or the entries of its metrics are arrays of the values of their fields, and these
are the only ones that stray from the documented layout.  Every value of another type, in any place,
makes a text malformed.

    Record.decode text = .ok r → d.text = text.toList →
      (Documented r d.value ↔ ∀ w, Stands d.value .fields w → ¬ w.IsArray)
                                                                            (decode_documented_iff)
-/

namespace VectorBench

open Json (RawValue RawMember RawDocument Element Blank)

/-! ## Places in a document -/

/-- `w` stands in a value as one of the fields `names`: as a member of an object under the `name`, or
in an array at the place that the `name` has among all of them. -/
inductive Json.RawValue.Field (names : List String) (name : String) : RawValue → RawValue → Prop
  | named {inside : List Blank} {members : List (RawMember RawValue)} {m : RawMember RawValue} :
    name ∈ names → m ∈ members → m.name? = some name →
    Field names name (.object inside members) m.value
  | listed {inside : List Blank} {elements : List (Element RawValue)} {e : Element RawValue} :
    (name, e) ∈ names.zip elements → Field names name (.array inside elements) e.value

def recordFields : List String := ["config", "metrics"]

def configFields : List String := ["n_samples", "n_dims", "n_queries", "top_k", "seed"]

def entryFields : List String := ["build_sec", "search_sec"]

/-- What is expected in a place. -/
inductive Expected where
  /-- A value with fields. -/
  | fields
  | object
  | number

/-- Whether a value is what is expected; a value with fields may be an object or an array. -/
def Expected.Fits : Expected → RawValue → Prop
  | fields, v => v.IsObject ∨ v.IsArray
  | object, v => v.IsObject
  | number, v => ∃ n, v = .number n

/-- The places of a record in a value, and what is expected there. -/
inductive Stands (v : RawValue) : Expected → RawValue → Prop
  | record : Stands v .fields v
  | config {w : RawValue} : v.Field recordFields "config" w → Stands v .fields w
  | metrics {w : RawValue} : v.Field recordFields "metrics" w → Stands v .object w
  | entry {inside : List Blank} {members : List (RawMember RawValue)} {m : RawMember RawValue} :
    v.Field recordFields "metrics" (.object inside members) → m ∈ members → Stands v .fields m.value
  | count {w u : RawValue} {name : String} :
    v.Field recordFields "config" w → w.Field configFields name u → Stands v .number u
  | seconds {inside : List Blank} {members : List (RawMember RawValue)} {m : RawMember RawValue}
    {u : RawValue} {name : String} :
    v.Field recordFields "metrics" (.object inside members) → m ∈ members →
    m.value.Field entryFields name u → Stands v .number u

/-- A value gives a record in the documented layout: the record, its configuration and the entries of
its metrics are objects, and every field is there once under its name. -/
def Documented (r : Record) (v : RawValue) : Prop :=
  (∀ w, Stands v .fields w → w.IsObject) ∧ GivesRecord False r.config r.metrics v

/-! ## Fields of structures -/

namespace Json

variable {lists : Prop} {fields : List (String × (RawValue → Prop))} {v w : RawValue}

theorem exists_of_mem_zip {elements : List (Element RawValue)} {e : Element RawValue} {name : String}
    (h : List.Forall₂ (fun e field => field.2 e.value) elements fields)
    (hmem : (name, e) ∈ (fields.map Prod.fst).zip elements) :
    ∃ field ∈ fields, field.1 = name ∧ field.2 e.value := by
  rw [List.zip_map_left] at hmem
  obtain ⟨⟨field, e⟩, hzip, heq⟩ := List.mem_map.1 hmem
  cases heq
  exact ⟨field, (List.of_mem_zip hzip).1, rfl, List.forall₂_zip h.flip hzip⟩

theorem exists_of_mem_left {β γ : Type} {R : β → γ → Prop} {xs : List β} {ys : List γ}
    (h : List.Forall₂ R xs ys) : ∀ x ∈ xs, ∃ y, R x y := by
  induction h with
  | nil => exact List.forall_mem_nil _
  | cons hr _ ih => exact List.forall_mem_cons.2 ⟨⟨_, hr⟩, ih⟩

/-- What stands in a structure as one of its fields is as the field asks for. -/
theorem RawValue.Gives.field {name : String} (h : v.Gives lists fields)
    (hw : v.Field (fields.map Prod.fst) name w) :
    ∃ field ∈ fields, field.1 = name ∧ field.2 w := by
  cases hw with
  | named hname hm hmname =>
    cases h with
    | named _ hfields =>
      obtain ⟨field, hin, rfl⟩ := List.mem_map.1 hname
      obtain ⟨u, hu, hfield⟩ := hfields field hin
      rw [value_eq_of_only hu hm hmname]
      exact ⟨field, hin, rfl, hfield⟩
  | listed hmem =>
    cases h with
    | listed _ hall => exact exists_of_mem_zip hall hmem

/-- A value that gives fields is an object or an array. -/
theorem RawValue.Gives.fits (h : v.Gives lists fields) : v.IsObject ∨ v.IsArray := by
  cases h with
  | named _ _ => exact Or.inl trivial
  | listed _ _ => exact Or.inr trivial

/-- An object gives fields by their names. -/
theorem RawValue.Gives.strict (h : v.Gives lists fields) (hv : v.IsObject) : v.Gives False fields := by
  cases h with
  | named hnames hfields => exact .named hnames hfields
  | listed _ _ => exact hv.elim

theorem RawValue.not_isArray_of_isObject (h : v.IsObject) : ¬ v.IsArray := by
  cases v with
  | object _ _ => exact id
  | _ => exact h.elim

end Json

/-! ## Fields of records -/

variable {lists : Prop} {config : Config} {metrics : List Measurement} {v w u : RawValue}
  {name : String}

theorem GivesRecord.givesConfig (h : GivesRecord lists config metrics v)
    (hw : v.Field recordFields "config" w) : GivesConfig lists config w := by
  obtain ⟨field, hin, hname, hfield⟩ := h.field hw
  simp only [List.mem_cons, List.not_mem_nil, or_false] at hin
  rcases hin with rfl | rfl
  · exact hfield
  · exact absurd hname (by decide : "metrics" ≠ "config")

theorem GivesRecord.givesMetrics (h : GivesRecord lists config metrics v)
    (hw : v.Field recordFields "metrics" w) : GivesMetrics lists metrics w := by
  obtain ⟨field, hin, hname, hfield⟩ := h.field hw
  simp only [List.mem_cons, List.not_mem_nil, or_false] at hin
  rcases hin with rfl | rfl
  · exact absurd hname (by decide : "config" ≠ "metrics")
  · exact hfield

theorem GivesRecord.givesEntry {inside : List Blank} {members : List (RawMember RawValue)}
    {m : RawMember RawValue} (h : GivesRecord lists config metrics v)
    (hw : v.Field recordFields "metrics" (.object inside members)) (hm : m ∈ members) :
    ∃ x, GivesMeasurement lists x m.value := by
  obtain ⟨_, _, heq, hall⟩ := h.givesMetrics hw
  cases heq
  obtain ⟨x, -, hx⟩ := Json.exists_of_mem_left hall m hm
  exact ⟨x, hx⟩

theorem GivesConfig.count (h : GivesConfig lists config w) (hu : w.Field configFields name u) :
    ∃ n, u = .number n := by
  obtain ⟨field, hin, -, hfield⟩ := h.field hu
  simp only [List.mem_cons, List.not_mem_nil, or_false] at hin
  rcases hin with rfl | rfl | rfl | rfl | rfl
  all_goals
    obtain ⟨n, hn, -⟩ := hfield
    exact ⟨n, hn⟩

theorem GivesMeasurement.seconds {x : Measurement} (h : GivesMeasurement lists x w)
    (hu : w.Field entryFields name u) : ∃ n, u = .number n := by
  obtain ⟨field, hin, -, hfield⟩ := h.field hu
  simp only [List.mem_cons, List.not_mem_nil, or_false] at hin
  rcases hin with rfl | rfl
  all_goals
    obtain ⟨n, hn, -⟩ := hfield
    exact ⟨n, hn⟩

/-- In every place of a value that gives a record stands what is expected there. -/
theorem GivesRecord.fits {expected : Expected} (h : GivesRecord lists config metrics v)
    (hw : Stands v expected w) : expected.Fits w := by
  cases hw with
  | record => exact Json.RawValue.Gives.fits h
  | config hw => exact Json.RawValue.Gives.fits (h.givesConfig hw)
  | metrics hw =>
    obtain ⟨_, _, rfl, -⟩ := h.givesMetrics hw
    trivial
  | entry hw hm =>
    obtain ⟨x, hx⟩ := h.givesEntry hw hm
    exact Json.RawValue.Gives.fits hx
  | count hw hu => exact (h.givesConfig hw).count hu
  | seconds hw hm hu =>
    obtain ⟨x, hx⟩ := h.givesEntry hw hm
    exact hx.seconds hu

/-- When no place is an array, the layout is the documented one. -/
theorem GivesRecord.strict (h : GivesRecord lists config metrics v)
    (hobjects : ∀ w, Stands v .fields w → w.IsObject) : GivesRecord False config metrics v := by
  cases h with
  | listed _ _ => exact (hobjects _ .record).elim
  | @named outer fields hnames hfields =>
    simp only [List.forall_mem_cons] at hfields
    obtain ⟨⟨w, hw, hconfig⟩, ⟨u, hu, inside, members, rfl, hall⟩, -⟩ := hfields
    obtain ⟨m, hm, hmname, rfl⟩ := RawValue.exists_member_of_only hw
    obtain ⟨m', hm', hmname', hvalue⟩ := RawValue.exists_member_of_only hu
    have hplace : (RawValue.object outer fields).Field recordFields "metrics" m'.value :=
      .named (by decide) hm' hmname'
    rw [hvalue] at hplace
    refine .named hnames ?_
    simp only [List.forall_mem_cons]
    refine ⟨⟨m.value, hw, ?_⟩, ⟨_, hu, inside, members, rfl, ?_⟩, List.forall_mem_nil _⟩
    · exact Json.RawValue.Gives.strict hconfig (hobjects _ (.config (.named (by decide) hm hmname)))
    · have hentries : ∀ entry ∈ members, entry.value.IsObject := fun entry hentry =>
        hobjects _ (.entry hplace hentry)
      exact ((List.forall₂_and_left _ _).2 ⟨hentries, hall⟩).imp fun entry x hentry =>
        ⟨hentry.2.1, Json.RawValue.Gives.strict hentry.2.2 hentry.1⟩

/-- The layout strays from the documented one by arrays only. -/
theorem documented_iff {r : Record} (h : GivesRecord True r.config r.metrics v) :
    Documented r v ↔ ∀ w, Stands v .fields w → ¬ w.IsArray := by
  constructor
  · exact fun hdocumented w hw => Json.RawValue.not_isArray_of_isObject (hdocumented.1 w hw)
  · intro hnone
    have hobjects : ∀ w, Stands v .fields w → w.IsObject := fun w hw =>
      (h.fits hw).resolve_right (hnone w hw)
    exact ⟨hobjects, GivesRecord.strict h hobjects⟩

/-! ## Accepted texts -/

/-- An accepted text is that of a document, which has every field of the record in its place; the
layout is the documented one when no value with fields is an array.  A text is malformed when anything
else stands in a place than is expected there. -/
theorem decode_documented_iff (text : String) :
    (∀ r, Record.decode text = .ok r →
      (∃ d : RawDocument, d.text = text.toList) ∧
      ∀ d : RawDocument, d.text = text.toList →
        GivesRecord True r.config r.metrics d.value ∧
        (Documented r d.value ↔ ∀ w, Stands d.value .fields w → ¬ w.IsArray)) ∧
    ∀ d : RawDocument, d.text = text.toList →
      ∀ expected w, Stands d.value expected w → ¬ expected.Fits w → Malformed text := by
  constructor
  · intro r h
    obtain ⟨d, hd, -⟩ := exists_document_of_decode h
    refine ⟨⟨d, hd⟩, fun d' hd' => ?_⟩
    have hgives := (decode_iff_of_text hd').1 h
    exact ⟨hgives, documented_iff hgives⟩
  · intro d hd expected w hw hnot
    refine malformed_of_not_accepted fun r h => hnot ?_
    exact GivesRecord.fits ((decode_iff_of_text hd).1 h) hw

/-- A configuration that is an array of its numbers. -/
def listedConfig : RawValue :=
  .array [] [⟨[], .number (.ofNatural 5), []⟩, ⟨[], .number (.ofNatural 4), []⟩,
    ⟨[], .number (.ofNatural 3), []⟩, ⟨[], .number (.ofNatural 2), []⟩,
    ⟨[], .number (.ofNatural 1), []⟩]

def listedDocument : RawDocument where
  before := []
  value := .object [] [⟨[], Json.textPieces "config", [], [], listedConfig, []⟩,
    ⟨[], Json.textPieces "metrics", [], [], .object [] [], []⟩]
  after := []

def listedRecord : Record := ⟨⟨5, 4, 3, 2, 1⟩, [], by decide⟩

theorem listedDocument_text : listedDocument.text =
    "\x7b\"config\":[5,4,3,2,1],\"metrics\":\x7b\x7d\x7d".toList := by
  decide +kernel

theorem listedDocument_gives :
    GivesRecord True listedRecord.config listedRecord.metrics listedDocument.value := by
  have hnatural : ∀ x : UInt64, GivesNatural x (.number (.ofNatural x.toNat)) := fun x =>
    ⟨_, rfl, Json.ofNatural_natural? _⟩
  have hconfig : GivesConfig True listedRecord.config listedConfig :=
    .listed trivial <| .cons (hnatural 5) <| .cons (hnatural 4) <| .cons (hnatural 3) <|
      .cons (hnatural 2) <| .cons (hnatural 1) .nil
  refine .named ?_ ?_
  · simp [Json.RawMember.name?, Json.denoted_textPieces]
  · simp only [List.forall_mem_cons]
    refine ⟨⟨listedConfig, ?_, hconfig⟩, ⟨.object [] [], ?_, [], [], rfl, .nil⟩,
      List.forall_mem_nil _⟩
    · simp [RawValue.only, Json.RawMember.name?, Json.denoted_textPieces]
    · simp [RawValue.only, Json.RawMember.name?, Json.denoted_textPieces]

theorem listedConfig_stands : Stands listedDocument.value .fields listedConfig := by
  refine .config (.named (by decide) List.mem_cons_self ?_)
  simp [Json.RawMember.name?, Json.denoted_textPieces]

theorem listedDocument_decode :
    Record.decode "\x7b\"config\":[5,4,3,2,1],\"metrics\":\x7b\x7d\x7d" = .ok listedRecord :=
  (decode_iff_of_text listedDocument_text).2 listedDocument_gives

/-- The text of this document is accepted and its layout is not the documented one. -/
theorem decode_documented_iff_listed :
    Record.decode "\x7b\"config\":[5,4,3,2,1],\"metrics\":\x7b\x7d\x7d" = .ok listedRecord ∧
      ¬ Documented listedRecord listedDocument.value := by
  refine ⟨listedDocument_decode, fun hdocumented => ?_⟩
  obtain ⟨-, hall⟩ := (decode_documented_iff _).1 listedRecord listedDocument_decode
  exact (hall listedDocument listedDocument_text).2.1 hdocumented listedConfig listedConfig_stands
    trivial

/-- Not every accepted text has the documented layout. -/
theorem not_forall_decode_documented :
    ¬ ∀ (text : String) (r : Record), Record.decode text = .ok r →
      ∀ d : RawDocument, d.text = text.toList → Documented r d.value := by
  intro h
  have hdocumented := h _ _ listedDocument_decode listedDocument listedDocument_text
  exact Json.RawValue.not_isArray_of_isObject (hdocumented.1 listedConfig listedConfig_stands) trivial

end VectorBench
