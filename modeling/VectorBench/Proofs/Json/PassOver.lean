import VectorBench.Proofs.Json.Numbers
import VectorBench.Proofs.Json.Raw
import VectorBench.Proofs.Json.Strings

/-!
# Passing over values as they are written

A value that nobody asked for is passed over to its last character, whatever it holds and however
deep it is nested.  Every step consumes a character, so that there are always steps enough.

    Passes .value brackets c brackets rest v.text.length, for c at the value v         (passes_text)
    Yields (passValue c) (some ()) rest                                               (passValue_text)
-/

namespace VectorBench.Json

variable {c : Cursor} {blanks inside : List Blank} {rest tail : List Char} {x : Char}

/-! ## Values without parts -/

theorem readWord_text {word : List Char} (h : c.rest = word ++ rest) :
    Yields (readWord c word) (some ()) rest := by
  induction word generalizing c with
  | nil => exact ⟨c, rfl, h⟩
  | cons letter word ih =>
    rw [List.cons_append] at h
    have hrest := ih (advance_rest h)
    unfold readWord
    rw [h]
    simpa using hrest

theorem passScalar_word {word : List Char} (hw : wordAfter? x = some word)
    (h : c.rest = x :: (word ++ rest)) : Yields (passScalar x c) (some ()) rest := by
  unfold passScalar
  rw [hw]
  exact readWord_text (advance_rest h)

theorem passScalar_string {pieces : List StringPiece}
    (h : c.rest = stringLiteral pieces ++ rest) : Yields (passScalar '"' c) (some ()) rest := by
  have h : c.rest = '"' :: (pieces.flatMap StringPiece.text ++ '"' :: rest) := by
    rw [h]
    simp [stringLiteral]
  obtain ⟨text, hread⟩ := readString_passed (advance_rest h)
  exact hread.map fun _ => ()

theorem passScalar_number {n : NumberLiteral} (hr : Ends rest) (h : c.rest = n.text ++ rest) :
    ∃ x tail, c.rest = x :: tail ∧ x ≠ '[' ∧ x ≠ '{' ∧ Yields (passScalar x c) (some ()) rest := by
  obtain ⟨x, tail, hx, -, hcase⟩ := text_number_head n rest
  rw [hx] at h
  rcases hcase with ⟨-, rfl, htail⟩ | ⟨-, hdigit, htail⟩
  · obtain ⟨start, c', hread, hrest⟩ :=
      readNumeral_text .invalidNumber true hr ((advance_rest h).trans htail)
    refine ⟨_, tail, h, by decide, by decide, c', ?_, hrest⟩
    simp [passScalar, wordAfter?, hread, Except.map]
  · have hne : ∀ y : Char, y.isDigit = false → x ≠ y := by
      rintro y hy rfl
      rw [hdigit] at hy
      cases hy
    obtain ⟨start, c', hread, hrest⟩ :=
      readNumeral_text .invalidNumber false hr (h.trans htail)
    refine ⟨x, tail, h, hne _ rfl, hne _ rfl, c', ?_, hrest⟩
    simp [passScalar, wordAfter?, hne 'n' rfl, hne 't' rfl, hne 'f' rfl, hne '"' rfl, hne '-' rfl,
      hdigit, hread, Except.map]

/-! ## Keys -/

theorem passKey_text {before beforeColon : List Blank} {pieces : List StringPiece}
    (h : c.rest = blankText before ++
      (stringLiteral pieces ++ (blankText beforeColon ++ ':' :: rest))) :
    Yields (passKey c) (some ()) rest := by
  have h : c.rest = blankText before ++ '"' ::
      (pieces.flatMap StringPiece.text ++ '"' :: (blankText beforeColon ++ ':' :: rest)) := by
    rw [h]
    simp [stringLiteral]
  have hskip := skipBlanks_rest_eq h rfl
  obtain ⟨text, c', hread, hc'⟩ := readString_passed (advance_rest hskip)
  have hcolon := skipBlanks_rest_eq hc' rfl
  refine ⟨c'.skipBlanks.advance, ?_, advance_rest hcolon⟩
  unfold passKey
  simp only [hskip, if_true, hread, hcolon]

/-! ## Values -/

/-- Everything up to `rest` is passed over in at most `size` steps, and `outer` is still open. -/
def Passes (state : PassState) (inner : List Bracket) (c : Cursor) (outer : List Bracket)
    (rest : List Char) (size : Nat) : Prop :=
  ∃ steps ≤ size, ∃ c' : Cursor, c'.rest = rest ∧
    ∀ more, pass (steps + more) state inner c = pass more .behind outer c'

namespace Passes

variable {state state' : PassState} {inner middle outer : List Bracket} {c' : Cursor}
  {rest' : List Char} {size size' : Nat}

/-- One step, and what comes behind it. -/
theorem step (hp : Passes state' middle c' outer rest size)
    (h : ∀ steps, pass (steps + 1) state inner c = pass steps state' middle c') :
    Passes state inner c outer rest (size + 1) := by
  obtain ⟨steps, hs, last, hrest, hpass⟩ := hp
  refine ⟨steps + 1, by omega, last, hrest, fun more => ?_⟩
  rw [Nat.add_right_comm, h, hpass]

theorem trans (h : Passes state inner c middle rest size)
    (hp : ∀ c' : Cursor, c'.rest = rest → Passes .behind middle c' outer rest' size') :
    Passes state inner c outer rest' (size + size') := by
  obtain ⟨steps, hs, c', hrest, hpass⟩ := h
  obtain ⟨steps', hs', last, hrest', hpass'⟩ := hp c' hrest
  refine ⟨steps + steps', by omega, last, hrest', fun more => ?_⟩
  rw [Nat.add_assoc, hpass, hpass']

theorem mono (h : Passes state inner c outer rest size) (hle : size ≤ size') :
    Passes state inner c outer rest size' := by
  obtain ⟨steps, hs, last⟩ := h
  exact ⟨steps, Nat.le_trans hs hle, last⟩

/-- Nothing is left to be passed over. -/
theorem done (h : c.rest = rest) : Passes .behind outer c outer rest 0 :=
  ⟨0, Nat.le_refl 0, c, h, fun more => by rw [Nat.zero_add]⟩

end Passes

variable {brackets : List Bracket}

-- The equations of `pass` are made here, once, and not by all the lemmas at the same time.
attribute [local simp] pass

theorem passes_scalar (h : c.skipBlanks.rest = x :: tail) (hlist : x ≠ '[') (hobject : x ≠ '{')
    (hread : Yields (passScalar x c.skipBlanks) (some ()) rest) :
    Passes .value brackets c brackets rest 1 := by
  obtain ⟨c', hread, hrest⟩ := hread
  refine (Passes.done hrest).step fun steps => ?_
  simp only [pass, h, if_neg hlist, if_neg hobject, hread]

/-- The first character of a value. -/
theorem RawValue.text_head (v : RawValue) (rest : List Char) :
    ∃ x tail, v.text ++ rest = x :: tail ∧ isJsonBlank x = false ∧ x ≠ ']' ∧ x ≠ '}' ∧
      (x = '{' → v.IsObject) ∧ (x = '[' → v.IsArray) := by
  cases v with
  | null =>
    exact ⟨_, _, rfl, rfl, by decide, by decide, fun h => absurd h (by decide),
      fun h => absurd h (by decide)⟩
  | bool b =>
    cases b <;> exact ⟨_, _, rfl, rfl, by decide, by decide, fun h => absurd h (by decide),
      fun h => absurd h (by decide)⟩
  | number n =>
    obtain ⟨x, tail, hx, hblank, ⟨-, rfl, -⟩ | ⟨-, hdigit, -⟩⟩ := text_number_head n rest
    · exact ⟨_, tail, hx, hblank, by decide, by decide, fun h => absurd h (by decide),
        fun h => absurd h (by decide)⟩
    · have hne : ∀ y : Char, y.isDigit = false → x ≠ y := by
        rintro y hy rfl
        rw [hdigit] at hy
        cases hy
      exact ⟨x, tail, hx, hblank, hne _ rfl, hne _ rfl, fun h => absurd h (hne _ rfl),
        fun h => absurd h (hne _ rfl)⟩
  | string pieces =>
    exact ⟨_, _, rfl, rfl, by decide, by decide, fun h => absurd h (by decide),
      fun h => absurd h (by decide)⟩
  | array inside elements =>
    exact ⟨_, _, rfl, rfl, by decide, by decide, fun h => absurd h (by decide), fun _ => trivial⟩
  | object inside members =>
    exact ⟨_, _, rfl, rfl, by decide, by decide, fun _ => trivial, fun h => absurd h (by decide)⟩

theorem RawValue.length_text_pos (v : RawValue) : 0 < v.text.length := by
  obtain ⟨x, tail, h, -⟩ := v.text_head []
  rw [List.append_nil] at h
  rw [h, List.length_cons]
  omega

/-- A closing bracket or a comma follows every element. -/
theorem ends_elementsText (elements : List (Element RawValue)) (rest : List Char) :
    Ends (RawValue.elementsText false elements ++ ']' :: rest) := by
  cases elements with
  | nil => exact ends_cons (Or.inr (Or.inl rfl))
  | cons e elements => exact ends_cons (Or.inl rfl)

theorem ends_membersText (members : List (RawMember RawValue)) (rest : List Char) :
    Ends (RawValue.membersText false members ++ '}' :: rest) := by
  cases members with
  | nil => exact ends_cons (Or.inr (Or.inr rfl))
  | cons m members => exact ends_cons (Or.inl rfl)

/-! ## Openings and closings -/

theorem passes_emptyArray (h : c.rest = blankText blanks ++ '[' :: (blankText inside ++ ']' :: rest)) :
    Passes .value brackets c brackets rest 1 := by
  have hopen := skipBlanks_rest_eq h rfl
  have hclose := skipBlanks_rest_eq (advance_rest hopen) rfl
  refine (Passes.done (advance_rest hclose)).step fun steps => ?_
  simp only [pass, hopen, if_true, hclose]

theorem passes_emptyObject
    (h : c.rest = blankText blanks ++ '{' :: (blankText inside ++ '}' :: rest)) :
    Passes .value brackets c brackets rest 1 := by
  have hopen := skipBlanks_rest_eq h rfl
  have hclose := skipBlanks_rest_eq (advance_rest hopen) rfl
  refine (Passes.done (advance_rest hclose)).step fun steps => ?_
  simp [pass, hopen, hclose]

theorem passes_closeArray (h : c.rest = blankText blanks ++ ']' :: rest) :
    Passes .behind (.list :: brackets) c brackets rest 1 := by
  have hclose := skipBlanks_rest_eq h rfl
  refine (Passes.done (advance_rest hclose)).step fun steps => ?_
  simp only [pass, hclose]

theorem passes_closeObject (h : c.rest = blankText blanks ++ '}' :: rest) :
    Passes .behind (.object :: brackets) c brackets rest 1 := by
  have hclose := skipBlanks_rest_eq h rfl
  refine (Passes.done (advance_rest hclose)).step fun steps => ?_
  simp only [pass, hclose]

theorem blankText_append (blanks more : List Blank) (rest : List Char) :
    blankText blanks ++ (blankText more ++ rest) = blankText (blanks ++ more) ++ rest := by
  unfold blankText
  rw [List.map_append, List.append_assoc]

variable {outer : List Bracket} {before beforeColon : List Blank} {pieces : List StringPiece}
  {size : Nat}

theorem passes_openArray {v : RawValue}
    (h : c.rest = blankText blanks ++ '[' :: (blankText inside ++
      (blankText before ++ (v.text ++ tail))))
    (hp : ∀ c' : Cursor, c'.rest = v.text ++ tail →
      Passes .value (.list :: brackets) c' outer rest size) :
    Passes .value brackets c outer rest (size + 1) := by
  have hopen := skipBlanks_rest_eq h rfl
  obtain ⟨x, text, hx, hblank, hclose, -⟩ := v.text_head tail
  have hinside := advance_rest hopen
  rw [blankText_append, hx] at hinside
  have hfirst := skipBlanks_rest_eq hinside hblank
  refine (hp _ (hfirst.trans hx.symm)).step fun steps => ?_
  simp only [pass, hopen, if_true]
  split
  · rename_i hnil
    rw [hfirst] at hnil
    cases hnil
  · rename_i hbracket
    rw [hfirst] at hbracket
    exact absurd (List.cons.inj hbracket).1 hclose
  · rfl

theorem passes_commaArray (h : c.rest = blankText blanks ++ ',' :: tail)
    (hp : ∀ c' : Cursor, c'.rest = tail → Passes .value (.list :: brackets) c' outer rest size) :
    Passes .behind (.list :: brackets) c outer rest (size + 1) := by
  have hcomma := skipBlanks_rest_eq h rfl
  refine (hp _ (advance_rest hcomma)).step fun steps => ?_
  simp only [pass, hcomma]

theorem passes_openObject
    (h : c.rest = blankText blanks ++ '{' :: (blankText inside ++ (blankText before ++
      (stringLiteral pieces ++ (blankText beforeColon ++ ':' :: tail)))))
    (hp : ∀ c' : Cursor, c'.rest = tail → Passes .value (.object :: brackets) c' outer rest size) :
    Passes .value brackets c outer rest (size + 1) := by
  have hopen := skipBlanks_rest_eq h rfl
  have hinside := advance_rest hopen
  rw [blankText_append] at hinside
  have hfirst := skipBlanks_rest_eq hinside rfl
  have hname : c.skipBlanks.advance.skipBlanks.rest = blankText [] ++
      (stringLiteral pieces ++ (blankText beforeColon ++ ':' :: tail)) := hfirst
  obtain ⟨c', hkey, hrest⟩ := passKey_text hname
  refine (hp c' hrest).step fun steps => ?_
  simp [pass, hopen, hfirst, hkey]

theorem passes_commaObject
    (h : c.rest = blankText blanks ++ ',' :: (blankText before ++
      (stringLiteral pieces ++ (blankText beforeColon ++ ':' :: tail))))
    (hp : ∀ c' : Cursor, c'.rest = tail → Passes .value (.object :: brackets) c' outer rest size) :
    Passes .behind (.object :: brackets) c outer rest (size + 1) := by
  have hcomma := skipBlanks_rest_eq h rfl
  obtain ⟨c', hkey, hrest⟩ := passKey_text (advance_rest hcomma)
  refine (hp c' hrest).step fun steps => ?_
  simp only [pass, hcomma, hkey]

/-! ## Nested values -/

mutual
/-- A value is passed over in no more steps than it has characters. -/
theorem passes_text (v : RawValue) (brackets : List Bracket) {c : Cursor} {blanks : List Blank}
    {rest : List Char} (hr : Ends rest) (h : c.rest = blankText blanks ++ (v.text ++ rest)) :
    Passes .value brackets c brackets rest v.text.length := by
  match v with
  | .null =>
    have hskip := skipBlanks_rest_eq h rfl
    exact (passes_scalar hskip (by decide) (by decide) (passScalar_word rfl hskip)).mono (by decide)
  | .bool false =>
    have hskip := skipBlanks_rest_eq h rfl
    exact (passes_scalar hskip (by decide) (by decide) (passScalar_word rfl hskip)).mono (by decide)
  | .bool true =>
    have hskip := skipBlanks_rest_eq h rfl
    exact (passes_scalar hskip (by decide) (by decide) (passScalar_word rfl hskip)).mono (by decide)
  | .number n =>
    have hskip : c.skipBlanks.rest = n.text ++ rest := by
      obtain ⟨x, tail, hx, hblank, -⟩ := text_number_head n rest
      have h : c.rest = blankText blanks ++ (n.text ++ rest) := h
      rw [hx] at h ⊢
      exact skipBlanks_rest_eq h hblank
    obtain ⟨x, tail, hx, hlist, hobject, hread⟩ := passScalar_number hr hskip
    exact (passes_scalar hx hlist hobject hread).mono (RawValue.length_text_pos (.number n))
  | .string pieces =>
    have hskip := skipBlanks_rest_eq h rfl
    exact (passes_scalar hskip (by decide) (by decide) (passScalar_string hskip)).mono
      (RawValue.length_text_pos (.string pieces))
  | .array inside [] =>
    have h : c.rest = blankText blanks ++ '[' :: (blankText inside ++ ']' :: rest) := by
      simpa [RawValue.text, RawValue.elementsText] using h
    exact (passes_emptyArray h).mono (RawValue.length_text_pos _)
  | .array inside (⟨before, value, after⟩ :: elements) =>
    simp only [RawValue.text, RawValue.elementsText, if_true, List.nil_append, List.append_assoc,
      List.cons_append] at h
    have hsize : (RawValue.text (.array inside (⟨before, value, after⟩ :: elements))).length =
        (value.text.length + ((RawValue.elementsText false elements).length + 1)) + 1 +
          (blankText inside).length + (blankText before).length + (blankText after).length := by
      simp [RawValue.text, RawValue.elementsText]
      omega
    have hpass : Passes .value brackets c brackets rest
        (value.text.length + ((RawValue.elementsText false elements).length + 1) + 1) := by
      refine passes_openArray h fun c1 h1 => ?_
      have hc : c1.rest = blankText [] ++ (value.text ++
          (blankText after ++ (RawValue.elementsText false elements ++ ']' :: rest))) := h1
      refine (passes_text value (.list :: brackets) ?_ hc).trans fun c2 h2 => ?_
      · exact ends_blankText (ends_elementsText elements rest)
      · exact passes_elements elements brackets h2
    exact hpass.mono (by rw [hsize]; omega)
  | .object inside [] =>
    have h : c.rest = blankText blanks ++ '{' :: (blankText inside ++ '}' :: rest) := by
      simpa [RawValue.text, RawValue.membersText] using h
    exact (passes_emptyObject h).mono (RawValue.length_text_pos _)
  | .object inside (⟨before, pieces, beforeColon, afterColon, value, after⟩ :: members) =>
    simp only [RawValue.text, RawValue.membersText, if_true, List.nil_append, List.append_assoc,
      List.cons_append] at h
    have hsize : (RawValue.text
        (.object inside (⟨before, pieces, beforeColon, afterColon, value, after⟩ :: members))).length =
        (value.text.length + ((RawValue.membersText false members).length + 1)) + 2 +
          (blankText inside).length + (blankText before).length +
          (stringLiteral pieces).length + (blankText beforeColon).length +
          (blankText afterColon).length + (blankText after).length := by
      simp [RawValue.text, RawValue.membersText]
      omega
    have hpass : Passes .value brackets c brackets rest
        (value.text.length + ((RawValue.membersText false members).length + 1) + 1) := by
      refine passes_openObject h fun c1 h1 => ?_
      refine (passes_text value (.object :: brackets) ?_ h1).trans fun c2 h2 => ?_
      · exact ends_blankText (ends_membersText members rest)
      · exact passes_members members brackets h2
    exact hpass.mono (by rw [hsize]; omega)

/-- The elements of an array behind the first one, and its closing bracket. -/
theorem passes_elements (elements : List (Element RawValue)) (brackets : List Bracket) {c : Cursor}
    {blanks : List Blank} {rest : List Char}
    (h : c.rest = blankText blanks ++ (RawValue.elementsText false elements ++ ']' :: rest)) :
    Passes .behind (.list :: brackets) c brackets rest
      ((RawValue.elementsText false elements).length + 1) := by
  match elements with
  | [] => exact passes_closeArray h
  | ⟨before, value, after⟩ :: elements =>
    simp only [RawValue.elementsText, Bool.false_eq_true, if_false, List.append_assoc,
      List.cons_append, List.nil_append] at h
    have hsize : (RawValue.elementsText false (⟨before, value, after⟩ :: elements)).length =
        value.text.length + (RawValue.elementsText false elements).length + 1 +
          (blankText before).length + (blankText after).length := by
      simp [RawValue.elementsText]
      omega
    have hpass : Passes .behind (.list :: brackets) c brackets rest
        (value.text.length + ((RawValue.elementsText false elements).length + 1) + 1) := by
      refine passes_commaArray h fun c1 h1 => ?_
      refine (passes_text value (.list :: brackets) ?_ h1).trans fun c2 h2 => ?_
      · exact ends_blankText (ends_elementsText elements rest)
      · exact passes_elements elements brackets h2
    exact hpass.mono (by rw [hsize]; omega)

/-- The members of an object behind the first one, and its closing bracket. -/
theorem passes_members (members : List (RawMember RawValue)) (brackets : List Bracket) {c : Cursor}
    {blanks : List Blank} {rest : List Char}
    (h : c.rest = blankText blanks ++ (RawValue.membersText false members ++ '}' :: rest)) :
    Passes .behind (.object :: brackets) c brackets rest
      ((RawValue.membersText false members).length + 1) := by
  match members with
  | [] => exact passes_closeObject h
  | ⟨before, pieces, beforeColon, afterColon, value, after⟩ :: members =>
    simp only [RawValue.membersText, Bool.false_eq_true, if_false, List.append_assoc,
      List.cons_append, List.nil_append] at h
    have hsize : (RawValue.membersText false
        (⟨before, pieces, beforeColon, afterColon, value, after⟩ :: members)).length =
        value.text.length + (RawValue.membersText false members).length + 2 +
          (blankText before).length + (stringLiteral pieces).length +
          (blankText beforeColon).length + (blankText afterColon).length +
          (blankText after).length := by
      simp [RawValue.membersText]
      omega
    have hpass : Passes .behind (.object :: brackets) c brackets rest
        (value.text.length + ((RawValue.membersText false members).length + 1) + 1) := by
      refine passes_commaObject h fun c1 h1 => ?_
      refine (passes_text value (.object :: brackets) ?_ h1).trans fun c2 h2 => ?_
      · exact ends_blankText (ends_membersText members rest)
      · exact passes_members members brackets h2
    exact hpass.mono (by rw [hsize]; omega)
end

/-- A value that nobody asked for is passed over. -/
theorem passValue_text {v : RawValue} (hr : Ends rest)
    (h : c.rest = blankText blanks ++ (v.text ++ rest)) : Yields (passValue c) (some ()) rest := by
  obtain ⟨steps, hs, c', hrest, hpass⟩ := passes_text v [] hr h
  refine ⟨c', ?_, hrest⟩
  have hlen : c.rest.length = (blankText blanks).length + (v.text.length + rest.length) := by
    rw [h, List.length_append, List.length_append]
  obtain ⟨more, hmore⟩ : ∃ more, 2 * c.rest.length + 2 = steps + more :=
    ⟨2 * c.rest.length + 2 - steps, by omega⟩
  unfold passValue
  rw [hmore, hpass]
  cases more <;> rfl

end VectorBench.Json
