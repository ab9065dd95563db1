import VectorBench.Proofs.Json.Members
import VectorBench.Proofs.Json.Tokens

/-!
# What was read is well-formed

What the readers of values accept is a value of the grammar, with blanks in front of it.  The readers
of structures inherit this from the readers of their fields, and what is passed over is a value as
well, however deep it is nested.

    ReadsValues passValue                                                       (passValue_readsValues)
    (∀ field ∈ s.fields, ReadsValues field.read) → ReadsValues s.read          (Shape.read_readsValues)
    ReadsValues read → readDocument read text = .ok a → ∃ d : RawDocument, d.text = text.toList
                                                                                    (exists_document)
-/

namespace VectorBench.Json

variable {c c' : Cursor} {x : Char} {tail : List Char}

/-! ## Readers of values -/

variable {α β : Type}

/-- Whatever the reader accepts is a value, with blanks in front of it. -/
def ReadsValues (read : Cursor → Reading α) : Prop :=
  ∀ (c : Cursor) (a : α) (c' : Cursor), read c = .ok (a, c') →
    ∃ (blanks : List Blank) (v : RawValue), c.rest = blankText blanks ++ (v.text ++ c'.rest)

/-- What `Except.map` makes of a result. -/
theorem exists_of_map_eq_ok {reading : Reading α} {g : α × Cursor → β × Cursor} {b : β × Cursor}
    (h : reading.map g = .ok b) : ∃ a, reading = .ok a ∧ g a = b := by
  cases reading with
  | error e => cases h
  | ok a =>
    cases h
    exact ⟨a, rfl, rfl⟩

theorem ReadsValues.map {read : Cursor → Reading α} (h : ReadsValues read) (g : α → β) :
    ReadsValues fun c => (read c).map fun (a, c) => (g a, c) := by
  intro c b c' hb
  obtain ⟨⟨a, last⟩, hread, hend⟩ := exists_of_map_eq_ok hb
  cases hend
  exact h _ _ _ hread

theorem exists_numberValue {expected : String} {number : Number}
    (h : readNumberValue expected c = .ok (number, c')) :
    ∃ (blanks : List Blank) (n : NumberLiteral), c.rest = blankText blanks ++ (n.text ++ c'.rest) := by
  obtain ⟨blanks, hblanks⟩ := exists_blanks c
  rw [hblanks]
  unfold readNumberValue at h
  simp only at h
  split at h
  · cases h
  · rename_i x tail hx
    split at h
    · rename_i hminus
      have hstart : c.skipBlanks.rest = (if true then ['-'] else []) ++ c.skipBlanks.advance.rest := by
        rw [advance_rest hx, hx, hminus]
        rfl
      obtain ⟨n, hn⟩ := exists_numberText hstart (exists_number h)
      exact ⟨blanks, n, congrArg (blankText blanks ++ ·) hn⟩
    · split at h
      · have hstart : c.skipBlanks.rest = (if false then ['-'] else []) ++ c.skipBlanks.rest := rfl
        obtain ⟨n, hn⟩ := exists_numberText hstart (exists_number h)
        exact ⟨blanks, n, congrArg (blankText blanks ++ ·) hn⟩
      · obtain ⟨e, he⟩ := wrongType_error (α := Number × Cursor) expected x c.skipBlanks
        rw [he] at h
        cases h

theorem readNatural_readsValues (expected : String) : ReadsValues (readNatural expected) := by
  intro c a c' h
  unfold readNatural at h
  split at h
  · cases h
  · rename_i value c1 hvalue
    cases h
    obtain ⟨blanks, n, hn⟩ := exists_numberValue hvalue
    exact ⟨blanks, .number n, hn⟩
  · cases h
  · cases h

theorem readFloat_readsValues (expected : String) : ReadsValues (readFloat expected) := by
  intro c a c' h
  have hnumber : ∃ number, readNumberValue expected c = .ok (number, c') := by
    unfold readFloat at h
    split at h
    · cases h
    · rename_i hvalue
      cases h
      exact ⟨_, hvalue⟩
    · rename_i hvalue
      cases h
      exact ⟨_, hvalue⟩
    · rename_i hvalue
      cases h
      exact ⟨_, hvalue⟩
  obtain ⟨number, hnumber⟩ := hnumber
  obtain ⟨blanks, n, hn⟩ := exists_numberValue hnumber
  exact ⟨blanks, .number n, hn⟩

/-! ## Values that are passed over -/

theorem readWord_rest {word : List Char} (h : readWord c word = .ok ((), c')) :
    c.rest = word ++ c'.rest := by
  induction word generalizing c with
  | nil =>
    cases h
    rfl
  | cons letter word ih =>
    unfold readWord at h
    split at h
    · cases h
    · rename_i next tail hc
      split at h
      · rename_i hletter
        have hrest := ih h
        rw [advance_rest hc] at hrest
        rw [hc, hletter, hrest]
        rfl
      · cases h

/-- A word is a value. -/
theorem exists_word {word : List Char} (h : wordAfter? x = some word) :
    ∃ v : RawValue, v.text = x :: word := by
  unfold wordAfter? at h
  split_ifs at h with hn ht hf
  all_goals cases h
  · exact ⟨.null, hn ▸ rfl⟩
  · exact ⟨.bool true, ht ▸ rfl⟩
  · exact ⟨.bool false, hf ▸ rfl⟩

theorem exists_scalar (hc : c.rest = x :: tail) (h : passScalar x c = .ok ((), c')) :
    ∃ v : RawValue, c.rest = v.text ++ c'.rest := by
  unfold passScalar at h
  split at h
  · rename_i word hword
    obtain ⟨v, hv⟩ := exists_word hword
    have hrest := readWord_rest h
    rw [advance_rest hc] at hrest
    exact ⟨v, by rw [hc, hrest, hv]; rfl⟩
  · split at h
    · rename_i hquote
      obtain ⟨⟨text, c1⟩, hread, hend⟩ := exists_of_map_eq_ok h
      cases hend
      rw [hquote] at hc
      obtain ⟨pieces, hpieces⟩ := exists_stringLiteral_ahead hc hread
      exact ⟨.string pieces, hpieces⟩
    · split at h
      · rename_i hminus
        obtain ⟨⟨numeral, c1⟩, hread, hend⟩ := exists_of_map_eq_ok h
        cases hend
        have hstart : c.rest = (if true then ['-'] else []) ++ c.advance.rest := by
          rw [advance_rest hc, hc, hminus]
          rfl
        obtain ⟨n, hn⟩ := exists_numberText hstart (exists_unsignedText true hread)
        exact ⟨.number n, hn⟩
      · split at h
        · obtain ⟨⟨numeral, c1⟩, hread, hend⟩ := exists_of_map_eq_ok h
          cases hend
          have hstart : c.rest = (if false then ['-'] else []) ++ c.rest := rfl
          obtain ⟨n, hn⟩ := exists_numberText hstart (exists_unsignedText false hread)
          exact ⟨.number n, hn⟩
        · cases h

theorem exists_key (h : passKey c = .ok ((), c')) :
    ∃ before pieces beforeColon, c.rest =
      blankText before ++ (stringLiteral pieces ++ (blankText beforeColon ++ ':' :: c'.rest)) := by
  unfold passKey at h
  simp only at h
  split at h
  · cases h
  · rename_i x tail hx
    split at h
    · rename_i hquote
      split at h
      · cases h
      · rename_i text c1 hread
        split at h
        · cases h
        · rename_i next more hnext
          split at h
          · rename_i hcolon
            cases h
            rw [hquote] at hx
            obtain ⟨before, hbefore⟩ := exists_blanks c
            obtain ⟨pieces, hpieces⟩ := exists_stringLiteral_ahead hx hread
            obtain ⟨beforeColon, hbeforeColon⟩ := exists_blanks c1
            rw [hnext, hcolon] at hbeforeColon
            refine ⟨before, pieces, beforeColon, ?_⟩
            rw [hbefore, hpieces, hbeforeColon, advance_rest hnext]
          · cases h
    · cases h

/-- What stands behind an open bracket, or behind a value in it when that is not the `first`: the
other elements or members, and the closing bracket. -/
def Bracket.Closes (first : Bool) : Bracket → List Char → List Char → Prop
  | .list, text, rest => ∃ (blanks : List Blank) (elements : List (Element RawValue)),
    text = blankText blanks ++ (RawValue.elementsText first elements ++ ']' :: rest)
  | .object, text, rest => ∃ (blanks : List Blank) (members : List (RawMember RawValue)),
    text = blankText blanks ++ (RawValue.membersText first members ++ '}' :: rest)

/-- Passing goes on behind the innermost bracket in fewer steps. -/
def GoesOn (steps : Nat) (brackets : List Bracket) (c c' : Cursor) : Prop :=
  ∃ fewer < steps, pass fewer .behind brackets c = .ok ((), c')

theorem GoesOn.mono {steps steps' : Nat} {brackets : List Bracket} (h : GoesOn steps brackets c c')
    (hle : steps ≤ steps') : GoesOn steps' brackets c c' := by
  obtain ⟨fewer, hfewer, hpass⟩ := h
  exact ⟨fewer, Nat.lt_of_lt_of_le hfewer hle, hpass⟩

mutual
/-- A value is passed over first. -/
theorem exists_passed_value {steps : Nat} {brackets : List Bracket} {c c' : Cursor}
    (h : pass steps .value brackets c = .ok ((), c')) :
    ∃ (blanks : List Blank) (v : RawValue) (last : Cursor),
      c.rest = blankText blanks ++ (v.text ++ last.rest) ∧ GoesOn steps brackets last c' := by
  obtain ⟨blanks, hblanks⟩ := exists_blanks c
  rw [hblanks]
  match steps with
  | 0 =>
    unfold pass at h
    cases h
  | steps + 1 =>
    unfold pass at h
    simp only at h
    split at h
    · cases h
    · rename_i x tail hx
      split at h
      · rename_i hlist
        rw [hlist] at hx
        obtain ⟨inside, hinside⟩ := exists_blanks c.skipBlanks.advance
        rw [advance_rest hx] at hinside
        split at h
        · cases h
        · rename_i more hclose
          refine ⟨blanks, .array inside [], _, ?_, steps, Nat.lt_succ_self _, h⟩
          rw [hx, hinside, hclose, advance_rest hclose]
          simp [RawValue.text, RawValue.elementsText]
        · obtain ⟨before, v, c1, hv, fewer, hfewer, hpass⟩ := exists_passed_value h
          obtain ⟨last, ⟨after, elements, helements⟩, hgoes⟩ := exists_passed_rest hpass
          refine ⟨blanks, .array inside (⟨before, v, after⟩ :: elements), last, ?_,
            hgoes.mono (by omega)⟩
          rw [hx, hinside, hv, helements]
          simp [RawValue.text, RawValue.elementsText]
      · split at h
        · rename_i hobject
          rw [hobject] at hx
          obtain ⟨inside, hinside⟩ := exists_blanks c.skipBlanks.advance
          rw [advance_rest hx] at hinside
          split at h
          · cases h
          · rename_i more hclose
            refine ⟨blanks, .object inside [], _, ?_, steps, Nat.lt_succ_self _, h⟩
            rw [hx, hinside, hclose, advance_rest hclose]
            simp [RawValue.text, RawValue.membersText]
          · split at h
            · cases h
            · rename_i c1 hkey
              obtain ⟨before, pieces, beforeColon, hpieces⟩ := exists_key hkey
              obtain ⟨afterColon, v, c2, hv, fewer, hfewer, hpass⟩ := exists_passed_value h
              obtain ⟨last, ⟨after, members, hmembers⟩, hgoes⟩ := exists_passed_rest hpass
              refine ⟨blanks, .object inside (⟨before, pieces, beforeColon, afterColon, v, after⟩ ::
                members), last, ?_, hgoes.mono (by omega)⟩
              rw [hx, hinside, hpieces, hv, hmembers]
              simp [RawValue.text, RawValue.membersText]
        · split at h
          · cases h
          · rename_i c1 hscalar
            obtain ⟨v, hv⟩ := exists_scalar hx hscalar
            exact ⟨blanks, v, c1, by rw [hv], steps, Nat.lt_succ_self _, h⟩
  termination_by steps

/-- Behind a value, the rest of what is open is passed over first. -/
theorem exists_passed_rest {steps : Nat} {bracket : Bracket} {brackets : List Bracket}
    {c c' : Cursor} (h : pass steps .behind (bracket :: brackets) c = .ok ((), c')) :
    ∃ last : Cursor, bracket.Closes false c.rest last.rest ∧ GoesOn steps brackets last c' := by
  obtain ⟨after, hafter⟩ := exists_blanks c
  rw [hafter]
  match steps, bracket with
  | 0, _ =>
    unfold pass at h
    cases h
  | steps + 1, .list =>
    unfold pass at h
    simp only at h
    split at h
    · cases h
    · rename_i tail hcomma
      obtain ⟨before, v, c1, hv, fewer, hfewer, hpass⟩ := exists_passed_value h
      obtain ⟨last, ⟨afterNext, elements, helements⟩, hgoes⟩ := exists_passed_rest hpass
      refine ⟨last, ⟨after, ⟨before, v, afterNext⟩ :: elements, ?_⟩, hgoes.mono (by omega)⟩
      rw [advance_rest hcomma] at hv
      rw [hcomma, hv, helements]
      simp [RawValue.elementsText]
    · rename_i tail hclose
      refine ⟨_, ⟨after, [], ?_⟩, steps, Nat.lt_succ_self _, h⟩
      rw [hclose, advance_rest hclose]
      rfl
    · cases h
  | steps + 1, .object =>
    unfold pass at h
    simp only at h
    split at h
    · cases h
    · rename_i tail hcomma
      split at h
      · cases h
      · rename_i c1 hkey
        obtain ⟨before, pieces, beforeColon, hpieces⟩ := exists_key hkey
        obtain ⟨afterColon, v, c2, hv, fewer, hfewer, hpass⟩ := exists_passed_value h
        obtain ⟨last, ⟨afterNext, members, hmembers⟩, hgoes⟩ := exists_passed_rest hpass
        refine ⟨last, ⟨after, ⟨before, pieces, beforeColon, afterColon, v, afterNext⟩ :: members,
          ?_⟩, hgoes.mono (by omega)⟩
        rw [advance_rest hcomma] at hpieces
        rw [hcomma, hpieces, hv, hmembers]
        simp [RawValue.membersText]
    · rename_i tail hclose
      refine ⟨_, ⟨after, [], ?_⟩, steps, Nat.lt_succ_self _, h⟩
      rw [hclose, advance_rest hclose]
      rfl
    · cases h
  termination_by steps
end

theorem passValue_readsValues : ReadsValues passValue := by
  intro c a c' h
  obtain ⟨blanks, v, last, hv, fewer, -, hpass⟩ := exists_passed_value h
  have hlast : last = c' := by
    cases fewer <;> (unfold pass at hpass; cases hpass; rfl)
  exact ⟨blanks, v, hlast ▸ hv⟩

/-! ## Members and elements -/

/-- What was found when a key was looked for: the end of the object, or a key, which is behind a comma
when it is not the `first`. -/
def KeyFound (first : Bool) (text : List Char) (c' : Cursor) : Option String → Prop
  | none => ∃ blanks, text = blankText blanks ++ '}' :: c'.advance.rest
  | some _ => ∃ blanks before pieces, text = blankText blanks ++ ((if first then [] else [',']) ++
    (blankText before ++ (stringLiteral pieces ++ c'.rest)))

theorem nextKey_found {first : Bool} {found : Option String} (h : nextKey first c = .ok (found, c')) :
    KeyFound first c.rest c' found := by
  obtain ⟨blanks, hblanks⟩ := exists_blanks c
  unfold nextKey at h
  simp only at h
  split at h
  · cases h
  · rename_i x tail hx
    split at h
    · rename_i hclose
      cases h
      exact ⟨blanks, by rw [hblanks, advance_rest hx, hx, hclose]⟩
    · split at h
      · rename_i hfirst
        split at h
        · rename_i hquote
          obtain ⟨⟨text, last⟩, hread, hend⟩ := exists_of_map_eq_ok h
          cases hend
          rw [hquote] at hx
          obtain ⟨pieces, hpieces⟩ := exists_stringLiteral_ahead hx hread
          exact ⟨blanks, [], pieces, by rw [hblanks, hpieces, hfirst]; rfl⟩
        · cases h
      · rename_i hfirst
        split at h
        · rename_i hcomma
          obtain ⟨before, hbefore⟩ := exists_blanks c.skipBlanks.advance
          split at h
          · cases h
          · rename_i y more hy
            split at h
            · rename_i hquote
              obtain ⟨⟨text, last⟩, hread, hend⟩ := exists_of_map_eq_ok h
              cases hend
              rw [hquote] at hy
              obtain ⟨pieces, hpieces⟩ := exists_stringLiteral_ahead hy hread
              refine ⟨blanks, before, pieces, ?_⟩
              rw [advance_rest hx] at hbefore
              rw [hblanks, hx, hcomma, hbefore, hpieces, if_neg hfirst]
              rfl
            · split at h
              · cases h
              · cases h
        · cases h

theorem exists_colon (h : readColon c = .ok ((), c')) :
    ∃ blanks, c.rest = blankText blanks ++ ':' :: c'.rest := by
  obtain ⟨blanks, hblanks⟩ := exists_blanks c
  unfold readColon at h
  simp only at h
  split at h
  · cases h
  · rename_i x tail hx
    split at h
    · rename_i hcolon
      cases h
      exact ⟨blanks, by rw [hblanks, advance_rest hx, hx, hcolon]⟩
    · cases h

variable {first : Bool} {key : String} {c1 c2 c3 : Cursor} {rest : List Char}

theorem closes_of_nextKey_none (h : nextKey first c = .ok (none, c')) :
    Bracket.object.Closes first c.rest c'.advance.rest := by
  obtain ⟨blanks, hblanks⟩ := nextKey_found h
  exact ⟨blanks, [], hblanks⟩

/-- A member is a key, a colon and a value, before the other members. -/
theorem closes_of_member (hkey : nextKey first c = .ok (some key, c1))
    (hcolon : readColon c1 = .ok ((), c2))
    (hvalue : ∃ (blanks : List Blank) (v : RawValue), c2.rest = blankText blanks ++ (v.text ++ c3.rest))
    (h : Bracket.object.Closes false c3.rest rest) : Bracket.object.Closes first c.rest rest := by
  obtain ⟨blanks, before, pieces, hpieces⟩ := nextKey_found hkey
  obtain ⟨beforeColon, hbeforeColon⟩ := exists_colon hcolon
  obtain ⟨afterColon, v, hv⟩ := hvalue
  obtain ⟨after, members, hmembers⟩ := h
  refine ⟨blanks, ⟨before, pieces, beforeColon, afterColon, v, after⟩ :: members, ?_⟩
  rw [hpieces, hbeforeColon, hv, hmembers]
  simp [RawValue.membersText]

theorem exists_listEnd (h : Shape.readListEnd c = .ok ((), c')) :
    ∃ blanks, c.rest = blankText blanks ++ ']' :: c'.rest := by
  obtain ⟨blanks, hblanks⟩ := exists_blanks c
  unfold Shape.readListEnd at h
  simp only at h
  split at h
  · cases h
  · rename_i tail hx
    cases h
    exact ⟨blanks, by rw [hblanks, advance_rest hx, hx]⟩
  · split at h
    · cases h
    · cases h
  · cases h

theorem exists_nextElement (h : Shape.nextElement first c = .ok (true, c')) :
    ∃ blanks before, c.rest = blankText blanks ++ ((if first then [] else [',']) ++
      (blankText before ++ c'.rest)) := by
  obtain ⟨blanks, hblanks⟩ := exists_blanks c
  unfold Shape.nextElement at h
  simp only at h
  split at h
  · cases h
  · rename_i x tail hx
    split at h
    · cases h
    · split at h
      · rename_i hfirst
        cases h
        exact ⟨blanks, [], by rw [hfirst]; exact hblanks⟩
      · rename_i hfirst
        split at h
        · rename_i hcomma
          obtain ⟨before, hbefore⟩ := exists_blanks c.skipBlanks.advance
          rw [advance_rest hx] at hbefore
          split at h
          · cases h
          · split at h
            · cases h
            · cases h
              refine ⟨blanks, before, ?_⟩
              rw [hblanks, hx, hcomma, if_neg hfirst]
              exact congrArg (fun text => blankText blanks ++ ',' :: text) hbefore
        · cases h

/-! ## Structures -/

namespace Shape

variable {s : Shape α} {a value : α}

theorem closes_of_readMembers (hs : ∀ field ∈ s.fields, ReadsValues field.read) {steps : Nat}
    {seen : List String} (h : s.readMembers steps first seen value c = .ok (a, c')) :
    Bracket.object.Closes first c.rest c'.rest := by
  induction steps generalizing first seen value c with
  | zero => cases h
  | succ steps ih =>
    unfold readMembers at h
    split at h
    · cases h
    · rename_i c1 hkey
      split at h
      · rename_i field _
        obtain ⟨e, he⟩ := Meaning.failInObject_error (ε := α × Cursor) c1 (.missingField field.name)
        rw [he] at h
        cases h
      · cases h
        exact closes_of_nextKey_none hkey
    · rename_i key c1 hkey
      split at h
      · rename_i field hfield
        split at h
        · obtain ⟨e, he⟩ := Meaning.failInObject_error (ε := α × Cursor) c1 (.duplicateField key)
          rw [he] at h
          cases h
        · split at h
          · cases h
          · rename_i c2 hcolon
            split at h
            · cases h
            · rename_i set c3 hread
              have hvalue := hs field (List.mem_of_find?_eq_some hfield) _ _ _ hread
              exact closes_of_member hkey hcolon hvalue (ih h)
      · split at h
        · cases h
        · rename_i c2 hcolon
          split at h
          · cases h
          · rename_i c3 hpass
            exact closes_of_member hkey hcolon (passValue_readsValues _ _ _ hpass) (ih h)

theorem closes_of_readElements {fields : List (Field α)} {read : Nat}
    (hfields : ∀ field ∈ fields, ReadsValues field.read)
    (h : s.readElements fields read value c = .ok (a, c')) :
    Bracket.list.Closes (decide (read = 0)) c.rest c'.rest := by
  induction fields generalizing read value c with
  | nil =>
    unfold readElements at h
    split at h
    · cases h
    · rename_i c1 hend
      cases h
      obtain ⟨blanks, hblanks⟩ := exists_listEnd hend
      exact ⟨blanks, [], hblanks⟩
  | cons field fields ih =>
    obtain ⟨hfield, hfields⟩ := List.forall_mem_cons.1 hfields
    unfold readElements at h
    split at h
    · cases h
    · rename_i c1 hnext
      obtain ⟨e, he⟩ := Meaning.failInList_error (ε := α × Cursor) c1
        (.invalidLength read s.lengthText)
      rw [he] at h
      cases h
    · rename_i c1 hnext
      split at h
      · cases h
      · rename_i set c2 hread
        obtain ⟨blanks, before, hbefore⟩ := exists_nextElement hnext
        obtain ⟨more, v, hv⟩ := hfield _ _ _ hread
        obtain ⟨after, elements, helements⟩ := ih hfields h
        refine ⟨blanks, ⟨before ++ more, v, after⟩ :: elements, ?_⟩
        have hnot : decide (read + 1 = 0) = false := rfl
        rw [hbefore, hv, helements, hnot, blankText_append before more]
        simp [RawValue.elementsText]

/-- A structure is read from values when its fields are. -/
theorem read_readsValues (hs : ∀ field ∈ s.fields, ReadsValues field.read) : ReadsValues s.read := by
  intro c a c' h
  obtain ⟨blanks, hblanks⟩ := exists_blanks c
  rw [hblanks]
  unfold read at h
  simp only at h
  split at h
  · cases h
  · rename_i x tail hx
    split at h
    · rename_i hobject
      obtain ⟨inside, members, hmembers⟩ := closes_of_readMembers hs h
      rw [advance_rest hx] at hmembers
      refine ⟨blanks, .object inside members, ?_⟩
      rw [hx, hobject, hmembers]
      simp [RawValue.text]
    · split at h
      · rename_i hlist
        obtain ⟨inside, elements, helements⟩ := closes_of_readElements hs h
        rw [advance_rest hx] at helements
        refine ⟨blanks, .array inside elements, ?_⟩
        rw [hx, hlist, helements]
        simp [RawValue.text]
      · obtain ⟨e, he⟩ := wrongType_error (α := α × Cursor) ("struct " ++ s.name) x c.skipBlanks
        rw [he] at h
        cases h

end Shape

/-! ## Documents -/

/-- A text that a reader of values accepts is that of a document. -/
theorem exists_document {read : Cursor → Reading α} (hread : ReadsValues read) {text : String} {a : α}
    (h : readDocument read text = .ok a) : ∃ d : RawDocument, d.text = text.toList := by
  unfold readDocument at h
  split at h
  · cases h
  · rename_i value c hvalue
    simp only at h
    split at h
    · rename_i hempty
      obtain ⟨before, v, hv⟩ := hread _ _ _ hvalue
      obtain ⟨after, hafter⟩ := exists_blanks c
      rw [List.isEmpty_iff.1 hempty, List.append_nil] at hafter
      refine ⟨⟨before, v, after⟩, ?_⟩
      rw [RawDocument.text, ← hafter]
      exact hv.symm
    · cases h

end VectorBench.Json
