import VectorBench.Json.Fault
import VectorBench.Proofs.Json.Document

/-!
# Readings and what they leave

What reading a part of a document comes to: a value and the characters behind the part, or a fault.
Places in the text do not matter for this, so cursors are compared by their `rest` alone.
-/

namespace VectorBench.Json

/-- A reading yields the expected value and leaves `rest`, or is at fault where none is expected. -/
def Yields {α : Type} (reading : Reading α) (expected : Option α) (rest : List Char) : Prop :=
  match expected with
  | some value => ∃ c : Cursor, reading = .ok (value, c) ∧ c.rest = rest
  | none => ∃ e, reading = .error e

theorem Yields.map {α β : Type} {reading : Reading α} {expected : Option α} {rest : List Char}
    (h : Yields reading expected rest) (g : α → β) :
    Yields (Except.map (fun (value, c) => (g value, c)) reading) (expected.map g) rest := by
  cases expected with
  | none =>
    obtain ⟨e, rfl⟩ := h
    exact ⟨e, rfl⟩
  | some value =>
    obtain ⟨c, rfl, hc⟩ := h
    exact ⟨c, rfl, hc⟩

/-! ## Cursors -/

theorem advance_rest {c : Cursor} {x : Char} {rest : List Char} (h : c.rest = x :: rest) :
    c.advance.rest = rest := by
  unfold Cursor.advance
  rw [h]

theorem skipBlanksFrom_rest (p : Position) (text : List Char) :
    (skipBlanksFrom p text).rest = text.dropWhile isJsonBlank := by
  induction text generalizing p with
  | nil => rfl
  | cons x text ih =>
    unfold skipBlanksFrom
    rw [List.dropWhile_cons]
    split
    · exact ih _
    · rfl

theorem skipBlanks_rest (c : Cursor) : c.skipBlanks.rest = c.rest.dropWhile isJsonBlank :=
  skipBlanksFrom_rest _ _

theorem isJsonBlank_char (b : Blank) : isJsonBlank b.char = true := by
  cases b <;> rfl

theorem dropWhile_blankText (blanks : List Blank) (rest : List Char) :
    (blankText blanks ++ rest).dropWhile isJsonBlank = rest.dropWhile isJsonBlank := by
  induction blanks with
  | nil => rfl
  | cons b blanks ih =>
    change (b.char :: (blankText blanks ++ rest)).dropWhile isJsonBlank = _
    rw [List.dropWhile_cons, if_pos (isJsonBlank_char b)]
    exact ih

/-- Behind blanks stands the first character that is none. -/
theorem skipBlanks_rest_eq {c : Cursor} {blanks : List Blank} {x : Char} {rest : List Char}
    (h : c.rest = blankText blanks ++ x :: rest) (hx : isJsonBlank x = false) :
    c.skipBlanks.rest = x :: rest := by
  rw [skipBlanks_rest, h, dropWhile_blankText, List.dropWhile_cons, hx]
  rfl

/-- Nothing but blanks is left. -/
theorem skipBlanks_rest_nil {c : Cursor} {blanks : List Blank} (h : c.rest = blankText blanks) :
    c.skipBlanks.rest = [] := by
  rw [skipBlanks_rest, h, ← List.append_nil (blankText blanks), dropWhile_blankText]
  rfl

/-! ## What may follow a number -/

/-- A text that does not go on with a number. -/
def Ends (rest : List Char) : Prop :=
  ∀ x ∈ rest.head?, x.isDigit = false ∧ x ≠ '.' ∧ x ≠ 'e' ∧ x ≠ 'E'

theorem ends_cons {x : Char} {rest : List Char} (h : x = ',' ∨ x = ']' ∨ x = '}') :
    Ends (x :: rest) := by
  intro y hy
  obtain rfl : x = y := by simpa using hy
  rcases h with rfl | rfl | rfl <;> decide

theorem ends_blankText {blanks : List Blank} {rest : List Char} (h : Ends rest) :
    Ends (blankText blanks ++ rest) := by
  cases blanks with
  | nil => exact h
  | cons b blanks =>
    intro y hy
    obtain rfl : b.char = y := by simpa [blankText] using hy
    cases b <;> decide

end VectorBench.Json
