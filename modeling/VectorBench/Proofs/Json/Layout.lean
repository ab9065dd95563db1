import Mathlib.Data.List.Forall2
import VectorBench.Proofs.Json.Printed

/-!
# Objects over several lines

The layout of printed objects as a choice of blanks: every member stands on a line of its own, one
level deeper than the object, with a blank behind its colon.  An object of the grammar with these
blanks has the text that is printed, and its members are the ones that were laid out.

    (prettyObject level members).text = Json.pretty level (.object printed)       (prettyObject_text)
-/

namespace VectorBench.Json

/-- A line end and the blanks of a level. -/
def lineBlanks (level : Nat) : List Blank := .lineFeed :: List.replicate (2 * level) .space

theorem lineBlanks_text (level : Nat) : blankText (lineBlanks level) = newLine level := by
  simp [blankText, lineBlanks, newLine, Blank.char]

theorem blankText_nil : blankText [] = [] := rfl

theorem blankText_space : blankText [.space] = [' '] := rfl

def Name.ofText (text : String) : Name := ⟨textPieces text, text, denoted_textPieces text⟩

/-- Members of an object at a level, with the line of the closing bracket behind the last one. -/
def layoutMembers (level : Nat) : List (String × Value) → List (Member Value)
  | [] => []
  | [(name, value)] =>
    [⟨lineBlanks (level + 1), .ofText name, [], [.space], value, lineBlanks level⟩]
  | (name, value) :: next :: rest =>
    ⟨lineBlanks (level + 1), .ofText name, [], [.space], value, []⟩ ::
      layoutMembers level (next :: rest)

def prettyObject (level : Nat) (members : List (String × Value)) : Value :=
  .object [] (layoutMembers level members)

/-- The members of an object are the ones that are laid out. -/
theorem layoutMembers_map (level : Nat) (members : List (String × Value)) :
    (layoutMembers level members).map (fun m => (m.name.text, m.value)) = members := by
  induction members with
  | nil => rfl
  | cons m members ih =>
    obtain ⟨name, value⟩ := m
    cases members with
    | nil => rfl
    | cons next rest =>
      rw [layoutMembers, List.map_cons, ih]
      rfl

/-! ## Texts -/

variable {level : Nat}

/-- A member of the grammar and a printed one have one name, and their values have one text. -/
def SameText (level : Nat) (m : String × Value) (printed : String × Json) : Prop :=
  m.1 = printed.1 ∧ m.2.text = Json.pretty level printed.2

theorem layoutMembers_text {m : String × Value} {p : String × Json}
    {members : List (String × Value)} {printed : List (String × Json)} (first : Bool)
    (hm : SameText (level + 1) m p) (h : List.Forall₂ (SameText (level + 1)) members printed) :
    Value.membersText first (layoutMembers level (m :: members)) =
      (if first then [] else [',']) ++ (newLine (level + 1) ++ (stringText p.1 ++ ':' :: ' ' ::
        (Json.pretty (level + 1) p.2 ++ (Json.prettyMembers (level + 1) printed ++
          newLine level)))) := by
  induction h generalizing first m p with
  | nil =>
    obtain ⟨hname, hvalue⟩ := hm
    simp [layoutMembers, Value.membersText, Name.ofText, stringLiteral_eq, lineBlanks_text, hname,
      hvalue, Json.prettyMembers, blankText_nil, blankText_space]
  | cons hnext h ih =>
    obtain ⟨hname, hvalue⟩ := hm
    rename_i next q members printed
    rw [layoutMembers, Value.membersText, ih false hnext]
    simp [Name.ofText, stringLiteral_eq, lineBlanks_text, hname, hvalue, Json.prettyMembers,
      blankText_nil, blankText_space]

/-- An object that is laid out has the text that is printed. -/
theorem prettyObject_text {members : List (String × Value)} {printed : List (String × Json)}
    (h : List.Forall₂ (SameText (level + 1)) members printed) :
    (prettyObject level members).text = Json.pretty level (.object printed) := by
  cases h with
  | nil => rfl
  | cons hm h =>
    rename_i m p members printed
    obtain ⟨name, json⟩ := p
    unfold prettyObject
    rw [Value.text, layoutMembers_text true hm h]
    simp [Json.pretty, blankText]

end VectorBench.Json
