import VectorBench.Proofs.Json.Denotation
import VectorBench.Proofs.Json.PassOver

/-!
# Reading values of one type as they are written

Where a number is expected, every other value is at fault.  A natural number has neither sign nor
fraction nor exponent and is below `2 ^ 64`; a 64-bit number may be written in any way.

    v.natural? = some x ↔ ∃ n, v = .number n ∧ n.natural? = some x.toNat     (natural?_eq_some_iff)
    v.binary? = some x ↔ ∃ n, v = .number n ∧ n.ReadAs x                      (binary?_eq_some_iff)
-/

namespace VectorBench.Json

/-! ## What values are -/

namespace RawValue

/-- The natural number below `2 ^ 64` that a value is. -/
def natural? : RawValue → Option UInt64
  | number n => n.natural?.bind fun v => if v < UInt64.size then some v.toUInt64 else none
  | _ => none

/-- The 64-bit number that a value is read as. -/
def binary? : RawValue → Option Binary64
  | number n => n.binary?
  | _ => none

theorem natural?_eq_some_iff {v : RawValue} {x : UInt64} :
    v.natural? = some x ↔ ∃ n, v = .number n ∧ n.natural? = some x.toNat := by
  cases v with
  | number n =>
    simp only [natural?, Option.bind_eq_some_iff]
    constructor
    · rintro ⟨value, hn, hx⟩
      split at hx
      · rename_i hlt
        cases hx
        refine ⟨n, rfl, ?_⟩
        rw [Nat.toUInt64_eq, UInt64.toNat_ofNat', Nat.mod_eq_of_lt hlt]
        exact hn
      · cases hx
    · rintro ⟨m, hm, hn⟩
      cases hm
      refine ⟨x.toNat, hn, ?_⟩
      rw [if_pos x.toNat_lt_size, Nat.toUInt64_eq, UInt64.ofNat_toNat]
  | _ => simp [natural?]

theorem binary?_eq_some_iff {v : RawValue} {x : Binary64} :
    v.binary? = some x ↔ ∃ n, v = .number n ∧ n.ReadAs x := by
  cases v with
  | number n =>
    simp only [binary?, NumberLiteral.binary?_eq_some_iff]
    constructor
    · intro h
      exact ⟨n, rfl, h⟩
    · rintro ⟨m, hm, h⟩
      cases hm
      exact h
  | _ => simp [binary?]

end RawValue

/-! ## Values of a wrong type -/

variable {c : Cursor} {blanks : List Blank} {rest : List Char}

theorem wrongType_error {α : Type} (expected : String) (first : Char) (c : Cursor) :
    ∃ e, wrongType (α := α) expected first c = .error e := by
  unfold wrongType Cursor.fail Cursor.failAhead
  cases wordAfter? first with
  | some word =>
    simp only
    split
    · exact ⟨_, rfl⟩
    · exact ⟨_, rfl⟩
  | none =>
    simp only
    split
    · split
      · exact ⟨_, rfl⟩
      · exact ⟨_, rfl⟩
    · split
      · split
        · exact ⟨_, rfl⟩
        · exact ⟨_, rfl⟩
      · split
        · exact ⟨_, rfl⟩
        · split
          · exact ⟨_, rfl⟩
          · exact ⟨_, rfl⟩

/-- The first character of a value that is no number. -/
theorem RawValue.text_head_of_not_number {v : RawValue} (hv : ∀ n, v ≠ .number n) (rest : List Char) :
    ∃ x tail, v.text ++ rest = x :: tail ∧ isJsonBlank x = false ∧ x ≠ '-' ∧ x.isDigit = false := by
  cases v with
  | null => exact ⟨_, _, rfl, rfl, by decide, rfl⟩
  | bool b => cases b <;> exact ⟨_, _, rfl, rfl, by decide, rfl⟩
  | number n => exact absurd rfl (hv n)
  | string pieces => exact ⟨_, _, rfl, rfl, by decide, rfl⟩
  | array inside elements => exact ⟨_, _, rfl, rfl, by decide, rfl⟩
  | object inside members => exact ⟨_, _, rfl, rfl, by decide, rfl⟩

theorem readNumberValue_error {v : RawValue} (hv : ∀ n, v ≠ .number n) (expected : String)
    (h : c.rest = blankText blanks ++ (v.text ++ rest)) :
    ∃ e, readNumberValue expected c = .error e := by
  obtain ⟨x, tail, hx, hblank, hminus, hdigit⟩ := RawValue.text_head_of_not_number hv rest
  rw [hx] at h
  have hskip := skipBlanks_rest_eq h hblank
  unfold readNumberValue
  simp only [hskip, if_neg hminus, hdigit, Bool.false_eq_true, if_false]
  exact wrongType_error expected x _

/-! ## Numbers -/

def Number.word? : Number → Option UInt64
  | .natural value => some value.toUInt64
  | _ => none

theorem natural?_number (n : NumberLiteral) :
    RawValue.natural? (.number n) = n.number?.bind Number.word? := by
  apply Option.ext
  intro x
  rw [RawValue.natural?_eq_some_iff, Option.bind_eq_some_iff]
  constructor
  · rintro ⟨m, hm, hnat⟩
    cases hm
    refine ⟨_, NumberLiteral.number?_eq_natural_iff.2 ⟨hnat, x.toNat_lt_size⟩, ?_⟩
    rw [Number.word?, Nat.toUInt64_eq, UInt64.ofNat_toNat]
  · rintro ⟨number, hnumber, hx⟩
    cases number with
    | natural value =>
      obtain ⟨hnat, hlt⟩ := NumberLiteral.number?_eq_natural_iff.1 hnumber
      cases hx
      refine ⟨n, rfl, ?_⟩
      rw [Nat.toUInt64_eq, UInt64.toNat_ofNat', Nat.mod_eq_of_lt hlt]
      exact hnat
    | negative value => cases hx
    | float value => cases hx

theorem readNatural_text (expected : String) {v : RawValue} (hr : Ends rest)
    (h : c.rest = blankText blanks ++ (v.text ++ rest)) :
    Yields (readNatural expected c) v.natural? rest := by
  unfold readNatural
  by_cases hv : ∃ n, v = .number n
  · obtain ⟨n, rfl⟩ := hv
    have hread := readNumberValue_text expected hr h
    rw [natural?_number]
    cases hn : n.number? with
    | none =>
      rw [hn] at hread
      obtain ⟨e, he⟩ := hread
      rw [he]
      exact ⟨e, rfl⟩
    | some number =>
      rw [hn] at hread
      obtain ⟨c', hc, hrest⟩ := hread
      rw [hc]
      cases number with
      | natural value => exact ⟨c', rfl, hrest⟩
      | negative value => exact ⟨_, rfl⟩
      | float value => exact ⟨_, rfl⟩
  · have hnone : v.natural? = none := by
      cases v with
      | number n => exact absurd ⟨n, rfl⟩ hv
      | _ => rfl
    obtain ⟨e, he⟩ := readNumberValue_error (fun n hn => hv ⟨n, hn⟩) expected h
    rw [he, hnone]
    exact ⟨e, rfl⟩

theorem readFloat_text (expected : String) {v : RawValue} (hr : Ends rest)
    (h : c.rest = blankText blanks ++ (v.text ++ rest)) :
    Yields (readFloat expected c) v.binary? rest := by
  unfold readFloat
  by_cases hv : ∃ n, v = .number n
  · obtain ⟨n, rfl⟩ := hv
    have hread := readNumberValue_text expected hr h
    have hbinary : RawValue.binary? (.number n) = n.number?.map Number.binary := rfl
    rw [hbinary]
    cases hn : n.number? with
    | none =>
      rw [hn] at hread
      obtain ⟨e, he⟩ := hread
      rw [he]
      exact ⟨e, rfl⟩
    | some number =>
      rw [hn] at hread
      obtain ⟨c', hc, hrest⟩ := hread
      rw [hc]
      cases number with
      | natural value => exact ⟨c', rfl, hrest⟩
      | negative value => exact ⟨c', rfl, hrest⟩
      | float value => exact ⟨c', rfl, hrest⟩
  · have hnone : v.binary? = none := by
      cases v with
      | number n => exact absurd ⟨n, rfl⟩ hv
      | _ => rfl
    obtain ⟨e, he⟩ := readNumberValue_error (fun n hn => hv ⟨n, hn⟩) expected h
    rw [he, hnone]
    exact ⟨e, rfl⟩

end VectorBench.Json
