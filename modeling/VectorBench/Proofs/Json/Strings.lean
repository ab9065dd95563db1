import VectorBench.Json.StringReader
import VectorBench.Proofs.Json.Reading

/-!
# Reading strings as they are written

A string that is kept yields the text it denotes, and is at fault when it denotes none.  A string
that is passed over is read to its closing quotation mark whatever its codes are.

    Yields (readString .kept c) ((denoted pieces).map String.ofList) rest            (readString_kept)
    ∃ text, Yields (readString .passed c) (some text) rest                       (readString_passed)
-/

namespace VectorBench.Json

/-! ## Codes -/

theorem hexValue?_char (d : HexDigit) : hexValue? d.char = some d.value := by
  obtain ⟨value, upper⟩ := d
  cases upper
  · revert value
    decide
  · revert value
    decide

theorem hexDigit_utf8Size (d : HexDigit) : d.char.utf8Size = 1 := by
  obtain ⟨value, upper⟩ := d
  cases upper
  · revert value
    decide
  · revert value
    decide

variable {use : StringUse} {read rest : List Char}

theorem readStringFrom_hexDigit {high : Option Nat} {left value : Nat} (d : HexDigit) (p : Position)
    (h : 1 < left) :
    readStringFrom use (.code high left (some value)) read p (d.char :: rest) =
      readStringFrom use (.code high (left - 1) (some (value * 16 + d.value))) read
        (p.after d.char) rest := by
  have hvalue : codeValue (some value) d.char = some (value * 16 + d.value) := by
    simp [codeValue, hexValue?_char]
  rw [readStringFrom, hexDigit_utf8Size, if_neg (by omega), if_pos h, hvalue]

theorem readStringFrom_lastHexDigit {high : Option Nat} {value : Nat} {char : Option Char}
    {state : StringState} (d : HexDigit) (p : Position)
    (h : codeResult use high (value * 16 + d.value) = .ok (char, state)) :
    readStringFrom use (.code high 1 (some value)) read p (d.char :: rest) =
      readStringFrom use state (char.toList ++ read) (p.after d.char) rest := by
  have hvalue : codeValue (some value) d.char = some (value * 16 + d.value) := by
    simp [codeValue, hexValue?_char]
  rw [readStringFrom, hexDigit_utf8Size, if_neg (by omega), if_neg (by omega)]
  simp only [hvalue, h]

theorem readStringFrom_badHexDigit {high : Option Nat} {value : Nat} {fault : Fault} (d : HexDigit)
    (p : Position) (h : codeResult use high (value * 16 + d.value) = .error fault) :
    ∃ e, readStringFrom use (.code high 1 (some value)) read p (d.char :: rest) = .error e := by
  have hvalue : codeValue (some value) d.char = some (value * 16 + d.value) := by
    simp [codeValue, hexValue?_char]
  rw [readStringFrom, hexDigit_utf8Size, if_neg (by omega), if_neg (by omega)]
  simp only [hvalue, h]
  exact ⟨_, rfl⟩

theorem unitValue_eq (a b c d : HexDigit) :
    (((0 * 16 + a.value.val) * 16 + b.value.val) * 16 + c.value.val) * 16 + d.value.val =
      unitValue a b c d := by
  unfold unitValue
  omega

/-- Four hexadecimal digits are read to their value. -/
theorem readStringFrom_digits {high : Option Nat} {char : Option Char} {state : StringState}
    (a b c d : HexDigit) (p : Position)
    (h : codeResult use high (unitValue a b c d) = .ok (char, state)) :
    ∃ p', readStringFrom use (.code high 4 (some 0)) read p
        (a.char :: b.char :: c.char :: d.char :: rest) =
      readStringFrom use state (char.toList ++ read) p' rest := by
  refine ⟨(((p.after a.char).after b.char).after c.char).after d.char, ?_⟩
  rw [← unitValue_eq] at h
  rw [readStringFrom_hexDigit a _ (by decide), readStringFrom_hexDigit b _ (by decide),
    readStringFrom_hexDigit c _ (by decide), readStringFrom_lastHexDigit d _ h]

theorem readStringFrom_badDigits {high : Option Nat} {fault : Fault} (a b c d : HexDigit)
    (p : Position) (h : codeResult use high (unitValue a b c d) = .error fault) :
    ∃ e, readStringFrom use (.code high 4 (some 0)) read p
      (a.char :: b.char :: c.char :: d.char :: rest) = .error e := by
  rw [← unitValue_eq] at h
  rw [readStringFrom_hexDigit a _ (by decide), readStringFrom_hexDigit b _ (by decide),
    readStringFrom_hexDigit c _ (by decide)]
  exact readStringFrom_badHexDigit d _ h

theorem codeResult_character {unit : Nat} (h : unit < 0xd800 ∨ 0xdfff < unit) :
    codeResult .kept none unit = .ok (some (Char.ofNat unit), .plain) := by
  have hlow : isLowSurrogate unit = false := by
    simp [isLowSurrogate]
    omega
  have hhigh : isHighSurrogate unit = false := by
    simp [isHighSurrogate]
    omega
  simp [codeResult, hlow, hhigh]

theorem codeResult_highSurrogate {unit : Nat} (h : ¬(unit < 0xd800 ∨ 0xdfff < unit))
    (hhigh : ¬0xdbff < unit) : codeResult .kept none unit = .ok (none, .afterHigh unit) := by
  have hnone : isLowSurrogate unit = false := by
    simp [isLowSurrogate]
    omega
  have hsome : isHighSurrogate unit = true := by
    simp [isHighSurrogate]
    omega
  simp [codeResult, hnone, hsome]

theorem codeResult_lowSurrogate {high low : Nat} (h : 0xdc00 ≤ low ∧ low ≤ 0xdfff) :
    codeResult .kept (some high) low = .ok (some (pairChar high low), .plain) := by
  have hsome : isLowSurrogate low = true := by simpa [isLowSurrogate] using h
  simp [codeResult, hsome]

theorem codeResult_loneLow {unit : Nat} (h : ¬(unit < 0xd800 ∨ 0xdfff < unit))
    (hlow : 0xdbff < unit) : codeResult .kept none unit = .error .loneSurrogate := by
  have hsome : isLowSurrogate unit = true := by
    simp [isLowSurrogate]
    omega
  simp [codeResult, hsome]

theorem codeResult_loneHigh {high low : Nat} (h : ¬(0xdc00 ≤ low ∧ low ≤ 0xdfff)) :
    codeResult .kept (some high) low = .error .loneSurrogate := by
  have hnone : isLowSurrogate low = false := by
    simp [isLowSurrogate]
    omega
  simp [codeResult, hnone]

/-! ## Parts of strings -/

theorem readStringFrom_plain (c : Char) (p : Position)
    (fits : 0x20 ≤ c.toNat ∧ c ≠ '"' ∧ c ≠ '\\') :
    readStringFrom use .plain read p (c :: rest) =
      readStringFrom use .plain (c :: read) (p.after c) rest := by
  rw [readStringFrom, if_neg fits.2.1, if_neg fits.2.2, if_neg (Nat.not_lt.2 fits.1)]

theorem readStringFrom_escape (e : Escape) (p : Position) :
    readStringFrom use .plain read p ('\\' :: e.letter :: rest) =
      readStringFrom use .plain (e.char :: read) ((p.after '\\').after e.letter) rest := by
  cases e <;> rfl

theorem readStringFrom_code {char : Option Char} {state : StringState} (a b c d : HexDigit)
    (p : Position) (h : codeResult use none (unitValue a b c d) = .ok (char, state)) :
    ∃ p', readStringFrom use .plain read p
        ('\\' :: 'u' :: a.char :: b.char :: c.char :: d.char :: rest) =
      readStringFrom use state (char.toList ++ read) p' rest :=
  readStringFrom_digits a b c d _ h

theorem readStringFrom_lowCode {high : Nat} {char : Option Char} {state : StringState}
    (a b c d : HexDigit) (p : Position)
    (h : codeResult use (some high) (unitValue a b c d) = .ok (char, state)) :
    ∃ p', readStringFrom use (.afterHigh high) read p
        ('\\' :: 'u' :: a.char :: b.char :: c.char :: d.char :: rest) =
      readStringFrom use state (char.toList ++ read) p' rest :=
  readStringFrom_digits a b c d _ h

/-- A closing quotation mark ends a string. -/
theorem readStringFrom_quote (p : Position) :
    readStringFrom use .plain read p ('"' :: rest) =
      .ok (String.ofList read.reverse, ⟨rest, p.after '"'⟩) := by
  rw [readStringFrom, if_pos rfl]

/-! ## Strings -/

/-- A character in front of what a string yields. -/
theorem Yields.string_cons {reading : Reading String} {c : Char} {text : Option (List Char)}
    (h : Yields reading (text.map fun text => String.ofList ((c :: read).reverse ++ text)) rest) :
    Yields reading ((text.map (c :: ·)).map fun text => String.ofList (read.reverse ++ text)) rest := by
  cases text with
  | none => exact h
  | some text =>
    rwa [Option.map_some, List.reverse_cons, List.append_assoc, List.singleton_append] at h

/-- Only a code may follow a high surrogate. -/
theorem readStringFrom_afterHigh {high : Nat} {pieces : List StringPiece} (p : Position)
    (h : ∀ a b c d more, pieces ≠ .code a b c d :: more) :
    ∃ e, readStringFrom use (.afterHigh high) read p
      (pieces.flatMap StringPiece.text ++ '"' :: rest) = .error e := by
  cases pieces with
  | nil => exact ⟨_, rfl⟩
  | cons piece pieces =>
    cases piece with
    | plain c fits =>
      simp only [List.flatMap_cons, StringPiece.text, List.cons_append, List.nil_append]
      rw [readStringFrom, if_neg fits.2.2]
      exact ⟨_, rfl⟩
    | escape e =>
      simp only [List.flatMap_cons, StringPiece.text, List.cons_append, List.nil_append]
      cases e <;> exact ⟨_, rfl⟩
    | code a b c d => exact absurd rfl (h a b c d pieces)

theorem readStringFrom_kept (pieces : List StringPiece) (read : List Char) (p : Position) :
    Yields (readStringFrom .kept .plain read p (pieces.flatMap StringPiece.text ++ '"' :: rest))
      ((denoted pieces).map fun text => String.ofList (read.reverse ++ text)) rest := by
  induction pieces using denoted.induct generalizing read p with
  | case1 =>
    rw [denoted, Option.map_some, List.append_nil]
    exact ⟨_, readStringFrom_quote p, rfl⟩
  | case2 c fits pieces ih =>
    simp only [List.flatMap_cons, StringPiece.text, List.cons_append, List.nil_append]
    rw [readStringFrom_plain c p fits]
    exact (ih _ _).string_cons
  | case3 e pieces ih =>
    simp only [List.flatMap_cons, StringPiece.text, List.cons_append, List.nil_append]
    rw [readStringFrom_escape]
    exact (ih _ _).string_cons
  | case4 a b c d pieces unit hunit =>
    rename_i ih
    rw [denoted.eq_def]
    simp only [List.flatMap_cons, StringPiece.text, List.cons_append, List.nil_append]
    rw [if_pos hunit]
    obtain ⟨p', hp⟩ := readStringFrom_code a b c d p (codeResult_character hunit)
    rw [hp]
    exact (ih _ _).string_cons
  | case5 a b c d pieces unit hunit =>
    -- a low surrogate alone denotes nothing
    rename_i hlow
    rw [denoted.eq_def]
    simp only [List.flatMap_cons, StringPiece.text, List.cons_append, List.nil_append]
    rw [if_neg hunit, if_pos hlow]
    exact readStringFrom_badDigits a b c d _ (codeResult_loneLow hunit hlow)
  | case6 a b c d unit hunit hhigh a' b' c' d' pieces low =>
    rename_i hlow ih
    rw [denoted.eq_def]
    simp only [List.flatMap_cons, StringPiece.text, List.cons_append, List.nil_append]
    rw [if_neg hunit, if_neg hhigh, if_pos hlow]
    obtain ⟨p', hp⟩ := readStringFrom_code a b c d p (codeResult_highSurrogate hunit hhigh)
    rw [hp]
    obtain ⟨p', hp⟩ := readStringFrom_lowCode a' b' c' d' p' (codeResult_lowSurrogate hlow)
    rw [hp]
    exact (ih _ _).string_cons
  | case7 a b c d unit hunit hhigh a' b' c' d' pieces low =>
    -- nor does a high surrogate with another code behind it
    rename_i hlow
    rw [denoted.eq_def]
    simp only [List.flatMap_cons, StringPiece.text, List.cons_append, List.nil_append]
    rw [if_neg hunit, if_neg hhigh, if_neg hlow]
    obtain ⟨p', hp⟩ := readStringFrom_code a b c d p (codeResult_highSurrogate hunit hhigh)
    rw [hp]
    exact readStringFrom_badDigits a' b' c' d' _ (codeResult_loneHigh hlow)
  | case8 a b c d pieces unit hunit =>
    rename_i hhigh hnone
    have hdenoted : denoted (.code a b c d :: pieces) = none := by
      rw [denoted.eq_def]
      simp only
      rw [if_neg hunit, if_neg hhigh]
    rw [hdenoted]
    simp only [List.flatMap_cons, StringPiece.text, List.cons_append, List.nil_append]
    obtain ⟨p', hp⟩ := readStringFrom_code a b c d p (codeResult_highSurrogate hunit hhigh)
    rw [hp]
    exact readStringFrom_afterHigh p' hnone

theorem readString_kept {pieces : List StringPiece} {c : Cursor}
    (hc : c.rest = pieces.flatMap StringPiece.text ++ '"' :: rest) :
    Yields (readString .kept c) ((denoted pieces).map String.ofList) rest := by
  unfold readString
  rw [hc]
  exact readStringFrom_kept pieces [] c.position

theorem readStringFrom_passed (pieces : List StringPiece) (read : List Char) (p : Position) :
    ∃ text, Yields (readStringFrom .passed .plain read p
      (pieces.flatMap StringPiece.text ++ '"' :: rest)) (some text) rest := by
  induction pieces generalizing read p with
  | nil => exact ⟨_, _, readStringFrom_quote p, rfl⟩
  | cons piece pieces ih =>
    cases piece with
    | plain c fits =>
      simp only [List.flatMap_cons, StringPiece.text, List.cons_append, List.nil_append]
      rw [readStringFrom_plain c p fits]
      exact ih _ _
    | escape e =>
      simp only [List.flatMap_cons, StringPiece.text, List.cons_append, List.nil_append]
      rw [readStringFrom_escape]
      exact ih _ _
    | code a b c d =>
      simp only [List.flatMap_cons, StringPiece.text, List.cons_append, List.nil_append]
      have hcode : codeResult .passed none (unitValue a b c d) = .ok (none, .plain) := rfl
      obtain ⟨p', hp⟩ := readStringFrom_code a b c d p hcode
      rw [hp]
      exact ih _ _

theorem readString_passed {pieces : List StringPiece} {c : Cursor}
    (hc : c.rest = pieces.flatMap StringPiece.text ++ '"' :: rest) :
    ∃ text, Yields (readString .passed c) (some text) rest := by
  unfold readString
  rw [hc]
  exact readStringFrom_passed pieces [] c.position

end VectorBench.Json
