import Mathlib.Data.List.TakeWhile
import Mathlib.Tactic.SplitIfs
import VectorBench.Proofs.Json.Numbers
import VectorBench.Proofs.Json.Strings

/-!
# What the readers of strings and numbers take in

A reader that accepts has taken in a part of the grammar: between the place where it starts and the
place that it leaves are blanks, the text of a string or that of a number.

    c.rest = blankText blanks ++ c.skipBlanks.rest                                     (exists_blanks)
    readString use c = .ok (t, c') → ∃ pieces, '"' :: c.rest = stringLiteral pieces ++ c'.rest
                                                                               (exists_stringLiteral)
    readNumber s c = .ok (x, c') → ∃ n, n.negative = s ∧ c.rest = n.unsignedText ++ c'.rest
                                                                                      (exists_number)
-/

namespace VectorBench.Json

variable {c c' : Cursor} {x : Char} {tail : List Char}

/-! ## Blanks -/

theorem exists_blank {x : Char} (h : isJsonBlank x = true) : ∃ b : Blank, b.char = x := by
  simp only [isJsonBlank, Bool.or_eq_true, beq_iff_eq] at h
  rcases h with ((rfl | rfl) | rfl) | rfl
  · exact ⟨.space, rfl⟩
  · exact ⟨.tab, rfl⟩
  · exact ⟨.lineFeed, rfl⟩
  · exact ⟨.carriageReturn, rfl⟩

theorem exists_blanksFrom (p : Position) (text : List Char) :
    ∃ blanks, text = blankText blanks ++ (skipBlanksFrom p text).rest := by
  induction text generalizing p with
  | nil => exact ⟨[], rfl⟩
  | cons x text ih =>
    unfold skipBlanksFrom
    split
    · rename_i hblank
      obtain ⟨b, rfl⟩ := exists_blank hblank
      obtain ⟨blanks, hblanks⟩ := ih (p.after b.char)
      exact ⟨b :: blanks, congrArg (b.char :: ·) hblanks⟩
    · exact ⟨[], rfl⟩

/-- What is skipped are blanks. -/
theorem exists_blanks (c : Cursor) : ∃ blanks, c.rest = blankText blanks ++ c.skipBlanks.rest :=
  exists_blanksFrom c.position c.rest

/-! ## Strings -/

theorem hexDigit_of_lt : ∀ n : Fin 128, (hexValue? (Char.ofNat n)).isSome = true →
    ∃ (value : Fin 16) (upper : Bool), HexDigit.char ⟨value, upper⟩ = Char.ofNat n := by
  decide

theorem exists_hexDigit {value : Nat} (h : hexValue? x = some value) :
    ∃ d : HexDigit, d.char = x := by
  have hlt : x.toNat < 128 := by
    refine Nat.lt_of_not_le fun hge => ?_
    have hnone : hexValue? x = none := by
      simp only [hexValue?, Bool.and_eq_true, decide_eq_true_eq, Char.le_def, UInt32.le_iff_toNat_le]
      have hx : x.val.toNat = x.toNat := rfl
      have h9 : ('9' : Char).val.toNat = 57 := rfl
      have hf : ('f' : Char).val.toNat = 102 := rfl
      have hF : ('F' : Char).val.toNat = 70 := rfl
      rw [if_neg (by omega), if_neg (by omega), if_neg (by omega)]
    rw [hnone] at h
    cases h
  have hsome : (hexValue? (Char.ofNat (⟨x.toNat, hlt⟩ : Fin 128))).isSome = true := by
    rw [Char.ofNat_toNat, h]
    rfl
  obtain ⟨value, upper, hd⟩ := hexDigit_of_lt ⟨x.toNat, hlt⟩ hsome
  exact ⟨⟨value, upper⟩, hd.trans (Char.ofNat_toNat x)⟩

theorem exists_escape {char : Char} (h : escapeChar? x = some char) : ∃ e : Escape, e.letter = x := by
  unfold escapeChar? at h
  split_ifs at h with hself hb hf hn hr ht
  · simp only [Bool.or_eq_true, decide_eq_true_eq] at hself
    rcases hself with (rfl | rfl) | rfl
    · exact ⟨.quote, rfl⟩
    · exact ⟨.backslash, rfl⟩
    · exact ⟨.slash, rfl⟩
  · exact ⟨.backspace, hb.symm⟩
  · exact ⟨.formFeed, hf.symm⟩
  · exact ⟨.lineFeed, hn.symm⟩
  · exact ⟨.carriageReturn, hr.symm⟩
  · exact ⟨.tab, ht.symm⟩

/-- What has been read of a part of a string when a state is reached. -/
inductive OpenPart : StringState → List Char → Prop
  | plain : OpenPart .plain []
  | backslash : OpenPart .backslash ['\\']
  | code {high : Option Nat} {left value : Nat} {digits : List HexDigit} :
    digits.length + left = 4 → 0 < left →
    OpenPart (.code high left (some value)) ('\\' :: 'u' :: digits.map HexDigit.char)
  | afterHigh {high : Nat} : OpenPart (.afterHigh high) []
  | afterHighBackslash {high : Nat} : OpenPart (.afterHighBackslash high) ['\\']

variable {use : StringUse} {state : StringState} {part read rest : List Char} {p : Position}
  {text : String}

/-- No part is open behind a code. -/
theorem openPart_of_codeResult {high : Option Nat} {code : Nat} {char : Option Char}
    (h : codeResult use high code = .ok (char, state)) : OpenPart state [] := by
  unfold codeResult at h
  split at h
  · cases h
    exact .plain
  · split at h
    · cases h
      exact .plain
    · cases h
  · split at h
    · cases h
    · split at h
      · cases h
        exact .afterHigh
      · cases h
        exact .plain

/-- A code with a character that is no hexadecimal digit is at fault, if only behind its last
character. -/
theorem readStringFrom_badCode {high : Option Nat} {left : Nat} :
    readStringFrom use (.code high left none) read p rest ≠ .ok (text, c') := by
  intro h
  induction rest generalizing left read p with
  | nil =>
    unfold readStringFrom at h
    cases h
  | cons x rest ih =>
    unfold readStringFrom at h
    split at h
    · cases h
    · split at h
      · exact ih h
      · cases h

theorem digit_of_codeValue {value code : Nat} (h : codeValue (some value) x = some code) :
    ∃ d : HexDigit, d.char = x := by
  cases hd : hexValue? x with
  | none => simp [codeValue, hd] at h
  | some digit => exact exists_hexDigit hd

theorem four_digits {digits : List HexDigit} (h : digits.length = 4) :
    ∃ a b c d : HexDigit, digits = [a, b, c, d] := by
  match digits, h with
  | [a, b, c, d], _ => exact ⟨a, b, c, d, rfl⟩

/-- A string that is read from any state on consists of parts, the first of which may be open. -/
theorem exists_pieces (hpart : OpenPart state part)
    (h : readStringFrom use state read p rest = .ok (text, c')) :
    ∃ pieces : List StringPiece,
      part ++ rest = pieces.flatMap StringPiece.text ++ '"' :: c'.rest := by
  induction rest generalizing state part read p with
  | nil =>
    cases state <;> (unfold readStringFrom at h; cases h)
  | cons x rest ih =>
    cases hpart with
    | plain =>
      unfold readStringFrom at h
      split at h
      · rename_i hquote
        cases h
        exact ⟨[], by simp [hquote]⟩
      · rename_i hquote
        split at h
        · rename_i hbackslash
          obtain ⟨pieces, hpieces⟩ := ih .backslash h
          exact ⟨pieces, by rw [← hpieces, hbackslash]; rfl⟩
        · rename_i hbackslash
          split at h
          · cases h
          · rename_i hcontrol
            obtain ⟨pieces, hpieces⟩ := ih .plain h
            refine ⟨.plain x ⟨Nat.le_of_not_lt hcontrol, hquote, hbackslash⟩ :: pieces, ?_⟩
            exact congrArg (x :: ·) hpieces
    | backslash =>
      unfold readStringFrom at h
      split at h
      · rename_i hu
        have hcode : OpenPart (.code none 4 (some 0)) ('\\' :: 'u' :: [].map HexDigit.char) :=
          .code rfl (by decide)
        obtain ⟨pieces, hpieces⟩ := ih hcode h
        exact ⟨pieces, by rw [← hpieces, hu]; rfl⟩
      · split at h
        · rename_i char hchar
          obtain ⟨e, rfl⟩ := exists_escape hchar
          obtain ⟨pieces, hpieces⟩ := ih .plain h
          exact ⟨.escape e :: pieces, congrArg (fun text => '\\' :: e.letter :: text) hpieces⟩
        · cases h
    | @code high left value digits hcount hleft =>
      unfold readStringFrom at h
      split at h
      · cases h
      · rename_i hover
        split at h
        · rename_i hmore
          cases hcode : codeValue (some value) x with
          | none =>
            rw [hcode] at h
            exact absurd h readStringFrom_badCode
          | some code =>
            obtain ⟨d, rfl⟩ := digit_of_codeValue hcode
            rw [hcode] at h
            rw [hexDigit_utf8Size] at h hmore
            have hnext : OpenPart (.code high (left - 1) (some code))
                ('\\' :: 'u' :: (digits ++ [d]).map HexDigit.char) := by
              refine .code ?_ (by omega)
              rw [List.length_append, List.length_singleton]
              omega
            obtain ⟨pieces, hpieces⟩ := ih hnext h
            exact ⟨pieces, by rw [← hpieces]; simp⟩
        · rename_i hmore
          split at h
          · cases h
          · rename_i code hcode
            obtain ⟨d, rfl⟩ := digit_of_codeValue hcode
            rw [hexDigit_utf8Size] at hover hmore
            split at h
            · cases h
            · rename_i char state hresult
              obtain ⟨pieces, hpieces⟩ := ih (openPart_of_codeResult hresult) h
              obtain ⟨a, b, c, d', hdigits⟩ : ∃ a b c d', digits ++ [d] = [a, b, c, d'] := by
                refine four_digits ?_
                rw [List.length_append, List.length_singleton]
                omega
              refine ⟨.code a b c d' :: pieces, ?_⟩
              rw [List.nil_append] at hpieces
              calc '\\' :: 'u' :: digits.map HexDigit.char ++ d.char :: rest
                  = '\\' :: 'u' :: ((digits ++ [d]).map HexDigit.char ++ rest) := by simp
                _ = (StringPiece.code a b c d' :: pieces).flatMap StringPiece.text ++
                      '"' :: c'.rest := by
                    rw [hdigits, hpieces]
                    simp [StringPiece.text]
    | afterHigh =>
      unfold readStringFrom at h
      split at h
      · rename_i hbackslash
        obtain ⟨pieces, hpieces⟩ := ih .afterHighBackslash h
        exact ⟨pieces, by rw [← hpieces, hbackslash]; rfl⟩
      · cases h
    | @afterHighBackslash high =>
      unfold readStringFrom at h
      split at h
      · rename_i hu
        have hcode : OpenPart (.code (some high) 4 (some 0)) ('\\' :: 'u' :: [].map HexDigit.char) :=
          .code rfl (by decide)
        obtain ⟨pieces, hpieces⟩ := ih hcode h
        exact ⟨pieces, by rw [← hpieces, hu]; rfl⟩
      · cases h

theorem exists_stringLiteral (h : readString use c = .ok (text, c')) :
    ∃ pieces, '"' :: c.rest = stringLiteral pieces ++ c'.rest := by
  obtain ⟨pieces, hpieces⟩ := exists_pieces .plain h
  refine ⟨pieces, ?_⟩
  rw [List.nil_append] at hpieces
  rw [hpieces]
  simp [stringLiteral]

/-- A string behind its first quotation mark. -/
theorem exists_stringLiteral_ahead (hc : c.rest = '"' :: tail)
    (h : readString use c.advance = .ok (text, c')) :
    ∃ pieces, c.rest = stringLiteral pieces ++ c'.rest := by
  obtain ⟨pieces, hpieces⟩ := exists_stringLiteral h
  rw [advance_rest hc] at hpieces
  exact ⟨pieces, hc.trans hpieces⟩

/-! ## Numbers -/

/-- The digits at a cursor, of which there is one. -/
theorem exists_digits (hc : c.rest = x :: tail) (hdigit : x.isDigit = true) :
    ∃ d : Digits, d.chars.head? = some x ∧ c.rest = d.chars ++ c.skipDigits.rest := by
  have hdigits : digitsOf c.rest = x :: digitsOf tail := by
    rw [hc]
    exact List.takeWhile_cons_of_pos hdigit
  have hall : ∀ y ∈ digitsOf c.rest, y.isDigit = true := fun y hy => List.mem_takeWhile_imp hy
  refine ⟨⟨digitsOf c.rest, ?_, hall⟩, congrArg List.head? hdigits,
    List.takeWhile_append_dropWhile.symm⟩
  rw [hdigits]
  exact List.cons_ne_nil _ _

theorem exists_whole_digits {atEnd : Fault} {whole : List Char}
    (h : readWhole atEnd c = .ok (whole, c')) :
    ∃ d : Digits, (d.chars = ['0'] ∨ d.chars.head? ≠ some '0') ∧ c.rest = d.chars ++ c'.rest := by
  unfold readWhole at h
  split at h
  · cases h
  · rename_i x tail hc
    split at h
    · rename_i hzero
      split at h
      · cases h
        refine ⟨⟨['0'], List.cons_ne_nil _ _, List.forall_mem_singleton.2 rfl⟩, Or.inl rfl, ?_⟩
        rw [advance_rest hc, hc, hzero]
        rfl
      · cases h
    · rename_i hzero
      split at h
      · rename_i hdigit
        cases h
        obtain ⟨d, hhead, hd⟩ := exists_digits hc hdigit
        refine ⟨d, Or.inr ?_, hd⟩
        rw [hhead]
        exact fun he => hzero (Option.some.inj he)
      · cases h

def fractionTextOf (fraction : Option Digits) : List Char :=
  if fraction.isSome then '.' :: (match fraction with | none => [] | some d => d.chars) else []

theorem exists_fraction {atEnd : Fault} {found : Option (List Char)}
    (h : readFraction atEnd c = .ok (found, c')) :
    ∃ fraction, c.rest = fractionTextOf fraction ++ c'.rest := by
  unfold readFraction at h
  split at h
  · rename_i tail hc
    split at h
    · cases h
    · rename_i x more
      split at h
      · rename_i hdigit
        cases h
        obtain ⟨d, -, hd⟩ := exists_digits (advance_rest hc) hdigit
        refine ⟨some d, ?_⟩
        rw [advance_rest hc] at hd
        rw [hc, hd]
        rfl
      · cases h
  · cases h
    exact ⟨none, rfl⟩

theorem exists_exponentSign (c : Cursor) :
    ∃ sign : ExponentSign, c.rest = sign.text ++ (readExponentSign c).2.rest := by
  unfold readExponentSign
  split
  · rename_i tail hc
    exact ⟨.plus, by rw [advance_rest hc, hc]; rfl⟩
  · rename_i tail hc
    exact ⟨.minus, by rw [advance_rest hc, hc]; rfl⟩
  · exact ⟨.none, rfl⟩

def exponentTextOf : Option ExponentPart → List Char
  | none => []
  | some e => e.text

theorem exists_exponentPart {atEnd : Fault} {found : Option (Bool × List Char)} {start : Position}
    (h : readExponent atEnd c = .ok ((found, start), c')) :
    ∃ exponent, c.rest = exponentTextOf exponent ++ c'.rest := by
  unfold readExponent at h
  split at h
  · cases h
    exact ⟨none, rfl⟩
  · rename_i letter tail hc
    split at h
    · rename_i hletter
      simp only at h
      split at h
      · cases h
      · rename_i x more hx
        split at h
        · rename_i hdigit
          cases h
          obtain ⟨sign, hsign⟩ := exists_exponentSign c.advance
          obtain ⟨d, -, hd⟩ := exists_digits hx hdigit
          obtain ⟨upper, hupper⟩ : ∃ upper : Bool, letter = if upper then 'E' else 'e' := by
            simp only [Bool.or_eq_true, decide_eq_true_eq] at hletter
            rcases hletter with rfl | rfl
            · exact ⟨false, rfl⟩
            · exact ⟨true, rfl⟩
          refine ⟨some ⟨upper, sign, d⟩, ?_⟩
          rw [hd, advance_rest hc] at hsign
          rw [hc, hsign, hupper]
          simp [exponentTextOf, ExponentPart.text]
        · cases h
    · cases h
      exact ⟨none, rfl⟩

/-- The parts of a number are those of a literal. -/
theorem exists_unsignedText {atEnd : Fault} (negative : Bool) {found : Numeral × Position} {s : Bool}
    (h : readNumeral atEnd s c = .ok (found, c')) :
    ∃ n : NumberLiteral, n.negative = negative ∧ c.rest = n.unsignedText ++ c'.rest := by
  unfold readNumeral at h
  split at h
  · cases h
  · rename_i whole c1 hwhole
    split at h
    · cases h
    · rename_i fraction c2 hfraction
      split at h
      · cases h
      · rename_i exponent start c3 hexponent
        cases h
        obtain ⟨d, hcanonical, hd⟩ := exists_whole_digits hwhole
        obtain ⟨f, hf⟩ := exists_fraction hfraction
        obtain ⟨e, he⟩ := exists_exponentPart hexponent
        refine ⟨⟨negative, d, f, e, hcanonical⟩, rfl, ?_⟩
        rw [hd, hf, he, ← List.append_assoc, ← List.append_assoc, List.append_assoc d.chars]
        rfl

/-- A number behind its sign, which is there when it is negative. -/
theorem exists_numberText {negative : Bool} {start : Cursor}
    (hstart : c.rest = (if negative then ['-'] else []) ++ start.rest)
    (h : ∃ n : NumberLiteral, n.negative = negative ∧ start.rest = n.unsignedText ++ c'.rest) :
    ∃ n : NumberLiteral, c.rest = n.text ++ c'.rest := by
  obtain ⟨n, rfl, hn⟩ := h
  exact ⟨n, by rw [hstart, hn, n.text_eq, List.append_assoc]⟩

theorem exists_number {negative : Bool} {number : Number}
    (h : readNumber negative c = .ok (number, c')) :
    ∃ n : NumberLiteral, n.negative = negative ∧ c.rest = n.unsignedText ++ c'.rest := by
  unfold readNumber at h
  split at h
  · cases h
  · rename_i numeral start c1 hnumeral
    split at h
    · cases h
    · split at h
      · cases h
        exact exists_unsignedText negative hnumeral
      · cases h

end VectorBench.Json
