import VectorBench.Proofs.Report.Lines

/-!
# Reports that are cut

A report that is printed to streams of limited size.  A stream takes what fits of a text, whatever the
pieces are in which the text is written, so that lines on one stream are one text.  Of the two texts
of a report the output comes first: as long as it has not been written in full nothing is on the
error stream, and after a write that fails neither stream changes.

    write stream (a ++ b) = (write stream a).followedBy (write stream b)      (Console.write_append)
    printLines write (sentTo stream lines) = write stream (textOfLines lines)    (printLines_sentTo)
    a report is cut where the first stream that it does not fit on is full       (printLines_within)
-/

namespace VectorBench

/-! ## One after the other -/

section

variable {m : Type → Type} [Monad m]

/-- Something that may fail, then something else if it did not. -/
def followedBy (first second : m (Except FileError Unit)) : m (Except FileError Unit) := do
  match ← first with
  | .error e => return .error e
  | .ok () => second

/-- On a state the second is tried where the first left it. -/
theorem followedBy_apply {σ : Type} (first second : StateM σ (Except FileError Unit)) (s : σ) :
    followedBy first second s = match first s with
      | (.error e, s') => (.error e, s')
      | (.ok (), s') => second s' := by
  have hrun : followedBy first second s =
      (match (first s).1 with
        | .error e => pure (.error e)
        | .ok () => second : StateM σ (Except FileError Unit)) (first s).2 := rfl
  rw [hrun]
  rcases first s with ⟨_ | _, s'⟩ <;> rfl

variable (write : Stream → String → m (Except FileError Unit))

/-- Writes pieces of a text to a stream until one cannot be written. -/
def writePieces (stream : Stream) : List String → m (Except FileError Unit)
  | [] => pure (.ok ())
  | piece :: rest => followedBy (write stream piece) (writePieces stream rest)

theorem printLines_cons (stream : Stream) (line : String) (rest : List (Stream × String)) :
    printLines write ((stream, line) :: rest) =
      followedBy (write stream (line ++ "\n")) (printLines write rest) := rfl

theorem printLines_sentTo (stream : Stream) (lines : List String) :
    printLines write (sentTo stream lines) = writePieces write stream (lines.map (· ++ "\n")) := by
  induction lines with
  | nil => rfl
  | cons line rest ih =>
    rw [List.map_cons, writePieces, ← ih]
    exact printLines_cons write stream line (sentTo stream rest)

variable [LawfulMonad m]

theorem followedBy_assoc (first second third : m (Except FileError Unit)) :
    followedBy (followedBy first second) third = followedBy first (followedBy second third) := by
  rw [followedBy, followedBy, followedBy, bind_assoc]
  refine bind_congr fun result => ?_
  cases result with
  | error e => exact pure_bind _ _
  | ok _ => rfl

theorem printLines_append (lines more : List (Stream × String)) :
    printLines write (lines ++ more) =
      followedBy (printLines write lines) (printLines write more) := by
  induction lines with
  | nil =>
    rw [List.nil_append, printLines, followedBy, pure_bind]
  | cons first rest ih =>
    obtain ⟨stream, line⟩ := first
    rw [List.cons_append, printLines_cons, printLines_cons, ih, followedBy_assoc]

end

/-! ## Texts in pieces -/

/-- A text in two pieces, of which the second is written if the first was. -/
theorem Sink.write_append (s : Sink) (a b : String) :
    s.write (a ++ b) = match s.write a with
      | (.error e, s') => (.error e, s')
      | (.ok (), s') => s'.write b := by
  have hbytes : (a ++ b).toUTF8.toList = a.toUTF8.toList ++ b.toUTF8.toList := bytesOf_append a b
  simp only [write, hbytes, List.length_append]
  generalize a.toUTF8.toList = first
  generalize b.toUTF8.toList = second
  by_cases hfirst : first.length ≤ s.limit - s.written.length
  · -- what is left for the second piece is what the first one leaves
    have hroom : s.limit - (s.written.length + first.length) =
        s.limit - s.written.length - first.length := by omega
    have hfits : (first.length + second.length ≤ s.limit - s.written.length) ↔
        second.length ≤ s.limit - s.written.length - first.length := by omega
    simp only [if_pos hfirst, List.length_append, hroom, hfits, List.append_assoc]
    rw [List.take_append, List.take_of_length_le hfirst]
  · have hboth : ¬ first.length + second.length ≤ s.limit - s.written.length := by omega
    rw [if_neg hboth, if_neg hfirst, List.take_append_of_le_length (by omega)]

theorem Sink.write_empty (s : Sink) : s.write "" = (.ok (), s) := by
  simp [write]

namespace Console

def sink (c : Console) : Stream → Sink
  | .out => c.out
  | .err => c.err

def setSink (c : Console) (stream : Stream) (s : Sink) : Console :=
  match stream with
  | .out => { c with out := s }
  | .err => { c with err := s }

@[simp] theorem sink_setSink (c : Console) (stream : Stream) (s : Sink) :
    (c.setSink stream s).sink stream = s := by
  cases stream <;> rfl

@[simp] theorem setSink_setSink (c : Console) (stream : Stream) (s s' : Sink) :
    (c.setSink stream s).setSink stream s' = c.setSink stream s' := by
  cases stream <;> rfl

@[simp] theorem setSink_sink (c : Console) (stream : Stream) :
    c.setSink stream (c.sink stream) = c := by
  cases stream <;> rfl

theorem write_eq (stream : Stream) (text : String) (c : Console) :
    Console.write stream text c =
      (((c.sink stream).write text).1, c.setSink stream ((c.sink stream).write text).2) := by
  cases stream <;> rfl

theorem write_append (stream : Stream) (a b : String) :
    Console.write stream (a ++ b) =
      followedBy (Console.write stream a) (Console.write stream b) := by
  funext c
  rw [followedBy_apply, write_eq, write_eq, Sink.write_append]
  rcases (c.sink stream).write a with ⟨_ | _, s⟩
  · rfl
  · simp [write_eq]

theorem write_empty (stream : Stream) : Console.write stream "" = pure (.ok ()) := by
  funext c
  rw [write_eq, Sink.write_empty, setSink_sink]
  rfl

/-- How a text is cut into pieces does not matter. -/
theorem writePieces_eq (stream : Stream) (pieces : List String) :
    writePieces Console.write stream pieces = Console.write stream (String.join pieces) := by
  induction pieces with
  | nil => exact (write_empty stream).symm
  | cons piece rest ih => rw [writePieces, ih, String.join_cons, write_append]

end Console

/-! ## Streams of limited size -/

/-- An open stream takes as many bytes as its limit allows. -/
theorem Sink.write_open (limit : Nat) (text : String) :
    (Sink.open limit).write text =
      (if (bytesOf text).length ≤ limit then .ok () else .error .shortWrite,
        ⟨limit, (bytesOf text).take limit⟩) := by
  have hbytes : text.toUTF8.toList = bytesOf text := rfl
  simp only [write, Sink.open, hbytes, List.length_nil, Nat.sub_zero, List.nil_append]
  split
  · rename_i hfits
    rw [List.take_of_length_le hfits]
  · rfl

def Console.open (outLimit errLimit : Nat) : Console := ⟨.open outLimit, .open errLimit⟩

namespace Console

theorem write_out_open (outLimit errLimit : Nat) (text : String) :
    Console.write .out text (.open outLimit errLimit) =
      (if (bytesOf text).length ≤ outLimit then .ok () else .error .shortWrite,
        ⟨⟨outLimit, (bytesOf text).take outLimit⟩, .open errLimit⟩) := by
  rw [write_eq]
  show (((Sink.open outLimit).write text).1, (⟨((Sink.open outLimit).write text).2, _⟩ : Console)) = _
  rw [Sink.write_open]
  rfl

theorem write_err_open (s : Sink) (errLimit : Nat) (text : String) :
    Console.write .err text ⟨s, .open errLimit⟩ =
      (if (bytesOf text).length ≤ errLimit then .ok () else .error .shortWrite,
        ⟨s, ⟨errLimit, (bytesOf text).take errLimit⟩⟩) := by
  rw [write_eq]
  show (((Sink.open errLimit).write text).1, (⟨s, ((Sink.open errLimit).write text).2⟩ : Console)) = _
  rw [Sink.write_open]

/-- Lines for the output and then lines for the error stream are two texts. -/
theorem printLines_eq (out err : List String) :
    printLines Console.write (sentTo .out out ++ sentTo .err err) =
      followedBy (Console.write .out (textOfLines out)) (Console.write .err (textOfLines err)) := by
  rw [printLines_append, printLines_sentTo, printLines_sentTo, writePieces_eq, writePieces_eq]
  rfl

end Console

/-- How printing a text to each of two streams of limited size ends, the output text first: what is on
the streams, and whether an error is reported. -/
structure PrintsWithin (outLimit errLimit : Nat) (out err : String)
    (result : Except FileError Unit) (c : Console) : Prop where
  out_prefix : c.out.written <+: bytesOf out
  err_prefix : c.err.written <+: bytesOf err
  out_first : c.err.written ≠ [] → c.out.written = bytesOf out
  ok_iff : result = .ok () ↔
    (bytesOf out).length ≤ outLimit ∧ (bytesOf err).length ≤ errLimit
  whole : result = .ok () → c.out.written = bytesOf out ∧ c.err.written = bytesOf err
  cut : ∀ e, result = .error e → e = .shortWrite ∧
    (outLimit < (bytesOf out).length ∧ c.out.written = (bytesOf out).take outLimit ∧
        c.err.written = [] ∨
      (bytesOf out).length ≤ outLimit ∧ c.out.written = bytesOf out ∧
        errLimit < (bytesOf err).length ∧ c.err.written = (bytesOf err).take errLimit)

/-- The output that does not fit is cut at its limit, and the error stream stays empty. -/
theorem printsWithin_out {outLimit errLimit : Nat} {out err : String}
    (h : outLimit < (bytesOf out).length) :
    PrintsWithin outLimit errLimit out err (.error .shortWrite)
      ⟨⟨outLimit, (bytesOf out).take outLimit⟩, .open errLimit⟩ where
  out_prefix := List.take_prefix _ _
  err_prefix := List.nil_prefix
  out_first hne := absurd rfl hne
  ok_iff := iff_of_false nofun fun hfits => by omega
  whole := nofun
  cut e he := by
    cases he
    exact ⟨rfl, .inl ⟨h, rfl, rfl⟩⟩

theorem printsWithin_err {outLimit errLimit : Nat} {out err : String}
    (h : (bytesOf out).length ≤ outLimit) :
    PrintsWithin outLimit errLimit out err
      (if (bytesOf err).length ≤ errLimit then .ok () else .error .shortWrite)
      ⟨⟨outLimit, (bytesOf out).take outLimit⟩, ⟨errLimit, (bytesOf err).take errLimit⟩⟩ where
  out_prefix := List.take_prefix _ _
  err_prefix := List.take_prefix _ _
  out_first _ := List.take_of_length_le h
  ok_iff := by
    split
    · rename_i hfits
      exact iff_of_true rfl ⟨h, hfits⟩
    · rename_i hlong
      exact iff_of_false nofun fun hfits => hlong hfits.2
  whole hok := by
    split at hok
    · rename_i hfits
      exact ⟨List.take_of_length_le h, List.take_of_length_le hfits⟩
    · cases hok
  cut e he := by
    split at he
    · cases he
    · rename_i hlong
      cases he
      exact ⟨rfl, .inr ⟨h, List.take_of_length_le h, Nat.lt_of_not_le hlong, rfl⟩⟩

/-- Lines for the output and then lines for the error stream are cut where the first stream that they
do not fit on is full. -/
theorem printLines_within (outLimit errLimit : Nat) (out err : List String) :
    ∃ result c, (printLines Console.write (sentTo .out out ++ sentTo .err err)).run
        (.open outLimit errLimit) = (result, c) ∧
      PrintsWithin outLimit errLimit (textOfLines out) (textOfLines err) result c := by
  refine ⟨_, _, rfl, ?_⟩
  show PrintsWithin _ _ _ _ (printLines Console.write _ _).1 (printLines Console.write _ _).2
  rw [Console.printLines_eq, followedBy_apply, Console.write_out_open]
  rcases Nat.lt_or_ge outLimit (bytesOf (textOfLines out)).length with hlong | hfits
  · rw [if_neg (Nat.not_le.2 hlong)]
    exact printsWithin_out hlong
  · rw [if_pos hfits]
    show PrintsWithin _ _ _ _ (Console.write .err _ _).1 (Console.write .err _ _).2
    rw [Console.write_err_open]
    exact printsWithin_err hfits

/-! ## Reports -/

/-- The report of every check and the summary of every record, printed to streams of any limits. -/
theorem report_within (outLimit errLimit : Nat) :
    (∀ baseline current engines limit v,
      checkRegression baseline current engines limit = .ok v →
      (textOfLines v.errLines = "" ↔ v.passed = true) ∧
      ∃ result c, (printLines Console.write v.lines).run (.open outLimit errLimit) = (result, c) ∧
        PrintsWithin outLimit errLimit (textOfLines v.outLines) (textOfLines v.errLines) result c) ∧
    ∀ r : Record,
      ∃ result c, (printLines Console.write r.summaryLines).run (.open outLimit errLimit) =
          (result, c) ∧
        PrintsWithin outLimit errLimit (textOfLines r.outLines) "" result c := by
  constructor
  · intro baseline current engines limit v hcheck
    obtain ⟨-, -, hv⟩ := checkRegression_eq_ok_iff.1 hcheck
    rw [textOfLines_eq_empty_iff, v.lines_eq hv]
    exact ⟨v.errLines_eq_nil_iff hv, printLines_within outLimit errLimit v.outLines v.errLines⟩
  · intro r
    have hlines : r.summaryLines = sentTo .out r.outLines ++ sentTo .err [] := by
      rw [r.summaryLines_eq]
      exact (List.append_nil _).symm
    rw [hlines]
    exact printLines_within outLimit errLimit r.outLines []

/-- A record of one engine with a name of one character and two bytes. -/
def accentedRecord (bits : Nat)
    (fit : checkParts ⟨1, 1, 1, 1, 0⟩ [⟨"é", .zero false, .ofBits .double bits⟩] = .ok ()) : Record :=
  ⟨⟨1, 1, 1, 1, 0⟩, [⟨"é", .zero false, .ofBits .double bits⟩], fit⟩

/-- A limit of one byte cuts the first character of the report, and no regression is reported. -/
theorem report_within_character :
    ∃ v c, checkRegression (accentedRecord 0 (by decide)) (accentedRecord 1 (by decide)) ["é"]
        defaultLimit = .ok v ∧ v.regressions ≠ [] ∧
      (printLines Console.write v.lines).run (.open 1 100) = (.error .shortWrite, c) ∧
      c.out.written = [0xc3] ∧ c.err.written = [] := by
  let comparison : Comparison := ⟨"é", .ofBits .double 0, .ofBits .double 1, .infinity false, true⟩
  have hcheck : checkRegression (accentedRecord 0 (by decide)) (accentedRecord 1 (by decide)) ["é"]
      defaultLimit = .ok ⟨[comparison], defaultLimit, false⟩ := by rfl
  obtain ⟨-, result, c, hrun, hprints⟩ := (report_within 1 100).1 _ _ _ _ _ hcheck
  have hletter : bytesOf "é" = [0xc3, 0xa9] := by
    rw [bytesOf, byteArray_toList]
    rfl
  obtain ⟨rest, hrest⟩ : ∃ rest, bytesOf (textOfLines
      (Verdict.outLines ⟨[comparison], defaultLimit, false⟩)) = 0xc3 :: 0xa9 :: rest := by
    simp only [Verdict.outLines, List.map_cons, List.cons_append, textOfLines_cons, comparisonLine,
      comparison, bytesOf_append, hletter, List.append_assoc]
    exact ⟨_, rfl⟩
  have hlong : ¬ (bytesOf (textOfLines
      (Verdict.outLines ⟨[comparison], defaultLimit, false⟩))).length ≤ 1 := by
    simp [hrest]
  cases result with
  | ok _ => exact absurd (hprints.ok_iff.1 rfl).1 hlong
  | error e =>
    obtain ⟨rfl, ⟨-, hout, herr⟩ | ⟨hfits, -⟩⟩ := hprints.cut e rfl
    · rw [hrest] at hout
      exact ⟨_, c, hcheck, by decide, hrun, hout, herr⟩
    · exact absurd hfits hlong

end VectorBench
