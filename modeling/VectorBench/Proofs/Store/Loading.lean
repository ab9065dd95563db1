import VectorBench.Store
import VectorBench.Proofs.Record.RoundTrip

/-!
# Loading

A program that loads a record leaves the tree as it is, and what it yields is told by the bytes that
are read.  The bytes that a record is kept as are those of this record.

    recordOfBytes r.bytes = .ok r                                             (recordOfBytes_bytes)
-/

namespace VectorBench

/-! ## Runs -/

theorem run_ask (r : FileRequest) (t : Node) : (ask r).run t = Tree.answer r t := rfl

theorem FileProgram.run_bind {α β : Type} (p : FileProgram α) (k : α → FileProgram β) (t : Node) :
    (p >>= k).run t = (k (p.run t).1).run (p.run t).2 :=
  Program.run_bind Tree.answer p k t

/-- When a program that does not go on after an error succeeds, so does its first part. -/
theorem FileProgram.run_bind_ok {α β : Type} {p : FileProgram (Except FileError α)}
    {k : Except FileError α → FileProgram (Except FileError β)} {b : β} {t t' : Node}
    (hk : ∀ e t, ∃ e', ((k (.error e)).run t).1 = .error e') (h : (p >>= k).run t = (.ok b, t')) :
    ∃ a mid, p.run t = (.ok a, mid) ∧ (k (.ok a)).run mid = (.ok b, t') := by
  rw [FileProgram.run_bind] at h
  cases hp : p.run t with
  | mk answer mid =>
    rw [hp] at h
    cases answer with
    | error e =>
      obtain ⟨e', he'⟩ := hk e mid
      rw [h] at he'
      cases he'
    | ok a => exact ⟨a, mid, rfl, h⟩

/-! ## Bytes and records -/

/-- The text of the bytes of a text. -/
theorem textOfBytes_toUTF8 (text : String) : textOfBytes text.toUTF8.toList = .ok text := by
  have hbytes : (⟨text.toUTF8.toList.toArray⟩ : ByteArray) = text.toByteArray := by
    rw [byteArray_toList]
    rfl
  unfold textOfBytes String.fromUTF8?
  rw [hbytes, dif_pos text.isValidUTF8]
  rfl

theorem recordOfBytes_bytes (r : Record) : recordOfBytes r.bytes = .ok r := by
  unfold recordOfBytes Record.bytes
  simp only [textOfBytes_toUTF8, decode_encode, Except.mapError]

/-- What is loaded from the bytes that are read. -/
def recordOfRead (result : Except FileError Bytes) : Except StoreError Record :=
  match result with
  | .error e => .error (.io e)
  | .ok bytes => recordOfBytes bytes

theorem run_loadRecord (path : String) (t : Node) :
    (loadRecord path).run t = (recordOfRead (Tree.read t path), t) := by
  unfold loadRecord recordOfRead
  have hread : Tree.answer (.read path) t = (Tree.read t path, t) := rfl
  rw [FileProgram.run_bind, run_ask, hread]
  cases Tree.read t path with
  | error e => rfl
  | ok bytes => rfl

theorem loadRecord_of_read {path : String} {r : Record} {t : Node}
    (h : Tree.read t path = .ok r.bytes) : (loadRecord path).run t = (.ok r, t) := by
  rw [run_loadRecord, h]
  show (recordOfBytes r.bytes, t) = _
  rw [recordOfBytes_bytes]

end VectorBench
