import VectorBench.Proofs.Store.Outcome

/-!
# Readers of a path

Whatever becomes of a save, at every moment the path is read as before the save or as all of the new
record, never as a part of it.  Where nothing could be read before, the reason can change: a
directory that was missing is made, and then a name behind it is seen to be too long.
-/

namespace VectorBench

/-- At every moment of a save, stopped or failing at any step, the path is read and loaded as before
or as the record that is saved.  Where it was not there, a name may be seen to be too long. -/
theorem read_of_reaches (r : Record) (path : String) (entries : List (String × Node))
    (hdots : ".." ∉ Path.pieces path) (p : FileProgram (Except FileError Unit)) (t : Node)
    (h : FileProgram.Reaches (saveRecord r path, .directory entries) (p, t)) :
    (Tree.read t path = Tree.read (.directory entries) path ∧
        ((loadRecord path).run t).1 = ((loadRecord path).run (.directory entries)).1 ∨
      Tree.read t path = .ok r.bytes ∧ ((loadRecord path).run t).1 = .ok r ∨
      Tree.read (.directory entries) path = .error .noEntry ∧
        Tree.read t path = .error .nameTooLong ∧
        ((loadRecord path).run (.directory entries)).1 = .error (.io .noEntry) ∧
        ((loadRecord path).run t).1 = .error (.io .nameTooLong)) := by
  have hroot : (Node.directory entries).kind = .directory := rfl
  rw [run_loadRecord, run_loadRecord]
  rcases (saveRecord_keeps hroot hdots r).always p t h with huntouched | hsaved
  · rcases huntouched.read hroot hdots with hsame | ⟨hmissing, hlong⟩
    · left
      rw [hsame]
      exact ⟨rfl, rfl⟩
    · right; right
      rw [hmissing, hlong]
      exact ⟨rfl, rfl, rfl, rfl⟩
  · right; left
    rw [hsaved.read]
    exact ⟨rfl, recordOfBytes_bytes r⟩

/-- Stopped when the file beside the path is there and empty. -/
theorem read_of_reaches_created :
    ".." ∉ Path.pieces "a.json" ∧
      ∃ p t, FileProgram.Reaches (saveRecord bareRecord "a.json", .directory []) (p, t) ∧
        Tree.read t "a.json.tmp" = .ok [] ∧
        (Tree.read t "a.json" = Tree.read (.directory []) "a.json" ∧
            ((loadRecord "a.json").run t).1 = ((loadRecord "a.json").run (.directory [])).1 ∨
          Tree.read t "a.json" = .ok bareRecord.bytes ∧
            ((loadRecord "a.json").run t).1 = .ok bareRecord ∨
          Tree.read (.directory []) "a.json" = .error .noEntry ∧
            Tree.read t "a.json" = .error .nameTooLong ∧
            ((loadRecord "a.json").run (.directory [])).1 = .error (.io .noEntry) ∧
            ((loadRecord "a.json").run t).1 = .error (.io .nameTooLong)) := by
  have hdots : ".." ∉ Path.pieces "a.json" := by decide
  obtain ⟨p, hreaches⟩ : ∃ p, FileProgram.Reaches (saveRecord bareRecord "a.json", .directory [])
      (p, (Tree.answer (.create "a.json.tmp") (.directory [])).2) :=
    ⟨_, .single (.answered (.create "a.json.tmp") _ (.directory []))⟩
  exact ⟨hdots, p, _, hreaches, rfl, read_of_reaches _ _ _ hdots _ _ hreaches⟩

/-! ## A reason that changes -/

def overlongName : String := String.ofList (List.replicate 256 'a')

def overlongPath : String := Path.ofNames false ["m", overlongName]

theorem utf8Len_replicate (n : Nat) (c : Char) :
    String.utf8Len (List.replicate n c) = n * c.utf8Size := by
  induction n with
  | zero => rw [Nat.zero_mul]; rfl
  | succ n ih => rw [List.replicate_succ, String.utf8Len_cons, ih, Nat.succ_mul]

theorem overlongName_bytes : overlongName.utf8ByteSize = 256 := by
  have hsize : 'a'.utf8Size = 1 := by decide
  unfold overlongName
  rw [String.utf8ByteSize_ofList, utf8Len_replicate, hsize]

theorem overlongPath_normal : Path.Normal false ["m", overlongName] := by
  have hname : Path.IsName overlongName := by
    refine ⟨?_, ?_⟩
    · intro he
      have hbytes := overlongName_bytes
      rw [he] at hbytes
      exact absurd hbytes (by decide)
    · unfold overlongName
      rw [String.toList_ofList]
      intro hmem
      exact absurd (List.eq_of_mem_replicate hmem) (by decide)
  refine ⟨?_, ?_, fun h => nomatch h⟩
  · intro name hmem
    rcases List.mem_cons.1 hmem with rfl | hmem
    · exact ⟨by decide, by decide⟩
    · rw [List.mem_singleton.1 hmem]
      exact hname
  · intro name hmem
    rw [List.mem_singleton.1 hmem]
    intro he
    have hbytes := overlongName_bytes
    rw [he] at hbytes
    exact absurd hbytes (by decide)

theorem overlongPath_pieces : Path.pieces overlongPath = ["m"] ++ [overlongName] :=
  Path.pieces_ofNames false overlongPath_normal.isName

theorem overlongPath_proper : Path.Proper overlongPath := by
  have hchars : overlongPath.toList = ['m', '/'] ++ List.replicate 256 'a' := by
    have hname : overlongName.toList = List.replicate 256 'a' := String.toList_ofList
    unfold overlongPath
    rw [Path.toList_ofNames, List.map_cons, List.map_singleton,
      List.intercalate_cons_of_ne_nil (List.cons_ne_nil _ _), List.intercalate_singleton, hname]
    rfl
  refine ⟨?_, ?_, ?_⟩
  · rw [hchars]
    intro hmem
    rcases List.mem_append.1 hmem with hmem | hmem
    · exact absurd hmem (by decide)
    · exact absurd (List.eq_of_mem_replicate hmem) (by decide)
  · intro he
    rw [he] at hchars
    cases hchars
  · have hsize : 'a'.utf8Size = 1 := by decide
    rw [← String.utf8Len_toList, hchars, String.utf8Len_append, utf8Len_replicate, hsize]
    decide

/-- Saving under the path makes the directory first. -/
theorem overlongPath_parents : makeParents overlongPath = makeDirs ["m"] := by
  have hnames : Path.names overlongPath = ["m"] ++ [overlongName] :=
    Path.names_ofNames overlongPath_normal
  have habsolute : Path.isAbsolute overlongPath = false :=
    Path.isAbsolute_ofNames overlongPath_normal.isName
  have hm : Path.ofNames false ["m"] = "m" := by decide
  have hancestors : Path.ancestors "m" = ["m"] := by decide
  rw [makeParents_eq (Path.parent?_eq hnames), habsolute, hm, hancestors]

/-- What is read at a path is not always what was read before or the record: in a save that goes no
further than the directory, the reason why nothing is read changes. -/
theorem read_not_kept :
    ¬ ∀ (r : Record) (path : String) (entries : List (String × Node))
        (p : FileProgram (Except FileError Unit)) (t : Node),
      ".." ∉ Path.pieces path →
      FileProgram.Reaches (saveRecord r path, .directory entries) (p, t) →
      Tree.read t path = Tree.read (.directory entries) path ∨ Tree.read t path = .ok r.bytes := by
  intro h
  obtain ⟨p, hreaches⟩ : ∃ p, FileProgram.Reaches (saveRecord bareRecord overlongPath, .directory [])
      (p, (Tree.answer (.makeDir "m") (.directory [])).2) := by
    unfold saveRecord
    rw [overlongPath_parents]
    exact ⟨_, .single (.answered (.makeDir "m") _ (.directory []))⟩
  have hdots : ".." ∉ Path.pieces overlongPath := by
    rw [overlongPath_pieces]
    intro hmem
    rcases List.mem_append.1 hmem with hmem | hmem
    · exact absurd hmem (by decide)
    · have hbytes := overlongName_bytes
      rw [← List.mem_singleton.1 hmem] at hbytes
      exact absurd hbytes (by decide)
  have hbefore : Tree.read (.directory []) overlongPath = .error .noEntry :=
    Tree.read_of_walk_error overlongPath_proper overlongPath_pieces rfl
  have hlong : maxNameBytes < overlongName.utf8ByteSize := by
    rw [overlongName_bytes]
    decide
  have hafter : Tree.read (Tree.answer (.makeDir "m") (.directory [])).2 overlongPath =
      .error .nameTooLong :=
    Tree.read_of_long overlongPath_proper overlongPath_pieces rfl hlong
  rcases h _ _ _ _ _ hdots hreaches with hsame | hsaved
  · rw [hbefore, hafter] at hsame
    cases hsame
  · rw [hafter] at hsaved
    cases hsaved

end VectorBench
