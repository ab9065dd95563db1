import VectorBench.Store
import VectorBench.Proofs.Files.Ancestors
import VectorBench.Proofs.Files.NewDirectories

/-!
# Beside a path

The file that a record is written to first has a place of its own, whatever the path is: in the
directory of the path, or in the path itself if it ends in a slash or a dot.  It is never the place
of the path nor on the way to it, so what is done there leaves the path alone.

    ¬ location (temporaryPath path) <+: location path                      (temporaryPath_not_on_way)
-/

namespace VectorBench

open VectorBench.Path (location)

/-! ## The temporary path -/

theorem toList_temporaryPath (path : String) :
    (temporaryPath path).toList = path.toList ++ ['.', 't', 'm', 'p'] := by
  unfold temporaryPath
  rw [String.toList_append]
  rfl

/-- The last piece of a path gets longer; a path without a last piece gets one. -/
theorem pieces_temporaryPath (path : String) :
    ∃ above last, Path.pieces (temporaryPath path) = above ++ [last ++ ".tmp"] ∧
      Path.pieces path = above ++ if last = "" then [] else [last] := by
  have hsuffix : '/' ∉ ['.', 't', 'm', 'p'] := by decide
  obtain ⟨above, last, hsplit, hsplit'⟩ := Path.splitOn_append path.toList hsuffix
  refine ⟨(above.filter (!·.isEmpty)).map String.ofList, String.ofList last, ?_, ?_⟩
  · unfold Path.pieces
    rw [toList_temporaryPath, hsplit', List.filter_append, List.map_append,
      List.filter_cons_of_pos (by simp), List.filter_nil, List.map_singleton, String.ofList_append]
  · unfold Path.pieces
    rw [hsplit, List.filter_append, List.map_append]
    cases last with
    | nil => simp
    | cons c last => simp

theorem append_tmp_ne (last : String) {short : String} (h : short.length < 4) :
    last ++ ".tmp" ≠ short := by
  rintro rfl
  have htmp : ".tmp".length = 4 := by decide
  rw [String.length_append] at h
  omega

theorem dots_temporaryPath {path : String} (hdots : ".." ∉ Path.pieces path) :
    ".." ∉ Path.pieces (temporaryPath path) := by
  obtain ⟨above, last, htmp, hpieces⟩ := pieces_temporaryPath path
  rw [htmp]
  intro hmem
  rcases List.mem_append.1 hmem with hmem | hmem
  · exact hdots (by rw [hpieces]; exact List.mem_append_left _ hmem)
  · exact append_tmp_ne last (by decide) (List.mem_singleton.1 hmem).symm

/-- The place beside a path is in the directory of the path or in the path itself. -/
theorem location_temporaryPath (path : String) :
    ∃ above name, location (temporaryPath path) = above ++ [name] ∧
      (location path = above ∨ ∃ last, last ≠ name ∧ location path = above ++ [last]) := by
  obtain ⟨above, last, htmp, hpieces⟩ := pieces_temporaryPath path
  refine ⟨above.filter (· != "."), last ++ ".tmp", ?_, ?_⟩
  · unfold location
    rw [htmp, List.filter_append,
      List.filter_cons_of_pos (by simpa using append_tmp_ne last (by decide))]
    rfl
  · unfold location
    rw [hpieces, List.filter_append]
    by_cases hlast : last = "" ∨ last = "."
    · left
      rcases hlast with rfl | rfl
      · simp
      · simp
    · right
      obtain ⟨hempty, hdot⟩ := not_or.1 hlast
      refine ⟨last, ?_, ?_⟩
      · intro he
        have hlength := congrArg String.length he
        have htmp : ".tmp".length = 4 := by decide
        rw [String.length_append] at hlength
        omega
      · rw [if_neg hempty, List.filter_cons_of_pos (by simpa using hdot), List.filter_nil]

/-- The place beside a path is not on the way to it. -/
theorem temporaryPath_not_on_way (path : String) :
    ¬ location (temporaryPath path) <+: location path := by
  obtain ⟨above, name, htmp, hpath | ⟨last, hlast, hpath⟩⟩ := location_temporaryPath path
  · rw [htmp, hpath]
    intro hstart
    have hlength := hstart.length_le
    rw [List.length_append, List.length_singleton] at hlength
    omega
  · rw [htmp, hpath]
    intro hstart
    have heq := hstart.eq_of_length (by simp)
    have hname := (List.append_inj' heq rfl).2
    cases hname
    exact hlast rfl

theorem temporaryPath_ne (path : String) : location path ≠ location (temporaryPath path) := by
  intro he
  have hstart : location (temporaryPath path) <+: location path :=
    ⟨[], by rw [List.append_nil, he]⟩
  exact temporaryPath_not_on_way path hstart

/-- Directories above a path are above the place beside it. -/
theorem dropLast_prefix_temporaryPath (path : String) :
    (location path).dropLast <+: (location (temporaryPath path)).dropLast := by
  obtain ⟨above, name, htmp, hpath | ⟨last, hlast, hpath⟩⟩ := location_temporaryPath path
  · rw [htmp, hpath, List.dropLast_concat]
    exact List.dropLast_prefix above
  · rw [htmp, hpath]
    exact ⟨[], by rw [List.append_nil, List.dropLast_concat, List.dropLast_concat]⟩

theorem sublist_temporaryPath (path : String) :
    path.toList.Sublist (temporaryPath path).toList := by
  rw [toList_temporaryPath]
  exact List.sublist_append_left _ _

/-! ## What stays as it is -/

/-- A directory above a path was missing and is there. -/
def MadeAbove (path : String) (before after : Node) (names : List String) : Prop :=
  names <+: (location path).dropLast ∧ before.view names = none ∧
    after.view names = some .directory

/-- Everything is as before but for directories above the path that were made, and for whatever is
beside the path. -/
def Untouched (path : String) (before after : Node) : Prop :=
  ∀ names, names ≠ location (temporaryPath path) →
    after.view names = before.view names ∨ MadeAbove path before after names

namespace Untouched

variable {path : String} {before between after : Node}

theorem refl (path : String) (tree : Node) : Untouched path tree tree :=
  fun _ _ => .inl rfl

theorem trans (h : Untouched path before between) (h' : Untouched path between after) :
    Untouched path before after := by
  intro names hne
  rcases h names hne with hsame | ⟨hstart, hnone, hmade⟩
  · rcases h' names hne with hsame' | ⟨hstart, hnone, hmade⟩
    · exact .inl (hsame'.trans hsame)
    · exact .inr ⟨hstart, hsame ▸ hnone, hmade⟩
  · rcases h' names hne with hsame' | ⟨-, hnone', -⟩
    · exact .inr ⟨hstart, hnone, hsame'.trans hmade⟩
    · rw [hmade] at hnone'
      cases hnone'

/-- A change beside the path. -/
theorem of_update {kind : Option Kind}
    (h : after.view = Function.update before.view (location (temporaryPath path)) kind) :
    Untouched path before after := by
  intro names hne
  left
  rw [h, Function.update_of_ne hne]

theorem directoriesMade (h : Untouched path before after) :
    DirectoriesMade (location path) before after := by
  intro names hstart
  refine h names ?_
  rintro rfl
  exact temporaryPath_not_on_way path hstart

theorem root (hroot : before.kind = .directory) (h : Untouched path before after) :
    after.kind = .directory := by
  have hview := h.directoriesMade [] List.nil_prefix
  rw [Node.view_nil, Node.view_nil, hroot] at hview
  rcases hview with hsame | ⟨-, hnone, -⟩
  · exact Option.some.inj hsame
  · cases hnone

/-- Reading the path gives what it gave before, or a name is now seen to be too long. -/
theorem read (hroot : before.kind = .directory) (hdots : ".." ∉ Path.pieces path)
    (h : Untouched path before after) :
    Tree.read after path = Tree.read before path ∨
      Tree.read before path = .error .noEntry ∧ Tree.read after path = .error .nameTooLong :=
  Tree.read_of_directoriesMade (h.root hroot) hdots h.directoriesMade

end Untouched

end VectorBench
