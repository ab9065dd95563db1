import VectorBench.Proofs.Files.Walk

/-!
# What requests do

Every request by what it needs of a tree and what it changes.  A request that changes a tree changes
what is at the place that its path leads to and nothing else; renaming a file changes two places.  For
a path without pieces of two dots that place is its location, whatever the tree.

    read t path = .ok bytes ↔ ∃ place, OpensAt t path place ∧ t.view place = some (.file bytes)
                                                                               (read_eq_ok_iff_at)
    read t path = .ok bytes ↔ Opens t path ∧ t.view (Path.location path) = some (.file bytes)
                                                                                  (read_eq_ok_iff)
-/

namespace VectorBench

open VectorBench.Path (location)

namespace Tree

/-! ## Entries -/

theorem lookUp_eq_ok_iff {t : Node} {dir : List String} {name : String} {found : Option Node} :
    lookUp t dir name = .ok found ↔
      name.utf8ByteSize ≤ maxNameBytes ∧ t.get? (dir ++ [name]) = found := by
  unfold lookUp
  by_cases hlong : maxNameBytes < name.utf8ByteSize
  · rw [if_pos hlong]
    constructor
    · intro h; cases h
    · rintro ⟨hshort, -⟩
      omega
  · rw [if_neg hlong, Except.ok.injEq]
    constructor
    · intro h
      exact ⟨by omega, h⟩
    · rintro ⟨-, h⟩
      exact h

theorem get?_eq_file_iff {t : Node} {names : List String} {bytes : Bytes} :
    t.get? names = some (.file bytes) ↔ t.view names = some (.file bytes) := by
  unfold Node.view
  cases t.get? names with
  | none => simp
  | some node => cases node <;> simp [Node.kind]

theorem view_of_get? {t : Node} {names : List String} {found : Option Node}
    (h : t.get? names = found) : t.view names = found.map Node.kind := by
  rw [← h]
  rfl

theorem view_ne_directory {t : Node} {names : List String} {found : Option Node}
    (h : t.get? names = found) (hfound : ∀ entries, found ≠ some (.directory entries)) :
    t.view names ≠ some .directory := by
  rw [view_of_get? h]
  cases found with
  | none => exact (Option.some_ne_none _).symm
  | some node =>
    cases node with
    | file bytes => simp [Node.kind]
    | directory entries => exact absurd rfl (hfound entries)

/-- A path leads to a place: a name in a directory, where a file is or can be made. -/
def OpensAt (t : Node) (path : String) (place : List String) : Prop :=
  ∃ dir name, locate t path = .ok (.entry dir name false) ∧ name.utf8ByteSize ≤ maxNameBytes ∧
    place = dir ++ [name]

/-- A path leads to a name in a directory, where a file is or can be made. -/
def Opens (t : Node) (path : String) : Prop :=
  ∃ dir name, locate t path = .ok (.entry dir name false) ∧ name.utf8ByteSize ≤ maxNameBytes

theorem Opens.of_le {t t' : Node} {path : String} (hle : DirectoriesLE t t') (h : Opens t path) :
    Opens t' path := by
  obtain ⟨dir, name, hlocate, hshort⟩ := h
  exact ⟨dir, name, locate_of_le hle hlocate, hshort⟩

namespace OpensAt

variable {t t' : Node} {path : String} {place place' : List String}

theorem opens (h : OpensAt t path place) : Opens t path := by
  obtain ⟨dir, name, hlocate, hshort, -⟩ := h
  exact ⟨dir, name, hlocate, hshort⟩

theorem unique (h : OpensAt t path place) (h' : OpensAt t path place') : place = place' := by
  obtain ⟨dir, name, hlocate, -, rfl⟩ := h
  obtain ⟨dir', name', hlocate', -, rfl⟩ := h'
  rw [hlocate] at hlocate'
  cases hlocate'
  rfl

theorem of_le (hle : DirectoriesLE t t') (h : OpensAt t path place) : OpensAt t' path place := by
  obtain ⟨dir, name, hlocate, hshort, hplace⟩ := h
  exact ⟨dir, name, locate_of_le hle hlocate, hshort, hplace⟩

/-- Without two dots a path leads to its location. -/
theorem eq_location (hdots : ".." ∉ Path.pieces path) (h : OpensAt t path place) :
    place = location path := by
  obtain ⟨dir, name, hlocate, -, rfl⟩ := h
  exact locate_names hdots hlocate

end OpensAt

/-! ## Reading -/

theorem existingFile_eq_ok_iff {t : Node} {path name : String} {dir : List String} {bytes : Bytes} :
    existingFile t path = .ok (dir, name, bytes) ↔
      locate t path = .ok (.entry dir name false) ∧ name.utf8ByteSize ≤ maxNameBytes ∧
        t.view (dir ++ [name]) = some (.file bytes) := by
  unfold existingFile
  constructor
  · intro h
    split at h
    · cases h
    · cases h
    · rename_i dir' name' slash hlocate
      split at h
      · cases h
      · cases h
      · cases h
      · rename_i bytes' hfound
        cases slash with
        | true => cases h
        | false =>
          cases h
          obtain ⟨hshort, hget⟩ := lookUp_eq_ok_iff.1 hfound
          exact ⟨hlocate, hshort, get?_eq_file_iff.1 hget⟩
  · rintro ⟨hlocate, hshort, hview⟩
    have hfound : lookUp t dir name = .ok (some (.file bytes)) :=
      lookUp_eq_ok_iff.2 ⟨hshort, get?_eq_file_iff.2 hview⟩
    simp only [hlocate, hfound, Bool.false_eq_true, if_false]

theorem read_eq_ok_iff_at {t : Node} {path : String} {bytes : Bytes} :
    read t path = .ok bytes ↔ ∃ place, OpensAt t path place ∧ t.view place = some (.file bytes) := by
  unfold read
  constructor
  · intro h
    cases hfile : existingFile t path with
    | error e => rw [hfile] at h; cases h
    | ok found =>
      obtain ⟨dir, name, bytes'⟩ := found
      rw [hfile] at h
      cases h
      obtain ⟨hlocate, hshort, hview⟩ := existingFile_eq_ok_iff.1 hfile
      exact ⟨_, ⟨dir, name, hlocate, hshort, rfl⟩, hview⟩
  · rintro ⟨_, ⟨dir, name, hlocate, hshort, rfl⟩, hview⟩
    rw [existingFile_eq_ok_iff.2 ⟨hlocate, hshort, hview⟩]

theorem read_eq_ok_iff {t : Node} {path : String} {bytes : Bytes}
    (hdots : ".." ∉ Path.pieces path) :
    read t path = .ok bytes ↔ Opens t path ∧ t.view (location path) = some (.file bytes) := by
  rw [read_eq_ok_iff_at]
  constructor
  · rintro ⟨place, hplace, hview⟩
    rw [← hplace.eq_location hdots]
    exact ⟨hplace.opens, hview⟩
  · rintro ⟨⟨dir, name, hlocate, hshort⟩, hview⟩
    have hplace : OpensAt t path (dir ++ [name]) := ⟨dir, name, hlocate, hshort, rfl⟩
    rw [← hplace.eq_location hdots] at hview
    exact ⟨_, hplace, hview⟩

theorem existingFile_eq_error {t : Node} {path : String} {e : FileError}
    (h : existingFile t path = .error e) : read t path = .error e := by
  unfold read
  rw [h]

/-! ## Changes of one entry -/

theorem view_setEntry_locate {t : Node} {path name : String} {dir : List String} {slash : Bool}
    {c : Option Node} (hroot : t.kind = .directory)
    (hlocate : locate t path = .ok (.entry dir name slash))
    (hold : t.view (dir ++ [name]) ≠ some .directory)
    (hleaf : ∀ node, c = some node → node.IsLeaf) :
    (t.setEntry dir name c).view = Function.update t.view (dir ++ [name]) (c.map Node.kind) :=
  Node.view_setEntry (view_of_locate hroot hlocate) hold hleaf

theorem makeDir_eq_ok_at {t t' : Node} {path : String} (hroot : t.kind = .directory)
    (h : makeDir t path = .ok t') :
    ∃ dir name slash, locate t path = .ok (.entry dir name slash) ∧ t.view (dir ++ [name]) = none ∧
      t'.view = Function.update t.view (dir ++ [name]) (some .directory) := by
  unfold makeDir at h
  split at h
  · cases h
  · cases h
  · rename_i dir name slash hlocate
    split at h
    · cases h
    · cases h
    · rename_i hfound
      cases h
      have hview := view_of_get? (lookUp_eq_ok_iff.1 hfound).2
      have hold : t.view (dir ++ [name]) ≠ some .directory := by
        rw [hview]
        exact (Option.some_ne_none _).symm
      refine ⟨dir, name, slash, hlocate, hview, view_setEntry_locate hroot hlocate hold ?_⟩
      rintro node ⟨⟩
      exact Node.isLeaf_empty

theorem makeDir_eq_ok {t t' : Node} {path : String} (hroot : t.kind = .directory)
    (hdots : ".." ∉ Path.pieces path) (h : makeDir t path = .ok t') :
    t.view (location path) = none ∧
      t'.view = Function.update t.view (location path) (some .directory) := by
  obtain ⟨dir, name, slash, hlocate, hnone, hview⟩ := makeDir_eq_ok_at hroot h
  rw [← locate_names hdots hlocate]
  exact ⟨hnone, hview⟩

theorem create_eq_ok_at {t t' : Node} {path : String} (hroot : t.kind = .directory)
    (h : create t path = .ok t') :
    ∃ place, OpensAt t path place ∧ t.view place ≠ some .directory ∧
      t'.view = Function.update t.view place (some (.file [])) := by
  unfold create at h
  split at h
  · cases h
  · cases h
  · rename_i dir name slash hlocate
    cases slash with
    | true => cases h
    | false =>
      rw [if_neg Bool.false_ne_true] at h
      split at h
      · cases h
      · cases h
      · rename_i found hnotDirectory hfound
        cases h
        obtain ⟨hshort, hget⟩ := lookUp_eq_ok_iff.1 hfound
        have hold : t.view (dir ++ [name]) ≠ some .directory :=
          view_ne_directory hget hnotDirectory
        refine ⟨dir ++ [name], ⟨dir, name, hlocate, hshort, rfl⟩, hold,
          view_setEntry_locate hroot hlocate hold ?_⟩
        rintro node ⟨⟩
        exact Node.isLeaf_file []

theorem create_eq_ok {t t' : Node} {path : String} (hroot : t.kind = .directory)
    (hdots : ".." ∉ Path.pieces path) (h : create t path = .ok t') :
    Opens t path ∧ t.view (location path) ≠ some .directory ∧
      t'.view = Function.update t.view (location path) (some (.file [])) := by
  obtain ⟨place, hplace, hold, hview⟩ := create_eq_ok_at hroot h
  rw [← hplace.eq_location hdots]
  exact ⟨hplace.opens, hold, hview⟩

theorem append_eq_ok_at {t t' : Node} {path : String} {more : Bytes} (hroot : t.kind = .directory)
    (h : append t path more = .ok t') :
    ∃ place bytes, OpensAt t path place ∧ t.view place = some (.file bytes) ∧
      t'.view = Function.update t.view place (some (.file (bytes ++ more))) := by
  unfold append at h
  cases hfile : existingFile t path with
  | error e => rw [hfile] at h; cases h
  | ok found =>
    obtain ⟨dir, name, bytes⟩ := found
    rw [hfile] at h
    cases h
    obtain ⟨hlocate, hshort, hview⟩ := existingFile_eq_ok_iff.1 hfile
    have hold : t.view (dir ++ [name]) ≠ some .directory := by
      rw [hview]
      simp
    refine ⟨dir ++ [name], bytes, ⟨dir, name, hlocate, hshort, rfl⟩, hview,
      view_setEntry_locate hroot hlocate hold ?_⟩
    rintro node ⟨⟩
    exact Node.isLeaf_file _

theorem append_eq_ok {t t' : Node} {path : String} {more : Bytes} (hroot : t.kind = .directory)
    (hdots : ".." ∉ Path.pieces path) (h : append t path more = .ok t') :
    ∃ bytes, read t path = .ok bytes ∧
      t'.view = Function.update t.view (location path) (some (.file (bytes ++ more))) := by
  obtain ⟨place, bytes, hplace, hfile, hview⟩ := append_eq_ok_at hroot h
  rw [← hplace.eq_location hdots]
  exact ⟨bytes, read_eq_ok_iff_at.2 ⟨place, hplace, hfile⟩, hview⟩

theorem remove_eq_ok_at {t t' : Node} {path : String} (hroot : t.kind = .directory)
    (h : remove t path = .ok t') :
    ∃ place bytes, OpensAt t path place ∧ t.view place = some (.file bytes) ∧
      t'.view = Function.update t.view place none := by
  unfold remove at h
  cases hfile : existingFile t path with
  | error e => rw [hfile] at h; cases h
  | ok found =>
    obtain ⟨dir, name, bytes⟩ := found
    rw [hfile] at h
    cases h
    obtain ⟨hlocate, hshort, hview⟩ := existingFile_eq_ok_iff.1 hfile
    have hold : t.view (dir ++ [name]) ≠ some .directory := by
      rw [hview]
      simp
    refine ⟨dir ++ [name], bytes, ⟨dir, name, hlocate, hshort, rfl⟩, hview,
      view_setEntry_locate hroot hlocate hold ?_⟩
    rintro node ⟨⟩

theorem remove_eq_ok {t t' : Node} {path : String} (hroot : t.kind = .directory)
    (hdots : ".." ∉ Path.pieces path) (h : remove t path = .ok t') :
    (∃ bytes, read t path = .ok bytes) ∧
      t'.view = Function.update t.view (location path) none := by
  obtain ⟨place, bytes, hplace, hfile, hview⟩ := remove_eq_ok_at hroot h
  rw [← hplace.eq_location hdots]
  exact ⟨⟨bytes, read_eq_ok_iff_at.2 ⟨place, hplace, hfile⟩⟩, hview⟩

theorem remove_eq_error {t : Node} {path : String} {e : FileError} (h : remove t path = .error e)
    (bytes : Bytes) : read t path ≠ .ok bytes := by
  unfold remove at h
  cases hfile : existingFile t path with
  | error e =>
    rw [existingFile_eq_error hfile]
    intro hread
    cases hread
  | ok found => rw [hfile] at h; cases h

/-! ## Renaming -/

/-- A file leaves one location and is found at another. -/
theorem moveFile_eq_ok {t t' : Node} {dir dir' : List String} {name name' : String} {bytes : Bytes}
    (hdir : t.view dir = some .directory) (hdir' : t.view dir' = some .directory)
    (hfile : t.view (dir ++ [name]) = some (.file bytes))
    (h : moveFile t dir name bytes dir' name' = .ok t') :
    name'.utf8ByteSize ≤ maxNameBytes ∧ t.view (dir' ++ [name']) ≠ some .directory ∧
      t'.view = Function.update (Function.update t.view (dir ++ [name]) none) (dir' ++ [name'])
        (some (.file bytes)) := by
  unfold moveFile at h
  split at h
  · cases h
  · cases h
  · rename_i found hnotDirectory hfound
    cases h
    obtain ⟨hshort, hget⟩ := lookUp_eq_ok_iff.1 hfound
    have hold : t.view (dir' ++ [name']) ≠ some .directory :=
      view_ne_directory hget hnotDirectory
    -- the tree between: the file is gone, and no directory changed
    have hgone : (t.setEntry dir name none).view = Function.update t.view (dir ++ [name]) none := by
      refine Node.view_setEntry hdir (by rw [hfile]; simp) ?_
      rintro node ⟨⟩
    have hne : dir' ≠ dir ++ [name] := by
      rintro rfl
      rw [hfile] at hdir'
      cases hdir'
    have hdirGone : (t.setEntry dir name none).view dir' = some .directory := by
      rw [hgone, Function.update_of_ne hne, hdir']
    have holdGone : (t.setEntry dir name none).view (dir' ++ [name']) ≠ some .directory := by
      rw [hgone]
      by_cases hsame : dir' ++ [name'] = dir ++ [name]
      · rw [hsame, Function.update_self]
        simp
      · rw [Function.update_of_ne hsame]
        exact hold
    refine ⟨hshort, hold, ?_⟩
    rw [← hgone]
    refine Node.view_setEntry hdirGone holdGone ?_
    rintro node ⟨⟩
    exact Node.isLeaf_file bytes

theorem rename_eq_ok_at {t t' : Node} {source target : String} (hroot : t.kind = .directory)
    (h : rename t source target = .ok t') :
    ∃ place place' bytes, OpensAt t source place ∧ t.view place = some (.file bytes) ∧
      OpensAt t target place' ∧ t.view place' ≠ some .directory ∧
      t'.view = Function.update (Function.update t.view place none) place'
        (some (.file bytes)) := by
  unfold rename at h
  split at h
  · cases h
  · cases h
  · rename_i dir name slash dir' name' slash' hlocate hlocate'
    split at h
    · cases h
    · cases h
    · cases h
    · rename_i bytes hfound
      split at h
      · cases h
      · rename_i hslash
        obtain ⟨rfl, rfl⟩ : slash = false ∧ slash' = false := by
          cases slash <;> cases slash' <;> simp at hslash ⊢
        obtain ⟨hshort, hget⟩ := lookUp_eq_ok_iff.1 hfound
        have hfile := get?_eq_file_iff.1 hget
        obtain ⟨hshort', hold, hview⟩ := moveFile_eq_ok (view_of_locate hroot hlocate)
          (view_of_locate hroot hlocate') hfile h
        exact ⟨dir ++ [name], dir' ++ [name'], bytes, ⟨dir, name, hlocate, hshort, rfl⟩, hfile,
          ⟨dir', name', hlocate', hshort', rfl⟩, hold, hview⟩
  · cases h

theorem rename_eq_ok {t t' : Node} {source target : String} (hroot : t.kind = .directory)
    (hsource : ".." ∉ Path.pieces source) (htarget : ".." ∉ Path.pieces target)
    (h : rename t source target = .ok t') :
    ∃ bytes, read t source = .ok bytes ∧ Opens t target ∧
      t.view (location target) ≠ some .directory ∧
      t'.view = Function.update (Function.update t.view (location source) none) (location target)
        (some (.file bytes)) := by
  obtain ⟨place, place', bytes, hplace, hfile, hplace', hold, hview⟩ := rename_eq_ok_at hroot h
  rw [← hplace.eq_location hsource, ← hplace'.eq_location htarget]
  exact ⟨bytes, read_eq_ok_iff_at.2 ⟨place, hplace, hfile⟩, hplace'.opens, hold, hview⟩

/-! ## Directories -/

/-- A path whose walk succeeds to the end names a directory. -/
theorem isDir_of_walk {t : Node} {path : String} {there : List String}
    (hproper : Path.Proper path) (h : walk t [] (Path.pieces path) = .ok there) :
    isDir t path = true := by
  rcases List.eq_nil_or_concat' (Path.pieces path) with hnil | ⟨above, last, hpieces⟩
  · unfold isDir
    rw [locate_eq_ok_iff.2 ⟨hproper, .inl ⟨hnil, rfl⟩⟩]
  · rw [hpieces] at h
    obtain ⟨dir, hwalk, hlast⟩ := walk_append_eq_ok_iff.1 h
    obtain ⟨_, hstep, -⟩ := walk_cons_eq_ok_iff.1 hlast
    unfold isDir
    rw [locate_eq_ok_iff.2 ⟨hproper, .inr ⟨above, last, dir, hpieces, hwalk, rfl⟩⟩]
    by_cases hdot : last = "."
    · subst hdot; rfl
    by_cases hdots : last = ".."
    · subst hdots; rfl
    obtain ⟨hshort, hview, -⟩ := (walkStep_eq_ok_iff hdot hdots).1 hstep
    have hplace := placeIn_entry dir (Path.endsInSlash path) hdot hdots
    have hfound : lookUp t dir last = .ok (t.get? (dir ++ [last])) :=
      lookUp_eq_ok_iff.2 ⟨hshort, rfl⟩
    simp only [hplace, hfound]
    unfold Node.view at hview
    cases hget : t.get? (dir ++ [last]) with
    | none => rw [hget] at hview; cases hview
    | some node =>
      cases node with
      | file bytes => rw [hget] at hview; cases hview
      | directory entries => rfl

/-! ## Effects -/

def effect : FileRequest → Node → Except FileError Node
  | .makeDir path, tree => makeDir tree path
  | .isDir _, tree => .ok tree
  | .create path, tree => create tree path
  | .append path bytes, tree => append tree path bytes
  | .sync path, tree => (existingFile tree path).map fun _ => tree
  | .rename source target, tree => rename tree source target
  | .remove path, tree => remove tree path
  | .read path, tree => (read tree path).map fun _ => tree

/-- A request fails and changes nothing, or it succeeds and has its effect. -/
theorem answer_cases (r : FileRequest) (t : Node) :
    (∃ e, (answer r t).1 = .error e ∧ (answer r t).2 = t) ∨
      ∃ a, (answer r t).1 = .ok a ∧ effect r t = .ok (answer r t).2 := by
  have hchange (result : Except FileError Node) :
      (∃ e, (change t result).1 = .error e ∧ (change t result).2 = t) ∨
        ∃ a, (change t result).1 = .ok a ∧ result = .ok (change t result).2 := by
    cases result with
    | error e => exact .inl ⟨e, rfl, rfl⟩
    | ok t' => exact .inr ⟨(), rfl, rfl⟩
  cases r with
  | makeDir path => exact hchange (makeDir t path)
  | isDir path => exact .inr ⟨isDir t path, rfl, rfl⟩
  | create path => exact hchange (create t path)
  | append path bytes => exact hchange (append t path bytes)
  | sync path =>
    show (∃ e, (existingFile t path).map _ = .error e ∧ t = t) ∨
      ∃ a, (existingFile t path).map _ = .ok a ∧ (existingFile t path).map _ = .ok t
    cases existingFile t path with
    | error e => exact .inl ⟨e, rfl, rfl⟩
    | ok found => exact .inr ⟨(), rfl, rfl⟩
  | rename source target => exact hchange (rename t source target)
  | remove path => exact hchange (remove t path)
  | read path =>
    show (∃ e, read t path = .error e ∧ t = t) ∨
      ∃ a, read t path = .ok a ∧ (read t path).map _ = .ok t
    cases read t path with
    | error e => exact .inl ⟨e, rfl, rfl⟩
    | ok bytes => exact .inr ⟨bytes, rfl, rfl⟩

end Tree

end VectorBench
