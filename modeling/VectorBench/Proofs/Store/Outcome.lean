import VectorBench.Proofs.Store.Saving
import VectorBench.Proofs.Store.Loading

/-!
# What a save leaves

A save that nothing disturbs either puts the record under the path or leaves the path alone, and in
both cases no file beside it.  When the directories above the path cannot be made, one of them is
none at the end, so there is no file beside the path either; all later failures are followed by the
removal of that file, which fails only when there is none.
-/

namespace VectorBench

open VectorBench.Path (location)

section

variable {path : String} {t t' : Node}

/-! ## Directories that cannot be made -/

theorem unlessDirectory_run_error {above : String} {e e' : FileError}
    (h : (unlessDirectory above e).run t = (.error e', t')) : Tree.isDir t' above = false := by
  unfold unlessDirectory at h
  have hanswer : Tree.answer (.isDir above) t = (.ok (Tree.isDir t above), t) := rfl
  rw [FileProgram.run_bind, run_ask, hanswer] at h
  cases hdir : Tree.isDir t above with
  | true => rw [hdir] at h; cases h
  | false =>
    rw [hdir] at h
    cases h
    exact hdir

/-- When making directories fails, one of them is none. -/
theorem makeDirs_run_error {paths : List String} {e : FileError}
    (h : (makeDirs paths).run t = (.error e, t')) : ∃ above ∈ paths, Tree.isDir t' above = false := by
  induction paths generalizing t e with
  | nil => cases h
  | cons first above ih =>
    rw [makeDirs, FileProgram.run_bind, run_ask] at h
    split at h
    · cases h
    · rw [FileProgram.run_bind] at h
      split at h
      · rename_i e' habove
        cases h
        obtain ⟨missing, hmem, hdir⟩ := ih (Prod.ext habove rfl)
        exact ⟨missing, List.mem_cons_of_mem _ hmem, hdir⟩
      · rw [FileProgram.run_bind, run_ask] at h
        split at h
        · cases h
        · exact ⟨first, List.mem_cons_self .., unlessDirectory_run_error h⟩
    · exact ⟨first, List.mem_cons_self .., unlessDirectory_run_error h⟩

/-- The directories above a path are there when there is a file beside it. -/
theorem isDir_of_opens {parent above : String} (hparent : Path.parent? path = some parent)
    (hmem : above ∈ Path.ancestors parent) (hdots : ".." ∉ Path.pieces path)
    (h : Tree.Opens t (temporaryPath path)) : Tree.isDir t above = true := by
  obtain ⟨dir, name, hlocate, -⟩ := h
  have hnames := locate_names (dots_temporaryPath hdots) hlocate
  obtain ⟨hproper, ⟨-, hplace⟩ | ⟨pieces, last, dir', hpieces, hwalk, hplace⟩⟩ :=
    locate_eq_ok_iff.1 hlocate
  · cases hplace
  obtain ⟨-, -, rfl, rfl, -⟩ := placeIn_eq_entry_iff.1 hplace.symm
  have hdotsAbove : ".." ∉ pieces := by
    intro hdot
    exact dots_temporaryPath hdots (by rw [hpieces]; exact List.mem_append_left _ hdot)
  -- the walk to the file beside goes through the place of the directory
  have hstart : location above <+: dir' := by
    have hdirectories := (Path.location_of_mem_ancestors hparent hmem).trans
      (dropLast_prefix_temporaryPath path)
    have hdropLast : (Place.entry dir' last false).names.dropLast = dir' := List.dropLast_concat
    rw [← hnames, hdropLast] at hdirectories
    exact hdirectories
  have hdir := walk_names hdotsAbove hwalk
  rw [List.nil_append] at hdir
  obtain ⟨rest, hrest⟩ := hstart
  rw [← walk_filter, ← hdir, ← hrest] at hwalk
  obtain ⟨there, habove, -⟩ := walk_append_eq_ok_iff.1 hwalk
  unfold location at habove
  rw [walk_filter] at habove
  have hsub := (Path.sublist_of_mem_ancestors hparent hmem).trans (sublist_temporaryPath path)
  exact Tree.isDir_of_walk
    (hproper.of_sublist (Path.nonempty_of_mem_ancestors hparent hmem) hsub) habove

/-- No file is beside a path whose directories cannot be made. -/
theorem makeParents_run_error {e : FileError} (hdots : ".." ∉ Path.pieces path)
    (h : (makeParents path).run t = (.error e, t')) (bytes : Bytes) :
    Tree.read t' (temporaryPath path) ≠ .ok bytes := by
  intro hread
  cases hparent : Path.parent? path with
  | none =>
    unfold makeParents at h
    rw [hparent] at h
    cases h
  | some parent =>
    rw [makeParents_eq hparent] at h
    obtain ⟨above, hmem, hdir⟩ := makeDirs_run_error h
    have hopens := ((Tree.read_eq_ok_iff (dots_temporaryPath hdots)).1 hread).1
    rw [isDir_of_opens hparent hmem hdots hopens] at hdir
    cases hdir

/-! ## The file beside, removed -/

theorem remove_run (hroot : t.kind = .directory) (hdots : ".." ∉ Path.pieces path) (bytes : Bytes) :
    Tree.read (Tree.answer (.remove (temporaryPath path)) t).2 (temporaryPath path) ≠ .ok bytes := by
  have hdots' := dots_temporaryPath hdots
  cases h : Tree.remove t (temporaryPath path) with
  | error e =>
    have hanswer : (Tree.answer (.remove (temporaryPath path)) t).2 = t := by
      show (Tree.change t (Tree.remove t (temporaryPath path))).2 = t
      rw [h]
      rfl
    rw [hanswer]
    exact Tree.remove_eq_error h bytes
  | ok t' =>
    have hanswer : (Tree.answer (.remove (temporaryPath path)) t).2 = t' := by
      show (Tree.change t (Tree.remove t (temporaryPath path))).2 = t'
      rw [h]
      rfl
    rw [hanswer, Ne, Tree.read_eq_ok_iff hdots']
    rintro ⟨-, hfile⟩
    obtain ⟨-, hview⟩ := Tree.remove_eq_ok hroot hdots' h
    rw [hview, Function.update_self] at hfile
    cases hfile

end

/-- A save that fails leaves no file beside the path. -/
theorem saveRecord_run_error {r : Record} {path : String} {e : FileError} {before after : Node}
    (hroot : before.kind = .directory) (hdots : ".." ∉ Path.pieces path)
    (h : (saveRecord r path).run before = (.error e, after)) (bytes : Bytes) :
    Tree.read after (temporaryPath path) ≠ .ok bytes := by
  unfold saveRecord at h
  rw [FileProgram.run_bind] at h
  have hparents := makeParents_keeps hroot hdots (.refl path before)
  have ht₁ := hparents.always _ _ (FileProgram.reaches_run _ _)
  split at h
  · rename_i e' hmake
    cases h
    exact makeParents_run_error hdots (Prod.ext hmake rfl) bytes
  · rw [FileProgram.run_bind] at h
    split at h
    · cases h
    · rename_i e' hreplace
      have ht₂ := (replaceFile_keeps hroot hdots r ht₁).atEnd _ _ (FileProgram.reaches_run _ _)
      rw [hreplace] at ht₂
      have hroot₂ := Untouched.root hroot ht₂
      cases h
      exact remove_run hroot₂ hdots bytes

/-- A save either puts the record under its path, from where it is loaded again, or it fails and
leaves the path alone.  No file is left beside the path, and nothing else changes but for missing
directories above the path, which may be made. -/
theorem saveRecord_run (r : Record) (path : String) (entries : List (String × Node))
    (hdots : ".." ∉ Path.pieces path) :
    match (saveRecord r path).run (.directory entries) with
    | (.ok _, after) =>
      Tree.read after path = .ok r.bytes ∧ (loadRecord path).run after = (.ok r, after) ∧
        after.view (location (temporaryPath path)) = none ∧
        ∀ names, names ≠ location path → names ≠ location (temporaryPath path) →
          after.view names = (Node.directory entries).view names ∨
            MadeAbove path (.directory entries) after names
    | (.error _, after) =>
      (∀ bytes, Tree.read after (temporaryPath path) ≠ .ok bytes) ∧
        after.view (location path) = (Node.directory entries).view (location path) ∧
        ∀ names, names ≠ location (temporaryPath path) →
          after.view names = (Node.directory entries).view names ∨
            MadeAbove path (.directory entries) after names := by
  have hroot : (Node.directory entries).kind = .directory := rfl
  have houtcome := (saveRecord_keeps hroot hdots r).atEnd _ _ (FileProgram.reaches_run _ _)
  generalize hrun : (saveRecord r path).run (.directory entries) = result at houtcome ⊢
  obtain ⟨answer, after⟩ := result
  cases answer with
  | ok _ =>
    have hsaved : Saved r path (.directory entries) after := houtcome
    refine ⟨hsaved.read, ?_, hsaved.gone, hsaved.others⟩
    rw [run_loadRecord, hsaved.read]
    show (recordOfBytes r.bytes, after) = _
    rw [recordOfBytes_bytes]
  | error e =>
    have huntouched : Untouched path (.directory entries) after := houtcome
    exact ⟨saveRecord_run_error hroot hdots hrun, huntouched.directoriesMade.view_place, huntouched⟩

def bareRecord : Record := ⟨⟨1, 1, 1, 1, 0⟩, [], by decide⟩

/-- Saved into a directory that is made for it, and not saved where a file is in its stead. -/
theorem saveRecord_run_bare :
    ".." ∉ Path.pieces "runs/a.json" ∧
      (∃ after, (saveRecord bareRecord "runs/a.json").run (.directory []) = (.ok (), after) ∧
        (loadRecord "runs/a.json").run after = (.ok bareRecord, after)) ∧
      ∃ e after, (saveRecord bareRecord "runs/a.json").run (.directory [("runs", .file [])]) =
          (.error e, after) ∧
        ∀ bytes, Tree.read after (temporaryPath "runs/a.json") ≠ .ok bytes := by
  have hdots : ".." ∉ Path.pieces "runs/a.json" := by decide
  refine ⟨hdots, ?_, ?_⟩
  · have hsaved := saveRecord_run bareRecord "runs/a.json" [] hdots
    have hok : ((saveRecord bareRecord "runs/a.json").run (.directory [])).1 = .ok () := by rfl
    generalize (saveRecord bareRecord "runs/a.json").run (.directory []) = result at hsaved hok ⊢
    obtain ⟨answer, after⟩ := result
    cases hok
    exact ⟨after, rfl, hsaved.2.1⟩
  · have hfailed := saveRecord_run bareRecord "runs/a.json" [("runs", .file [])] hdots
    have herror : ((saveRecord bareRecord "runs/a.json").run (.directory [("runs", .file [])])).1 =
        .error .alreadyExists := by rfl
    generalize (saveRecord bareRecord "runs/a.json").run (.directory [("runs", .file [])]) = result
      at hfailed herror ⊢
    obtain ⟨answer, after⟩ := result
    cases herror
    exact ⟨_, after, rfl, hfailed.1⟩

end VectorBench
