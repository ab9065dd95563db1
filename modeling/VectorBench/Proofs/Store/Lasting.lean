import VectorBench.Proofs.Files.Requests
import VectorBench.Proofs.Program.Ensures
import VectorBench.Store

/-!
# What lasts

No request takes a directory away, so none is gone after a program on files, and a path that led to
a place still does.  Making the directories above a path does not take away or change anything.

    DirectoriesLE t (p.run t).2                                                  (run_directories)
    EntriesLE t ((makeParents path).run t).2                                    (makeParents_lasts)
-/

namespace VectorBench

/-! ## Directories -/

namespace DirectoriesLE

variable {t t' t'' : Node}

theorem refl (t : Node) : DirectoriesLE t t := fun _ h => h

theorem trans (h : DirectoriesLE t t') (h' : DirectoriesLE t' t'') : DirectoriesLE t t'' :=
  fun names hnames => h' names (h names hnames)

theorem root (h : DirectoriesLE t t') (hroot : t.kind = .directory) : t'.kind = .directory := by
  have hview := h [] (by rw [Node.view_nil, hroot])
  rw [Node.view_nil] at hview
  exact Option.some.inj hview

/-- A change where no directory is. -/
theorem of_update {place : List String} {kind : Option Kind}
    (hold : t.view place ≠ some .directory) (h : t'.view = Function.update t.view place kind) :
    DirectoriesLE t t' := by
  intro names hnames
  have hne : names ≠ place := by
    rintro rfl
    exact hold hnames
  rw [h, Function.update_of_ne hne, hnames]

end DirectoriesLE

/-- No request takes a directory away. -/
theorem Tree.effect_directories {r : FileRequest} {t t' : Node} (hroot : t.kind = .directory)
    (h : Tree.effect r t = .ok t') : DirectoriesLE t t' := by
  have hsame {β : Type} {result : Except FileError β} (h : (result.map fun _ => t) = .ok t') :
      DirectoriesLE t t' := by
    cases result with
    | error e => cases h
    | ok b =>
      cases h
      exact .refl t
  cases r with
  | makeDir path =>
    obtain ⟨dir, name, slash, -, hnone, hview⟩ := Tree.makeDir_eq_ok_at hroot h
    refine .of_update ?_ hview
    rw [hnone]
    exact (Option.some_ne_none _).symm
  | isDir path =>
    cases h
    exact .refl t
  | create path =>
    obtain ⟨place, -, hold, hview⟩ := Tree.create_eq_ok_at hroot h
    exact .of_update hold hview
  | append path bytes =>
    obtain ⟨place, old, -, hfile, hview⟩ := Tree.append_eq_ok_at hroot h
    refine .of_update ?_ hview
    rw [hfile]
    simp
  | sync path => exact hsame h
  | rename source target =>
    obtain ⟨place, place', bytes, -, hfile, -, hold, hview⟩ := Tree.rename_eq_ok_at hroot h
    intro names hnames
    have hne : names ≠ place := by
      rintro rfl
      rw [hfile] at hnames
      cases hnames
    have hne' : names ≠ place' := by
      rintro rfl
      exact hold hnames
    rw [hview, Function.update_of_ne hne', Function.update_of_ne hne, hnames]
  | remove path =>
    obtain ⟨place, bytes, -, hfile, hview⟩ := Tree.remove_eq_ok_at hroot h
    refine .of_update ?_ hview
    rw [hfile]
    simp
  | read path => exact hsame h

theorem Tree.answer_directories (r : FileRequest) {t : Node} (hroot : t.kind = .directory) :
    DirectoriesLE t (Tree.answer r t).2 := by
  rcases Tree.answer_cases r t with ⟨e, -, hsame⟩ | ⟨v, -, heffect⟩
  · rw [hsame]
    exact .refl t
  · exact Tree.effect_directories hroot heffect

/-- After a program on files all directories are still there. -/
theorem FileProgram.run_directories {α : Type} (p : FileProgram α) {t : Node}
    (hroot : t.kind = .directory) : DirectoriesLE t (p.run t).2 := by
  induction p generalizing t with
  | done a => exact .refl t
  | ask r next ih =>
    have hanswer := Tree.answer_directories r hroot
    exact hanswer.trans (ih _ (hanswer.root hroot))

theorem FileProgram.run_root {α : Type} {p : FileProgram α} {a : α} {t t' : Node}
    (hroot : t.kind = .directory) (h : p.run t = (a, t')) : t'.kind = .directory := by
  have hlasts := FileProgram.run_directories p hroot
  rw [h] at hlasts
  exact hlasts.root hroot

/-! ## Entries -/

/-- All that is in one tree is in another. -/
def EntriesLE (t t' : Node) : Prop :=
  ∀ names kind, t.view names = some kind → t'.view names = some kind

theorem EntriesLE.directories {t t' : Node} (h : EntriesLE t t') : DirectoriesLE t t' :=
  fun names => h names .directory

/-- The requests that make directories, or ask for them. -/
def FileRequest.forDirectories : FileRequest → Bool
  | makeDir _ => true
  | isDir _ => true
  | _ => false

/-- A request for directories leaves all that there is. -/
theorem Tree.answer_lasts {r : FileRequest} (hr : r.forDirectories = true) {t : Node}
    (hroot : t.kind = .directory) : EntriesLE t (Tree.answer r t).2 := by
  cases r with
  | makeDir path =>
    rcases Tree.answer_cases (.makeDir path) t with ⟨e, -, hsame⟩ | ⟨v, -, heffect⟩
    · rw [hsame]
      exact fun _ _ h => h
    · obtain ⟨dir, name, slash, -, hnone, hview⟩ := Tree.makeDir_eq_ok_at hroot heffect
      intro names kind hnames
      have hne : names ≠ dir ++ [name] := by
        rintro rfl
        rw [hnone] at hnames
        cases hnames
      rw [hview, Function.update_of_ne hne, hnames]
  | isDir path => exact fun _ _ h => h
  | create => cases hr
  | append => cases hr
  | sync => cases hr
  | rename => cases hr
  | remove => cases hr
  | read => cases hr

/-- A program that asks for requests for directories only. -/
abbrev OnDirectories {α : Type} (p : FileProgram α) : Prop :=
  Program.Ensures (fun r => FileRequest.forDirectories r = true) (fun _ => True) p

theorem ask_onDirectories (r : FileRequest) (hr : r.forDirectories = true) :
    OnDirectories (ask r) :=
  .request hr

theorem unlessDirectory_onDirectories (path : String) (e : FileError) :
    OnDirectories (unlessDirectory path e) := by
  unfold unlessDirectory
  refine (ask_onDirectories (.isDir path) rfl).bind fun a _ => ?_
  split
  · exact .done trivial
  · exact .done trivial

theorem makeDirs_onDirectories (paths : List String) : OnDirectories (makeDirs paths) := by
  induction paths with
  | nil => exact .done trivial
  | cons path above ih =>
    rw [makeDirs]
    refine (ask_onDirectories (.makeDir path) rfl).bind fun a _ => ?_
    split
    · exact .done trivial
    · refine ih.bind fun b _ => ?_
      split
      · exact .done trivial
      · refine (ask_onDirectories (.makeDir path) rfl).bind fun c _ => ?_
        split
        · exact .done trivial
        · exact unlessDirectory_onDirectories path _
    · exact unlessDirectory_onDirectories path _

theorem makeParents_onDirectories (path : String) : OnDirectories (makeParents path) := by
  unfold makeParents
  split
  · exact .done trivial
  · exact makeDirs_onDirectories _

/-- Making the directories above a path takes nothing away and changes nothing that is there. -/
theorem makeParents_lasts (path : String) {t : Node} (hroot : t.kind = .directory) :
    EntriesLE t ((makeParents path).run t).2 := by
  have hrun := (makeParents_onDirectories path).run Tree.answer
    fun t t' => t.kind = .directory → EntriesLE t t'
  refine (hrun ?_ ?_ ?_ t).2 hroot
  · intro t _ names kind hnames
    exact hnames
  · intro t t' t'' h h' hroot names kind hnames
    exact h' ((h hroot).directories.root hroot) names kind (h hroot names kind hnames)
  · intro r t hr hroot
    exact Tree.answer_lasts hr hroot

end VectorBench
