import VectorBench.Proofs.Store.Lasting
import VectorBench.Proofs.Store.Loading

/-!
# What was written

When a record or a chart was saved without an error, its path is read as what was saved, whatever the
path is: no directory goes away while a file is written, so the path leads to one place all the
time.  A chart is written in place and leaves every file at another place alone.

    (saveRecord r path).run t = (.ok (), t') → Tree.read t' path = .ok r.bytes      (saveRecord_read)
    (saveChart r path).run t = (.ok (), t') → Tree.read t' path = .ok r.chartBytes   (saveChart_read)
-/

namespace VectorBench

/-- Two paths lead to one place, where a file is or can be made. -/
def Tree.SamePlace (t : Node) (path path' : String) : Prop :=
  ∃ place, Tree.OpensAt t path place ∧ Tree.OpensAt t path' place

section

variable {path other : String} {r : Record} {t t' t₁ t₂ : Node} {bytes kept : Bytes}

/-! ## Files -/

theorem ask_run_ok {request : FileRequest} {v : request.Reply}
    (h : (ask request).run t = (.ok v, t')) : Tree.effect request t = .ok t' := by
  rw [run_ask] at h
  rcases Tree.answer_cases request t with ⟨e, hanswer, -⟩ | ⟨v', -, heffect⟩
  · rw [h] at hanswer
    cases hanswer
  · rw [h] at heffect
    exact heffect

/-- A file that is created or emptied and then filled holds the bytes it is filled with. -/
theorem create_append (hroot : t.kind = .directory) (hcreate : Tree.create t path = .ok t₁)
    (happend : Tree.append t₁ path bytes = .ok t₂) :
    ∃ place, Tree.OpensAt t path place ∧ t.view place ≠ some .directory ∧
      t₂.view = Function.update t.view place (some (.file bytes)) := by
  obtain ⟨place, hplace, hold, hview⟩ := Tree.create_eq_ok_at hroot hcreate
  have hle : DirectoriesLE t t₁ := .of_update hold hview
  obtain ⟨place', old, hplace', hold', hview'⟩ := Tree.append_eq_ok_at (hle.root hroot) happend
  obtain rfl := (hplace.of_le hle).unique hplace'
  rw [hview, Function.update_self] at hold'
  cases hold'
  refine ⟨place, hplace, hold, ?_⟩
  rw [hview', hview, Function.update_idem, List.nil_append]

theorem read_of_update {place : List String} (hplace : Tree.OpensAt t path place)
    (hold : t.view place ≠ some .directory)
    (hview : t'.view = Function.update t.view place (some (.file bytes))) :
    Tree.read t' path = .ok bytes := by
  refine Tree.read_eq_ok_iff_at.2 ⟨place, hplace.of_le (.of_update hold hview), ?_⟩
  rw [hview, Function.update_self]

/-! ## Records -/

theorem writeSynced_read (hroot : t.kind = .directory)
    (h : (writeSynced path bytes).run t = (.ok (), t')) : Tree.read t' path = .ok bytes := by
  unfold writeSynced at h
  obtain ⟨_, t₁, hcreate, h⟩ := FileProgram.run_bind_ok (fun e _ => ⟨e, rfl⟩) h
  obtain ⟨_, t₂, happend, h⟩ := FileProgram.run_bind_ok (fun e _ => ⟨e, rfl⟩) h
  obtain ⟨place, hplace, hold, hview⟩ :=
    create_append hroot (ask_run_ok hcreate) (ask_run_ok happend)
  have hsame : t₂ = t' := congrArg Prod.snd h
  rw [← hsame]
  exact read_of_update hplace hold hview

theorem replaceFile_read (hroot : t.kind = .directory)
    (h : (replaceFile path bytes).run t = (.ok (), t')) : Tree.read t' path = .ok bytes := by
  unfold replaceFile at h
  obtain ⟨_, t₁, hwrite, h⟩ := FileProgram.run_bind_ok (fun e _ => ⟨e, rfl⟩) h
  have hroot₁ := FileProgram.run_root hroot hwrite
  have hrename : Tree.effect (.rename (temporaryPath path) path) t₁ = .ok t' := ask_run_ok h
  obtain ⟨place, place', moved, hplace, hmoved, hplace', -, hview⟩ :=
    Tree.rename_eq_ok_at hroot₁ hrename
  -- what is moved is what was written
  obtain ⟨beside, hbeside, hwritten⟩ := Tree.read_eq_ok_iff_at.1 (writeSynced_read hroot hwrite)
  obtain rfl := hbeside.unique hplace
  rw [hmoved] at hwritten
  cases hwritten
  refine Tree.read_eq_ok_iff_at.2
    ⟨place', hplace'.of_le (Tree.effect_directories hroot₁ hrename), ?_⟩
  rw [hview, Function.update_self]

/-- A record that was saved is what its path is read as. -/
theorem saveRecord_read (hroot : t.kind = .directory)
    (h : (saveRecord r path).run t = (.ok (), t')) : Tree.read t' path = .ok r.bytes := by
  unfold saveRecord at h
  obtain ⟨_, t₁, hparents, h⟩ := FileProgram.run_bind_ok (fun e _ => ⟨e, rfl⟩) h
  have hroot₁ := FileProgram.run_root hroot hparents
  obtain ⟨_, t₂, hreplace, h⟩ := FileProgram.run_bind_ok (fun e _ => ⟨e, rfl⟩) h
  have hsame : t₂ = t' := congrArg Prod.snd h
  rw [← hsame]
  exact replaceFile_read hroot₁ hreplace

/-! ## Charts -/

def Record.chartBytes (r : Record) : Bytes := (Chart.ofRecord r).svg.toUTF8.toList

/-- A chart that was saved is at the place of its path, and all that was elsewhere is still there. -/
theorem saveChart_view (hroot : t.kind = .directory)
    (h : (saveChart r path).run t = (.ok (), t')) :
    ∃ place, Tree.OpensAt t' path place ∧ t'.view place = some (.file r.chartBytes) ∧
      ∀ names kind, names ≠ place → t.view names = some kind → t'.view names = some kind := by
  unfold saveChart at h
  obtain ⟨_, t₁, hparents, h⟩ := FileProgram.run_bind_ok (fun e _ => ⟨e, rfl⟩) h
  have hlasts := makeParents_lasts path hroot
  rw [hparents] at hlasts
  obtain ⟨_, t₂, hcreate, h⟩ := FileProgram.run_bind_ok (fun e _ => ⟨e, rfl⟩) h
  obtain ⟨place, hplace, hold, hview⟩ :=
    create_append (hlasts.directories.root hroot) (ask_run_ok hcreate) (ask_run_ok h)
  refine ⟨place, hplace.of_le (.of_update hold hview), ?_, ?_⟩
  · rw [hview, Function.update_self]
    rfl
  · intro names kind hne hnames
    rw [hview, Function.update_of_ne hne]
    exact hlasts names kind hnames

/-- A chart that was saved is what its path is read as. -/
theorem saveChart_read (hroot : t.kind = .directory)
    (h : (saveChart r path).run t = (.ok (), t')) : Tree.read t' path = .ok r.chartBytes := by
  obtain ⟨place, hplace, hfile, -⟩ := saveChart_view hroot h
  exact Tree.read_eq_ok_iff_at.2 ⟨place, hplace, hfile⟩

/-- A chart that was saved leaves alone what is read at the path of another place. -/
theorem saveChart_keeps_read (hroot : t.kind = .directory)
    (h : (saveChart r path).run t = (.ok (), t')) (hother : ¬ Tree.SamePlace t' other path)
    (hread : Tree.read t other = .ok kept) : Tree.read t' other = .ok kept := by
  obtain ⟨place, hplace, -, hkept⟩ := saveChart_view hroot h
  obtain ⟨place', hplace', hfile⟩ := Tree.read_eq_ok_iff_at.1 hread
  have hlasts := FileProgram.run_directories (saveChart r path) hroot
  rw [h] at hlasts
  have hopens := hplace'.of_le hlasts
  have hne : place' ≠ place := by
    rintro rfl
    exact hother ⟨place', hopens, hplace⟩
  exact Tree.read_eq_ok_iff_at.2 ⟨place', hopens, hkept place' _ hne hfile⟩

end

end VectorBench
