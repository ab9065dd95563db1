import VectorBench.Proofs.Store.Outcome
import VectorBench.Proofs.Store.Written

/-!
# Saves one after the other

Records that are saved under different paths are all there afterwards: a save changes nothing but
what is at its path and beside it.  So a record lasts until something is saved under its path again,
or under the path that it is beside.

    (saveEach (earlier ++ (path, r) :: later)).run t = (.ok (), after) →
      (loadRecord path).run after = (.ok r, after)
        if no later save is under `path`, and `path` is beside no path of a later save
                                                                             (loadRecord_saveEach)
-/

namespace VectorBench

open VectorBench.Path (location)

/-- Saves records under paths, up to the first save that fails. -/
def saveEach : List (String × Record) → FileProgram (Except FileError Unit)
  | [] => return .ok ()
  | (path, r) :: rest => do
    match ← saveRecord r path with
    | .error e => return .error e
    | .ok _ => saveEach rest

/-! ## Plain paths -/

namespace Path

/-- A relative path of names that are not dots. -/
def Plain (path : String) : Prop :=
  ∃ names, names ≠ [] ∧ (∀ name ∈ names, IsName name ∧ name ≠ "." ∧ name ≠ "..") ∧
    path = ofNames false names

namespace Plain

variable {path path' : String}

theorem pieces_eq (h : Plain path) : path = ofNames false (pieces path) := by
  obtain ⟨names, -, hnames, rfl⟩ := h
  rw [pieces_ofNames false fun name hname => (hnames name hname).1]

theorem dots (h : Plain path) : ".." ∉ pieces path := by
  obtain ⟨names, -, hnames, rfl⟩ := h
  rw [pieces_ofNames false fun name hname => (hnames name hname).1]
  intro hdots
  exact (hnames ".." hdots).2.2 rfl

theorem location_eq (h : Plain path) : location path = pieces path := by
  obtain ⟨names, -, hnames, rfl⟩ := h
  rw [location, pieces_ofNames false fun name hname => (hnames name hname).1, List.filter_eq_self]
  intro name hname
  simpa using (hnames name hname).2.1

/-- Plain paths that lead to one place are the same. -/
theorem eq_of_location (h : Plain path) (h' : Plain path') (he : location path = location path') :
    path = path' := by
  rw [h.location_eq, h'.location_eq] at he
  rw [h.pieces_eq, h'.pieces_eq, he]

end Plain

end Path

theorem intercalate_concat (sep : List Char) (above : List (List Char)) (last more : List Char) :
    sep.intercalate (above ++ [last]) ++ more = sep.intercalate (above ++ [last ++ more]) := by
  induction above with
  | nil => rw [List.nil_append, List.nil_append, List.intercalate_singleton,
      List.intercalate_singleton]
  | cons first above ih =>
    rw [List.cons_append, List.cons_append, List.intercalate_cons_of_ne_nil (by simp),
      List.intercalate_cons_of_ne_nil (by simp), List.append_assoc, ih]

/-- What is beside a plain path has a plain path. -/
theorem Path.Plain.temporaryPath {path : String} (h : Path.Plain path) :
    Path.Plain (temporaryPath path) := by
  obtain ⟨names, hne, hnames, rfl⟩ := h
  obtain ⟨above, last, rfl⟩ := (List.eq_nil_or_concat' names).resolve_left hne
  refine ⟨above ++ [last ++ ".tmp"], by simp, ?_, ?_⟩
  · intro name hname
    rcases List.mem_append.1 hname with hname | hname
    · exact hnames name (List.mem_append_left _ hname)
    · rw [List.mem_singleton.1 hname]
      have hlast := (hnames last (by simp)).1
      refine ⟨⟨append_tmp_ne last (by decide), ?_⟩, append_tmp_ne last (by decide),
        append_tmp_ne last (by decide)⟩
      rw [String.toList_append]
      intro hslash
      rcases List.mem_append.1 hslash with hslash | hslash
      · exact hlast.noSlash hslash
      · exact absurd hslash (by decide)
  · apply String.toList_inj.1
    rw [toList_temporaryPath, Path.toList_ofNames, Path.toList_ofNames, List.append_assoc,
      List.map_append, List.map_append, List.map_singleton, List.map_singleton,
      intercalate_concat, String.toList_append]
    rfl

/-! ## One save -/

section

variable {path other : String} {r kept : Record} {t t' : Node} {bytes : Bytes}

/-- A save, done or failed, changes nothing but at its path and beside it. -/
theorem saveRecord_others (hroot : t.kind = .directory) (hdots : ".." ∉ Path.pieces other)
    {names : List String} (hne : names ≠ location other)
    (hne' : names ≠ location (temporaryPath other)) :
    ((saveRecord r other).run t).2.view names = t.view names ∨
      MadeAbove other t ((saveRecord r other).run t).2 names := by
  have houtcome := (saveRecord_keeps hroot hdots r).atEnd _ _ (FileProgram.reaches_run _ _)
  cases hanswer : ((saveRecord r other).run t).1 with
  | ok _ =>
    rw [hanswer] at houtcome
    have hsaved : Saved r other t _ := houtcome
    exact hsaved.others names hne hne'
  | error e =>
    rw [hanswer] at houtcome
    have huntouched : Untouched other t _ := houtcome
    exact huntouched names hne'

/-- A file that is neither at the path of a save nor beside it is read as before. -/
theorem saveRecord_keeps_read (hroot : t.kind = .directory) (hdots : ".." ∉ Path.pieces path)
    (hdots' : ".." ∉ Path.pieces other) (hne : location path ≠ location other)
    (hne' : location path ≠ location (temporaryPath other)) (h : Tree.read t path = .ok bytes) :
    Tree.read ((saveRecord r other).run t).2 path = .ok bytes := by
  obtain ⟨hopens, hfile⟩ := (Tree.read_eq_ok_iff hdots).1 h
  rw [Tree.read_eq_ok_iff hdots]
  refine ⟨hopens.of_le (FileProgram.run_directories _ hroot), ?_⟩
  rcases saveRecord_others hroot hdots' hne hne' with hsame | ⟨-, hnone, -⟩
  · rw [hsame, hfile]
  · rw [hfile] at hnone
    cases hnone

end

/-! ## All saves -/

section

variable {path : String} {r : Record} {t t' : Node} {bytes : Bytes}

theorem saveEach_cons_ok {rest : List (String × Record)}
    (h : (saveEach ((path, r) :: rest)).run t = (.ok (), t')) :
    ∃ mid, (saveRecord r path).run t = (.ok (), mid) ∧ (saveEach rest).run mid = (.ok (), t') := by
  rw [saveEach] at h
  obtain ⟨_, mid, hsave, hrest⟩ := FileProgram.run_bind_ok (fun e _ => ⟨e, rfl⟩) h
  exact ⟨mid, hsave, hrest⟩

theorem saveEach_append_ok {first rest : List (String × Record)}
    (h : (saveEach (first ++ rest)).run t = (.ok (), t')) :
    ∃ mid, (saveEach first).run t = (.ok (), mid) ∧ (saveEach rest).run mid = (.ok (), t') := by
  induction first generalizing t with
  | nil => exact ⟨t, rfl, h⟩
  | cons save first ih =>
    obtain ⟨path, r⟩ := save
    obtain ⟨mid, hsave, hmore⟩ := saveEach_cons_ok h
    obtain ⟨mid', hfirst, hrest⟩ := ih hmore
    refine ⟨mid', ?_, hrest⟩
    rw [saveEach, FileProgram.run_bind, hsave]
    exact hfirst

/-- A file that is neither at the path of a save nor beside it is read as before all of them. -/
theorem saveEach_keeps_read (hdots : ".." ∉ Path.pieces path) {saves : List (String × Record)}
    (hsaves : ∀ save ∈ saves, ".." ∉ Path.pieces save.1 ∧ location path ≠ location save.1 ∧
      location path ≠ location (temporaryPath save.1))
    (hroot : t.kind = .directory) (h : Tree.read t path = .ok bytes) :
    Tree.read ((saveEach saves).run t).2 path = .ok bytes := by
  induction saves generalizing t with
  | nil => exact h
  | cons save rest ih =>
    obtain ⟨other, r⟩ := save
    obtain ⟨⟨hdots', hne, hne'⟩, hrest⟩ := List.forall_mem_cons.1 hsaves
    have hkept := saveRecord_keeps_read (r := r) hroot hdots hdots' hne hne' h
    have hroot' := (FileProgram.run_directories (saveRecord r other) hroot).root hroot
    rw [saveEach, FileProgram.run_bind]
    cases hanswer : ((saveRecord r other).run t).1 with
    | error e => exact hkept
    | ok _ => exact ih hrest hroot' hkept

/-- After saves that all succeed, a path is read as the record that was saved last under it. -/
theorem saveEach_read {earlier later : List (String × Record)} (hroot : t.kind = .directory)
    (hdots : ".." ∉ Path.pieces path)
    (hlater : ∀ save ∈ later, ".." ∉ Path.pieces save.1 ∧ location path ≠ location save.1 ∧
      location path ≠ location (temporaryPath save.1))
    (h : (saveEach (earlier ++ (path, r) :: later)).run t = (.ok (), t')) :
    Tree.read t' path = .ok r.bytes := by
  obtain ⟨mid, hearlier, hrest⟩ := saveEach_append_ok h
  obtain ⟨mid', hsave, hmore⟩ := saveEach_cons_ok hrest
  have hroot₁ := FileProgram.run_root hroot hearlier
  have hroot₂ := FileProgram.run_root hroot₁ hsave
  have hkept := saveEach_keeps_read hdots hlater hroot₂ (saveRecord_read hroot₁ hsave)
  rw [hmore] at hkept
  exact hkept

end

/-- Saves under plain paths that all succeed leave under every path the record that was saved there
last, unless the path is beside one of a later save; and a save under one path, whether it succeeds
or not, leaves the record under another path that is not beside it. -/
theorem loadRecord_saveEach :
    (∀ (entries : List (String × Node)) (earlier later : List (String × Record)) (path : String)
        (r : Record) (after : Node),
      (∀ save ∈ earlier ++ (path, r) :: later, Path.Plain save.1) →
      (∀ save ∈ later, save.1 ≠ path ∧ temporaryPath save.1 ≠ path) →
      (saveEach (earlier ++ (path, r) :: later)).run (.directory entries) = (.ok (), after) →
      (loadRecord path).run after = (.ok r, after)) ∧
    ∀ (entries : List (String × Node)) (path other : String) (r kept : Record),
      Path.Plain path → Path.Plain other → other ≠ path → temporaryPath other ≠ path →
      ((loadRecord path).run (.directory entries)).1 = .ok kept →
      ((loadRecord path).run ((saveRecord r other).run (.directory entries)).2).1 = .ok kept := by
  have hlocation {path other : String} (hpath : Path.Plain path) (hother : Path.Plain other)
      (hne : other ≠ path) : location path ≠ location other :=
    fun he => hne (hpath.eq_of_location hother he).symm
  refine ⟨?_, ?_⟩
  · intro entries earlier later path r after hplain hlater h
    have hpath := hplain (path, r) (by simp)
    have hread := saveEach_read rfl hpath.dots (fun save hsave => by
      have hsave' := hplain save (by simp [hsave])
      obtain ⟨hne, hbeside⟩ := hlater save hsave
      exact ⟨hsave'.dots, hlocation hpath hsave' hne,
        hlocation hpath hsave'.temporaryPath hbeside⟩) h
    rw [run_loadRecord, hread]
    show (recordOfBytes r.bytes, after) = _
    rw [recordOfBytes_bytes]
  · intro entries path other r kept hpath hother hne hbeside h
    rw [run_loadRecord] at h ⊢
    cases hread : Tree.read (.directory entries) path with
    | error e =>
      rw [hread] at h
      cases h
    | ok bytes =>
      rw [hread] at h
      rw [saveRecord_keeps_read rfl hpath.dots hother.dots (hlocation hpath hother hne)
        (hlocation hpath hother.temporaryPath hbeside) hread]
      exact h

theorem Path.plain_name {name : String} (h : Path.IsName name) (hdot : name ≠ ".")
    (hdots : name ≠ "..") : Path.Plain name := by
  refine ⟨[name], List.cons_ne_nil _ _, ?_, ?_⟩
  · intro other hother
    rw [List.mem_singleton.1 hother]
    exact ⟨h, hdot, hdots⟩
  · show name = "" ++ "/".intercalate [name]
    rw [String.empty_append, String.intercalate_singleton]

/-- Another record under the first path, and the second one is still there. -/
theorem loadRecord_saveEach_again :
    (∀ save ∈ [("a", bareRecord), ("b", bareRecord), ("a", bareRecord)], Path.Plain save.1) ∧
      ∃ after, (saveEach [("a", bareRecord), ("b", bareRecord), ("a", bareRecord)]).run
          (.directory []) = (.ok (), after) ∧
        (loadRecord "b").run after = (.ok bareRecord, after) ∧
        ((loadRecord "b").run ((saveRecord bareRecord "c").run after).2).1 = .ok bareRecord := by
  have ha : Path.Plain "a" := Path.plain_name ⟨by decide, by decide⟩ (by decide) (by decide)
  have hb : Path.Plain "b" := Path.plain_name ⟨by decide, by decide⟩ (by decide) (by decide)
  have hc : Path.Plain "c" := Path.plain_name ⟨by decide, by decide⟩ (by decide) (by decide)
  have hplain : ∀ save ∈ [("a", bareRecord), ("b", bareRecord), ("a", bareRecord)],
      Path.Plain save.1 := by
    simp only [List.forall_mem_cons]
    exact ⟨ha, hb, ha, List.forall_mem_nil _⟩
  obtain ⟨entries, hrun⟩ : ∃ entries, (saveEach [("a", bareRecord), ("b", bareRecord),
      ("a", bareRecord)]).run (.directory []) = (.ok (), .directory entries) := ⟨_, rfl⟩
  have hloaded := loadRecord_saveEach.1 [] [("a", bareRecord)] [("a", bareRecord)] "b" bareRecord
    (.directory entries) hplain (by decide) hrun
  refine ⟨hplain, .directory entries, hrun, hloaded, ?_⟩
  exact loadRecord_saveEach.2 entries "b" "c" bareRecord bareRecord hb hc (by decide) (by decide)
    (congrArg Prod.fst hloaded)

/-- A record is lost when something is saved under the path that it is beside. -/
theorem loadRecord_lost :
    ¬ ∀ (earlier later : List (String × Record)) (path : String) (r : Record) (after : Node),
      (∀ save ∈ earlier ++ (path, r) :: later, Path.Plain save.1) →
      (∀ save ∈ later, save.1 ≠ path) →
      (saveEach (earlier ++ (path, r) :: later)).run (.directory []) = (.ok (), after) →
      (loadRecord path).run after = (.ok r, after) := by
  intro h
  have hplain : ∀ save ∈ [] ++ [("a.tmp", bareRecord), ("a", bareRecord)], Path.Plain save.1 := by
    simp only [List.nil_append, List.forall_mem_cons]
    exact ⟨Path.plain_name ⟨by decide, by decide⟩ (by decide) (by decide),
      Path.plain_name ⟨by decide, by decide⟩ (by decide) (by decide), List.forall_mem_nil _⟩
  have hloaded := h [] [("a", bareRecord)] "a.tmp" bareRecord _ hplain (by decide) rfl
  have hmissing : ((loadRecord "a.tmp").run ((saveEach [("a.tmp", bareRecord),
      ("a", bareRecord)]).run (.directory [])).2).1 = .error (.io .noEntry) := by rfl
  have hboth := hmissing.symm.trans (congrArg Prod.fst hloaded)
  cases hboth

end VectorBench
