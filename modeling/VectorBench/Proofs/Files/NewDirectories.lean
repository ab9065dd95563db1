import VectorBench.Proofs.Files.Requests

/-!
# Reading after directories were made

Making missing directories on the way to a place brings no file there.  Reading gives what it gave
before, with one exception: a walk that came to a missing directory can now come to a name that is
too long.

    DirectoriesMade (location path) t t' →
      read t' path = read t path ∨
        read t path = .error .noEntry ∧ read t' path = .error .nameTooLong
                                                                      (read_of_directoriesMade)
-/

namespace VectorBench

open VectorBench.Path (location)

/-- On the way to a place nothing changed but that missing directories above it are there. -/
def DirectoriesMade (place : List String) (t t' : Node) : Prop :=
  ∀ names, names <+: place →
    t'.view names = t.view names ∨
      names <+: place.dropLast ∧ t.view names = none ∧ t'.view names = some .directory

theorem not_prefix_dropLast {place : List String} (h : place ≠ []) : ¬ place <+: place.dropLast := by
  intro hstart
  have hlength := hstart.length_le
  have hpos := List.length_pos_iff.2 h
  rw [List.length_dropLast] at hlength
  omega

namespace DirectoriesMade

variable {place : List String} {t t' : Node}

/-- What is at the place itself is as before. -/
theorem view_place (h : DirectoriesMade place t t') : t'.view place = t.view place := by
  rcases h place (List.prefix_refl place) with hsame | ⟨hstart, hnone, -⟩
  · exact hsame
  · by_cases hplace : place = []
    · subst hplace
      rw [Node.view_nil] at hnone
      cases hnone
    · exact absurd hstart (not_prefix_dropLast hplace)

/-- How a walk ends that went on where it stopped before. -/
inductive Astray (t : Node) : Except FileError (List String) → Prop
  | missing : Astray t (.error .noEntry)
  | tooLong : Astray t (.error .nameTooLong)
  | there {names : List String} (h : t.view names = none) : Astray t (.ok names)

/-- A walk below a name that was missing comes to directories that were missing. -/
theorem walk_astray (h : DirectoriesMade place t t') {here pieces : List String}
    (hdots : ".." ∉ pieces) (hplace : here ++ pieces.filter (· != ".") <+: place)
    (hhere : t.view here = none) : Astray t (walk t' here pieces) := by
  induction pieces generalizing here with
  | nil => exact .there hhere
  | cons name rest ih =>
    obtain ⟨hname, hrest⟩ := not_or.1 fun hor => hdots (List.mem_cons.2 hor)
    rw [walk]
    by_cases hdot : name = "."
    · subst hdot
      rw [List.filter_cons_of_neg (by decide)] at hplace
      rw [walkStep_dot]
      exact ih hrest hplace hhere
    · rw [List.filter_cons_of_pos (by simpa using hdot), ← List.singleton_append,
        ← List.append_assoc] at hplace
      rw [walkStep_eq t' here hdot fun he => hname he.symm]
      by_cases hlong : maxNameBytes < name.utf8ByteSize
      · rw [if_pos hlong]
        exact .tooLong
      · rw [if_neg hlong]
        have hmissing : t.view (here ++ [name]) = none := by
          refine Node.view_append_eq_none ?_ name []
          rw [hhere]
          exact (Option.some_ne_none _).symm
        rcases h _ ((List.prefix_append _ _).trans hplace) with hsame | ⟨-, -, hmade⟩
        · rw [hsame, hmissing]
          exact .missing
        · rw [hmade]
          exact ih hrest hplace hmissing

/-- A walk ends as before, or it went on where it stopped before. -/
theorem walk_eq (h : DirectoriesMade place t t') {here pieces : List String} (hdots : ".." ∉ pieces)
    (hplace : here ++ pieces.filter (· != ".") <+: place) :
    walk t' here pieces = walk t here pieces ∨
      walk t here pieces = .error .noEntry ∧ Astray t (walk t' here pieces) := by
  induction pieces generalizing here with
  | nil => exact .inl rfl
  | cons name rest ih =>
    obtain ⟨hname, hrest⟩ := not_or.1 fun hor => hdots (List.mem_cons.2 hor)
    by_cases hdot : name = "."
    · subst hdot
      rw [List.filter_cons_of_neg (by decide)] at hplace
      rw [walk, walk, walkStep_dot, walkStep_dot]
      exact ih hrest hplace
    · rw [List.filter_cons_of_pos (by simpa using hdot), ← List.singleton_append,
        ← List.append_assoc] at hplace
      rw [walk, walk, walkStep_eq t here hdot fun he => hname he.symm,
        walkStep_eq t' here hdot fun he => hname he.symm]
      by_cases hlong : maxNameBytes < name.utf8ByteSize
      · rw [if_pos hlong, if_pos hlong]
        exact .inl rfl
      · rw [if_neg hlong, if_neg hlong]
        rcases h _ ((List.prefix_append _ _).trans hplace) with hsame | ⟨-, hmissing, hmade⟩
        · rw [hsame]
          cases t.view (here ++ [name]) with
          | none => exact .inl rfl
          | some k =>
            cases k with
            | file bytes => exact .inl rfl
            | directory => exact ih hrest hplace
        · rw [hmissing, hmade]
          exact .inr ⟨rfl, walk_astray h hrest hplace hmissing⟩

end DirectoriesMade

namespace Tree

/-- A file is found by what is at the place that is located. -/
theorem existingFile_eq (t : Node) (path : String) :
    existingFile t path =
      match locate t path with
      | .error e => .error e
      | .ok (.directory _) => .error .isDirectory
      | .ok (.entry dir name slash) =>
        if maxNameBytes < name.utf8ByteSize then .error .nameTooLong
        else match t.view (dir ++ [name]) with
          | none => .error .noEntry
          | some .directory => .error .isDirectory
          | some (.file bytes) => if slash then .error .notDirectory else .ok (dir, name, bytes) := by
  unfold existingFile
  cases locate t path with
  | error e => rfl
  | ok place =>
    cases place with
    | directory dir => rfl
    | entry dir name slash =>
      unfold lookUp Node.view
      by_cases hlong : maxNameBytes < name.utf8ByteSize
      · simp only [if_pos hlong]
      · simp only [if_neg hlong]
        cases t.get? (dir ++ [name]) with
        | none => rfl
        | some node => cases node <;> rfl

/-- Where the same place is located and the same is there, the same file is found. -/
theorem existingFile_congr {t t' : Node} {path : String} (hdots : ".." ∉ Path.pieces path)
    (hlocate : locate t' path = locate t path)
    (hview : t'.view (location path) = t.view (location path)) :
    existingFile t' path = existingFile t path := by
  rw [existingFile_eq, existingFile_eq, hlocate]
  cases hplace : locate t path with
  | error e => rfl
  | ok place =>
    cases place with
    | directory dir => rfl
    | entry dir name slash =>
      have hnames := locate_names hdots hplace
      rw [← hnames] at hview
      show (if _ then _ else match t'.view (dir ++ [name]) with
        | none => _
        | some .directory => _
        | some (.file bytes) => _) = _
      rw [show t'.view (dir ++ [name]) = t.view (dir ++ [name]) from hview]

theorem read_of_walk_error {t : Node} {path name : String} {above : List String} {e : FileError}
    (hproper : Path.Proper path) (hpieces : Path.pieces path = above ++ [name])
    (h : walk t [] above = .error e) : read t path = .error e := by
  unfold read
  rw [existingFile_eq, locate_of_walk _ hproper hpieces, h]
  rfl

/-- In a directory that is there, a name that is too long is refused. -/
theorem read_of_long {t : Node} {path name : String} {above there : List String}
    (hproper : Path.Proper path) (hpieces : Path.pieces path = above ++ [name])
    (h : walk t [] above = .ok there) (hlong : maxNameBytes < name.utf8ByteSize) :
    read t path = .error .nameTooLong := by
  have hdot : name ≠ "." := by
    rintro rfl
    exact absurd hlong (by decide)
  have hdots : name ≠ ".." := by
    rintro rfl
    exact absurd hlong (by decide)
  have hlocate : locate t path = .ok (.entry there name (Path.endsInSlash path)) := by
    rw [locate_of_walk _ hproper hpieces, h, ← placeIn_entry there _ hdot hdots]
    rfl
  unfold read
  rw [existingFile_eq, hlocate]
  simp only [if_pos hlong]

/-- What a walk finds that went on where it stopped before: nothing, or a name that is too long. -/
theorem existingFile_of_astray {t t' : Node} {path name : String} {above : List String}
    (hroot : t'.kind = .directory) (hdots : ".." ∉ Path.pieces path)
    (hmade : DirectoriesMade (location path) t t') (hproper : Path.Proper path)
    (hpieces : Path.pieces path = above ++ [name])
    (hastray : DirectoriesMade.Astray t (walk t' [] above)) :
    existingFile t' path = .error .noEntry ∨ existingFile t' path = .error .nameTooLong := by
  have hlocate : locate t' path = _ := locate_of_walk _ hproper hpieces
  rw [existingFile_eq]
  cases hwalk : walk t' [] above with
  | error e =>
    rw [hwalk] at hastray hlocate
    rw [hlocate]
    cases hastray with
    | missing => exact .inl rfl
    | tooLong => exact .inr rfl
  | ok there =>
    rw [hwalk] at hastray hlocate
    have hfound : locate t' path = .ok (placeIn there name (Path.endsInSlash path)) := hlocate
    have hnames := locate_names hdots hfound
    have hmissing : t.view there = none := by
      cases hastray with
      | there h => exact h
    rw [hfound]
    by_cases hdot : name = "."
    · -- the path names the directory itself, which was missing and is not above its own place
      subst hdot
      have hthere : there = location path := hnames
      have hplace := hmade.view_place
      rw [← hthere, hmissing] at hplace
      have hdirectory : t'.view there = some .directory :=
        walk_view (by rw [Node.view_nil, hroot]) hwalk
      rw [hplace] at hdirectory
      cases hdirectory
    · have hname : name ≠ ".." := by
        rintro rfl
        exact hdots (by rw [hpieces]; simp)
      have hentry := placeIn_entry there (Path.endsInSlash path) hdot hname
      rw [hentry] at hnames
      have hview : t'.view (there ++ [name]) = none := by
        have hplace := hmade.view_place
        rw [← hnames] at hplace
        refine hplace.trans (Node.view_append_eq_none ?_ name [])
        rw [hmissing]
        exact (Option.some_ne_none _).symm
      simp only [hentry, hview]
      by_cases hlong : maxNameBytes < name.utf8ByteSize
      · rw [if_pos hlong]
        exact .inr rfl
      · rw [if_neg hlong]
        exact .inl rfl

/-- Reading after directories were made gives what it gave before, or a name is now seen to be too
long. -/
theorem read_of_directoriesMade {t t' : Node} {path : String} (hroot : t'.kind = .directory)
    (hdots : ".." ∉ Path.pieces path) (hmade : DirectoriesMade (location path) t t') :
    read t' path = read t path ∨
      read t path = .error .noEntry ∧ read t' path = .error .nameTooLong := by
  have hsame (hlocate : locate t' path = locate t path) : read t' path = read t path := by
    unfold read
    rw [existingFile_congr hdots hlocate hmade.view_place]
  by_cases hproper : Path.Proper path
  · rcases List.eq_nil_or_concat' (Path.pieces path) with hnil | ⟨above, name, hpieces⟩
    · exact .inl (hsame (by rw [locate_of_nil _ hproper hnil, locate_of_nil _ hproper hnil]))
    · have habove : ".." ∉ above := by
        intro hmem
        exact hdots (by rw [hpieces]; exact List.mem_append_left _ hmem)
      have hplace : [] ++ above.filter (· != ".") <+: location path := by
        unfold location
        rw [hpieces, List.filter_append]
        exact List.prefix_append _ _
      rcases hmade.walk_eq habove hplace with hwalk | ⟨hmissing, hastray⟩
      · refine .inl (hsame ?_)
        rw [locate_of_walk _ hproper hpieces, locate_of_walk _ hproper hpieces, hwalk]
      · have hbefore := read_of_walk_error hproper hpieces hmissing
        rcases existingFile_of_astray hroot hdots hmade hproper hpieces hastray with hafter | hafter
        · exact .inl (by rw [hbefore, existingFile_eq_error hafter])
        · exact .inr ⟨hbefore, existingFile_eq_error hafter⟩
  · obtain ⟨e, he⟩ := locate_of_not_proper hproper
    exact .inl (hsame (by rw [he, he]))

end Tree

end VectorBench
