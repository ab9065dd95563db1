import VectorBench.Proofs.Files.View
import Mathlib.Data.List.Basic

/-!
# Where a path leads

A walk asks a tree only for what is at the lists of names that it goes through, and without pieces
of two dots these are the prefixes of one list, the location of the path.  So what a path names does
not depend on the tree, only whether the walk gets there, and a walk that does still does when there
are more directories.

    locate t path = .ok place → place.names = Path.location path                     (locate_names)
    locate t path = .ok place → locate t' path = .ok place   if all directories of t are in t'
                                                                                    (locate_of_le)
-/

namespace VectorBench

/-- The names that a path goes through, when none of its pieces is two dots. -/
def Path.location (path : String) : List String := (Path.pieces path).filter (· != ".")

/-- A path that is not refused for what it is. -/
structure Path.Proper (path : String) : Prop where
  noNul : '\x00' ∉ path.toList
  nonempty : path ≠ ""
  short : path.utf8ByteSize ≤ maxPathBytes

theorem Path.proper_iff {path : String} :
    Path.Proper path ↔
      ¬ path.toList.contains '\x00' = true ∧ ¬ path.isEmpty = true ∧
        ¬ maxPathBytes < path.utf8ByteSize := by
  rw [List.contains_iff_mem, String.isEmpty_iff, Nat.not_lt]
  exact ⟨fun h => ⟨h.noNul, h.nonempty, h.short⟩, fun ⟨hnul, hempty, hshort⟩ =>
    ⟨hnul, hempty, hshort⟩⟩

/-! ## Steps -/

/-- A step of a walk by what is there. -/
theorem walkStep_eq (t : Node) (here : List String) {name : String} (hdot : name ≠ ".")
    (hdots : name ≠ "..") :
    walkStep t here name =
      if maxNameBytes < name.utf8ByteSize then .error .nameTooLong
      else match t.view (here ++ [name]) with
        | none => .error .noEntry
        | some (.file _) => .error .notDirectory
        | some .directory => .ok (here ++ [name]) := by
  unfold walkStep lookUp Node.view
  rw [if_neg (by simpa using hdot), if_neg (by simpa using hdots)]
  by_cases hlong : maxNameBytes < name.utf8ByteSize
  · rw [if_pos hlong, if_pos hlong]
  · rw [if_neg hlong, if_neg hlong]
    cases t.get? (here ++ [name]) with
    | none => rfl
    | some node => cases node <;> rfl

theorem walkStep_dot (t : Node) (here : List String) : walkStep t here "." = .ok here := rfl

theorem walkStep_dots (t : Node) (here : List String) : walkStep t here ".." = .ok here.dropLast := rfl

/-- A step to a name succeeds where that name is short enough and a directory. -/
theorem walkStep_eq_ok_iff {t : Node} {here there : List String} {name : String} (hdot : name ≠ ".")
    (hdots : name ≠ "..") :
    walkStep t here name = .ok there ↔
      name.utf8ByteSize ≤ maxNameBytes ∧ t.view (here ++ [name]) = some .directory ∧
        there = here ++ [name] := by
  rw [walkStep_eq t here hdot hdots]
  by_cases hlong : maxNameBytes < name.utf8ByteSize
  · rw [if_pos hlong]
    constructor
    · intro h; cases h
    · rintro ⟨hshort, -, -⟩
      omega
  · rw [if_neg hlong]
    have hshort : name.utf8ByteSize ≤ maxNameBytes := by omega
    cases hview : t.view (here ++ [name]) with
    | none => simp
    | some k =>
      cases k with
      | file bytes => simp
      | directory => simp [hshort, eq_comm]

/-- A step from a directory ends in one. -/
theorem walkStep_view {t : Node} {here there : List String} {name : String}
    (hhere : t.view here = some .directory) (h : walkStep t here name = .ok there) :
    t.view there = some .directory := by
  by_cases hdot : name = "."
  · subst hdot
    rw [walkStep_dot] at h
    cases h
    exact hhere
  by_cases hdots : name = ".."
  · subst hdots
    rw [walkStep_dots] at h
    cases h
    rcases List.eq_nil_or_concat' here with rfl | ⟨above, last, rfl⟩
    · exact hhere
    · rw [List.dropLast_concat]
      have hsome : t.view (above ++ [last]) ≠ none := by
        rw [hhere]
        exact Option.some_ne_none _
      exact Node.view_of_append hsome
  obtain ⟨-, hview, rfl⟩ := (walkStep_eq_ok_iff hdot hdots).1 h
  exact hview

/-- All directories of one tree are directories of another. -/
def DirectoriesLE (t t' : Node) : Prop :=
  ∀ names, t.view names = some .directory → t'.view names = some .directory

theorem walkStep_of_le {t t' : Node} (hle : DirectoriesLE t t') {here there : List String}
    {name : String} (h : walkStep t here name = .ok there) : walkStep t' here name = .ok there := by
  by_cases hdot : name = "."
  · subst hdot; exact h
  by_cases hdots : name = ".."
  · subst hdots; exact h
  obtain ⟨hshort, hview, hthere⟩ := (walkStep_eq_ok_iff hdot hdots).1 h
  exact (walkStep_eq_ok_iff hdot hdots).2 ⟨hshort, hle _ hview, hthere⟩

/-! ## Walks -/

theorem walk_cons_eq_ok_iff {t : Node} {here there : List String} {name : String}
    {rest : List String} :
    walk t here (name :: rest) = .ok there ↔
      ∃ mid, walkStep t here name = .ok mid ∧ walk t mid rest = .ok there := by
  rw [walk]
  cases hstep : walkStep t here name with
  | error e => simp
  | ok mid => simp

theorem walk_append_eq_ok_iff {t : Node} {here there : List String} {first rest : List String} :
    walk t here (first ++ rest) = .ok there ↔
      ∃ mid, walk t here first = .ok mid ∧ walk t mid rest = .ok there := by
  induction first generalizing here with
  | nil => simp [walk]
  | cons name first ih =>
    rw [List.cons_append, walk_cons_eq_ok_iff]
    constructor
    · rintro ⟨next, hstep, hwalk⟩
      obtain ⟨mid, hfirst, hrest⟩ := ih.1 hwalk
      exact ⟨mid, walk_cons_eq_ok_iff.2 ⟨next, hstep, hfirst⟩, hrest⟩
    · rintro ⟨mid, hwalk, hrest⟩
      obtain ⟨next, hstep, hfirst⟩ := walk_cons_eq_ok_iff.1 hwalk
      exact ⟨next, hstep, ih.2 ⟨mid, hfirst, hrest⟩⟩

/-- Dots are passed without a step. -/
theorem walk_filter (t : Node) (here : List String) (pieces : List String) :
    walk t here (pieces.filter (· != ".")) = walk t here pieces := by
  induction pieces generalizing here with
  | nil => rfl
  | cons name rest ih =>
    by_cases hdot : name = "."
    · subst hdot
      rw [List.filter_cons_of_neg (by decide), ih]
      rfl
    · rw [List.filter_cons_of_pos (by simpa using hdot), walk, walk]
      cases walkStep t here name with
      | error e => rfl
      | ok mid => exact ih mid

theorem walk_names {t : Node} {here there pieces : List String} (hdots : ".." ∉ pieces)
    (h : walk t here pieces = .ok there) : there = here ++ pieces.filter (· != ".") := by
  induction pieces generalizing here with
  | nil =>
    cases h
    exact (List.append_nil _).symm
  | cons name rest ih =>
    obtain ⟨hname, hrest⟩ := not_or.1 (fun hor => hdots (List.mem_cons.2 hor))
    obtain ⟨mid, hstep, hwalk⟩ := walk_cons_eq_ok_iff.1 h
    rw [ih hrest hwalk]
    by_cases hdot : name = "."
    · subst hdot
      cases hstep
      rw [List.filter_cons_of_neg (by decide)]
    · obtain ⟨-, -, rfl⟩ := (walkStep_eq_ok_iff hdot fun he => hname he.symm).1 hstep
      rw [List.filter_cons_of_pos (by simpa using hdot), List.append_assoc, List.singleton_append]

theorem walk_view {t : Node} {here there pieces : List String}
    (hhere : t.view here = some .directory) (h : walk t here pieces = .ok there) :
    t.view there = some .directory := by
  induction pieces generalizing here with
  | nil =>
    cases h
    exact hhere
  | cons name rest ih =>
    obtain ⟨mid, hstep, hwalk⟩ := walk_cons_eq_ok_iff.1 h
    exact ih (walkStep_view hhere hstep) hwalk

theorem walk_of_le {t t' : Node} (hle : DirectoriesLE t t') {here there pieces : List String}
    (h : walk t here pieces = .ok there) : walk t' here pieces = .ok there := by
  induction pieces generalizing here with
  | nil => exact h
  | cons name rest ih =>
    obtain ⟨mid, hstep, hwalk⟩ := walk_cons_eq_ok_iff.1 h
    exact walk_cons_eq_ok_iff.2 ⟨mid, walkStep_of_le hle hstep, ih hwalk⟩

/-! ## Places -/

def Place.names : Place → List String
  | .entry dir name _ => dir ++ [name]
  | .directory dir => dir

/-- A path that is not proper is refused in every tree. -/
theorem locate_of_not_proper {path : String} (h : ¬ Path.Proper path) :
    ∃ e, ∀ t, locate t path = .error e := by
  unfold locate
  by_cases hnul : path.toList.contains '\x00' = true
  · exact ⟨.nulInPath, fun _ => if_pos hnul⟩
  by_cases hempty : path.isEmpty = true
  · exact ⟨.noEntry, fun _ => by rw [if_neg hnul, if_pos hempty]⟩
  by_cases hlong : maxPathBytes < path.utf8ByteSize
  · exact ⟨.nameTooLong, fun _ => by rw [if_neg hnul, if_neg hempty, if_pos hlong]⟩
  exact absurd (Path.proper_iff.2 ⟨hnul, hempty, hlong⟩) h

/-- A path without pieces names the root. -/
theorem locate_of_nil {path : String} (t : Node) (hproper : Path.Proper path)
    (hpieces : Path.pieces path = []) : locate t path = .ok (.directory []) := by
  obtain ⟨hnul, hempty, hlong⟩ := Path.proper_iff.1 hproper
  unfold locate
  rw [if_neg hnul, if_neg hempty, if_neg hlong, hpieces]
  rfl

/-- A path is walked to its last piece. -/
theorem locate_of_walk {path name : String} {above : List String} (t : Node)
    (hproper : Path.Proper path) (hpieces : Path.pieces path = above ++ [name]) :
    locate t path = (walk t [] above).map fun dir => placeIn dir name (Path.endsInSlash path) := by
  obtain ⟨hnul, hempty, hlong⟩ := Path.proper_iff.1 hproper
  unfold locate
  rw [if_neg hnul, if_neg hempty, if_neg hlong, hpieces, List.getLast?_concat,
    List.dropLast_concat]
  cases walk t [] above with
  | error e => rfl
  | ok dir => rfl

/-- A place is located where the path is proper and the walk to its last piece succeeds. -/
theorem locate_eq_ok_iff {t : Node} {path : String} {place : Place} :
    locate t path = .ok place ↔
      Path.Proper path ∧
        (Path.pieces path = [] ∧ place = .directory [] ∨
          ∃ above name dir, Path.pieces path = above ++ [name] ∧ walk t [] above = .ok dir ∧
            place = placeIn dir name (Path.endsInSlash path)) := by
  constructor
  · intro h
    by_cases hproper : Path.Proper path
    · refine ⟨hproper, ?_⟩
      rcases List.eq_nil_or_concat' (Path.pieces path) with hnil | ⟨above, name, hpieces⟩
      · rw [locate_of_nil t hproper hnil] at h
        cases h
        exact .inl ⟨hnil, rfl⟩
      · rw [locate_of_walk t hproper hpieces] at h
        cases hwalk : walk t [] above with
        | error e => rw [hwalk] at h; cases h
        | ok dir =>
          rw [hwalk] at h
          cases h
          exact .inr ⟨above, name, dir, hpieces, hwalk, rfl⟩
    · obtain ⟨e, he⟩ := locate_of_not_proper hproper
      rw [he] at h
      cases h
  · rintro ⟨hproper, ⟨hnil, rfl⟩ | ⟨above, name, dir, hpieces, hwalk, rfl⟩⟩
    · exact locate_of_nil t hproper hnil
    · rw [locate_of_walk t hproper hpieces, hwalk]
      rfl

theorem placeIn_eq_entry_iff {dir dir' : List String} {name name' : String} {slash slash' : Bool} :
    placeIn dir name slash = .entry dir' name' slash' ↔
      name ≠ "." ∧ name ≠ ".." ∧ dir = dir' ∧ name = name' ∧ slash = slash' := by
  unfold placeIn
  by_cases hdot : name = "."
  · simp [hdot]
  by_cases hdots : name = ".."
  · simp [hdots]
  rw [if_neg (by simpa using hdot), if_neg (by simpa using hdots)]
  simp [hdot, hdots]

theorem placeIn_entry (dir : List String) {name : String} (slash : Bool) (hdot : name ≠ ".")
    (hdots : name ≠ "..") : placeIn dir name slash = .entry dir name slash :=
  placeIn_eq_entry_iff.2 ⟨hdot, hdots, rfl, rfl, rfl⟩

/-- What a path names does not depend on the tree. -/
theorem locate_names {t : Node} {path : String} {place : Place} (hdots : ".." ∉ Path.pieces path)
    (h : locate t path = .ok place) : place.names = Path.location path := by
  unfold Path.location
  obtain ⟨-, ⟨hnil, rfl⟩ | ⟨above, name, dir, hpieces, hwalk, rfl⟩⟩ := locate_eq_ok_iff.1 h
  · rw [hnil]
    rfl
  · rw [hpieces] at hdots ⊢
    have hname : name ≠ ".." := by
      rintro rfl
      exact hdots (by simp)
    have habove : ".." ∉ above := fun hmem => hdots (List.mem_append_left _ hmem)
    have hdir := walk_names habove hwalk
    rw [List.nil_append] at hdir
    rw [List.filter_append, ← hdir]
    by_cases hdot : name = "."
    · subst hdot
      exact (List.append_nil dir).symm
    · rw [placeIn_entry dir _ hdot hname, List.filter_cons_of_pos (by simpa using hdot)]
      rfl

theorem locate_of_le {t t' : Node} (hle : DirectoriesLE t t') {path : String} {place : Place}
    (h : locate t path = .ok place) : locate t' path = .ok place := by
  obtain ⟨hproper, hnil | ⟨above, name, dir, hpieces, hwalk, hplace⟩⟩ := locate_eq_ok_iff.1 h
  · exact locate_eq_ok_iff.2 ⟨hproper, .inl hnil⟩
  · exact locate_eq_ok_iff.2
      ⟨hproper, .inr ⟨above, name, dir, hpieces, walk_of_le hle hwalk, hplace⟩⟩

/-- The directory of an entry that is located is there. -/
theorem view_of_locate {t : Node} {path : String} {dir : List String} {name : String} {slash : Bool}
    (hroot : t.kind = .directory) (h : locate t path = .ok (.entry dir name slash)) :
    t.view dir = some .directory := by
  obtain ⟨-, ⟨-, hplace⟩ | ⟨above, last, dir', -, hwalk, hplace⟩⟩ := locate_eq_ok_iff.1 h
  · cases hplace
  · obtain ⟨-, -, rfl, -, -⟩ := placeIn_eq_entry_iff.1 hplace.symm
    refine walk_view ?_ hwalk
    rw [Node.view_nil, hroot]

end VectorBench
