import VectorBench.Proofs.Files.Walk
import Mathlib.Data.String.Basic

/-!
# Paths above a path

The paths of the directories that a path is in are spelled from its own names, so they lead to
prefixes of its location, and they are proper when the path is.

    path' ∈ ancestors parent → location path' <+: (location path).dropLast
                                          if parent is the parent of path   (location_of_mem_ancestors)
-/

namespace VectorBench.Path

/-! ## Text split at slashes -/

theorem splitOn_slash_cons (chars : List Char) :
    ('/' :: chars).splitOn '/' = [] :: chars.splitOn '/' :=
  List.splitOn_append_cons_self [] chars

theorem not_mem_of_mem_splitOn {chars piece : List Char} (h : piece ∈ chars.splitOn '/') :
    '/' ∉ piece := by
  induction chars generalizing piece with
  | nil =>
    rw [List.splitOn_nil, List.mem_singleton] at h
    subst h
    exact List.not_mem_nil
  | cons c chars ih =>
    rw [List.splitOn_cons_eq_if_modifyHead] at h
    by_cases hc : c = '/'
    · rw [if_pos (by simpa using hc)] at h
      rcases List.mem_cons.1 h with rfl | h
      · exact List.not_mem_nil
      · exact ih h
    · rw [if_neg (by simpa using hc)] at h
      obtain ⟨first, rest, hsplit⟩ := List.exists_cons_of_ne_nil (List.splitOn_ne_nil '/' chars)
      rw [hsplit, List.modifyHead_cons] at h
      rw [hsplit] at ih
      rcases List.mem_cons.1 h with rfl | h
      · intro hmem
        rcases List.mem_cons.1 hmem with he | hmem
        · exact hc he.symm
        · exact ih (List.mem_cons_self ..) hmem
      · exact ih (List.mem_cons_of_mem _ h)

/-- More characters at the end, none of them a slash, make the last piece longer. -/
theorem splitOn_append (chars : List Char) {suffix : List Char} (h : '/' ∉ suffix) :
    ∃ above last, chars.splitOn '/' = above ++ [last] ∧
      (chars ++ suffix).splitOn '/' = above ++ [last ++ suffix] := by
  induction chars with
  | nil => exact ⟨[], [], rfl, List.splitOn_eq_singleton h⟩
  | cons c chars ih =>
    obtain ⟨above, last, hsplit, hsplit'⟩ := ih
    rw [List.cons_append, List.splitOn_cons_eq_if_modifyHead, List.splitOn_cons_eq_if_modifyHead,
      hsplit, hsplit']
    by_cases hc : c = '/'
    · rw [if_pos (by simpa using hc), if_pos (by simpa using hc)]
      exact ⟨[] :: above, last, rfl, rfl⟩
    · rw [if_neg (by simpa using hc), if_neg (by simpa using hc)]
      cases above with
      | nil => exact ⟨[], c :: last, rfl, rfl⟩
      | cons first above => exact ⟨(c :: first) :: above, last, rfl, rfl⟩

theorem intercalate_sublist (sep : List Char) {l l' : List (List Char)} (h : l.Sublist l') :
    (sep.intercalate l).Sublist (sep.intercalate l') := by
  induction h with
  | slnil => exact List.Sublist.refl _
  | @cons l l' a hl ih =>
    by_cases hl' : l' = []
    · subst hl'
      rw [List.sublist_nil.1 hl]
      exact List.nil_sublist _
    · rw [List.intercalate_cons_of_ne_nil hl']
      exact ih.trans (List.sublist_append_right _ _)
  | @cons_cons l l' a hl ih =>
    by_cases hnil : l = []
    · subst hnil
      rw [List.intercalate_singleton]
      by_cases hl' : l' = []
      · subst hl'
        rw [List.intercalate_singleton]
      · rw [List.intercalate_cons_of_ne_nil hl', List.append_assoc]
        exact List.sublist_append_left _ _
    · have hl' : l' ≠ [] := by
        rintro rfl
        exact hnil (List.sublist_nil.1 hl)
      rw [List.intercalate_cons_of_ne_nil hnil, List.intercalate_cons_of_ne_nil hl']
      exact (List.Sublist.refl _).append ih

/-! ## Names -/

/-- Text that can stand between slashes. -/
structure IsName (name : String) : Prop where
  nonempty : name ≠ ""
  noSlash : '/' ∉ name.toList

theorem isName_of_mem_pieces {path name : String} (h : name ∈ pieces path) : IsName name := by
  unfold pieces at h
  obtain ⟨piece, hpiece, rfl⟩ := List.mem_map.1 h
  obtain ⟨hmem, hnonempty⟩ := List.mem_filter.1 hpiece
  constructor
  · intro he
    have hnil : piece = [] := by simpa using he
    subst hnil
    exact absurd hnonempty (by decide)
  · rw [String.toList_ofList]
    exact not_mem_of_mem_splitOn hmem

theorem toList_pieces (path : String) :
    (pieces path).map String.toList =
      (path.toList.splitOn '/').filter fun piece => !piece.isEmpty := by
  unfold pieces
  rw [List.map_map]
  exact (List.map_congr_left fun piece _ => String.toList_ofList).trans (List.map_id _)

theorem filter_toList_isName {l : List String} (h : ∀ name ∈ l, IsName name) :
    (l.map String.toList).filter (fun piece => !piece.isEmpty) = l.map String.toList := by
  rw [List.filter_eq_self]
  intro piece hpiece
  obtain ⟨name, hname, rfl⟩ := List.mem_map.1 hpiece
  have hne := (h name hname).nonempty
  rw [← String.toList_eq_nil_iff.ne] at hne
  simpa using hne

theorem splitOn_intercalate_isName {l : List String} (h : ∀ name ∈ l, IsName name) (hl : l ≠ []) :
    (['/'].intercalate (l.map String.toList)).splitOn '/' = l.map String.toList := by
  refine List.splitOn_intercalate '/' ?_ (by simpa using hl)
  intro piece hpiece
  obtain ⟨name, hname, rfl⟩ := List.mem_map.1 hpiece
  exact (h name hname).noSlash

theorem toList_ofNames (absolute : Bool) (l : List String) :
    (ofNames absolute l).toList =
      (if absolute then ['/'] else []) ++ ['/'].intercalate (l.map String.toList) := by
  unfold ofNames
  rw [String.toList_append, String.toList_intercalate]
  cases absolute <;> rfl

theorem pieces_ofNames (absolute : Bool) {l : List String} (h : ∀ name ∈ l, IsName name) :
    pieces (ofNames absolute l) = l := by
  have hinj : Function.Injective (List.map String.toList) :=
    List.map_injective_iff.2 fun _ _ => String.toList_inj.1
  apply hinj
  rw [toList_pieces, toList_ofNames]
  by_cases hl : l = []
  · subst hl
    cases absolute <;> rfl
  · have hsplit := splitOn_intercalate_isName h hl
    cases absolute with
    | false =>
      show ((['/'].intercalate (l.map String.toList)).splitOn '/').filter _ = _
      rw [hsplit]
      exact filter_toList_isName h
    | true =>
      show (('/' :: ['/'].intercalate (l.map String.toList)).splitOn '/').filter _ = _
      rw [splitOn_slash_cons, hsplit, List.filter_cons_of_neg (by decide)]
      exact filter_toList_isName h

/-- Names as a path keeps them: without dots, except for one at the start of a relative path. -/
structure Normal (absolute : Bool) (l : List String) : Prop where
  isName : ∀ name ∈ l, IsName name
  tail : ∀ name ∈ l.tail, name ≠ "."
  head : absolute = true → l.head? ≠ some "."

theorem Normal.of_append {absolute : Bool} {above below : List String}
    (h : Normal absolute (above ++ below)) : Normal absolute above where
  isName name hname := h.isName name (List.mem_append_left _ hname)
  tail name hname := by
    cases above with
    | nil => cases hname
    | cons first above => exact h.tail name (List.mem_append_left _ hname)
  head habsolute := by
    cases above with
    | nil => exact (Option.some_ne_none _).symm
    | cons first above => exact h.head habsolute

theorem mem_tail_filter {l : List String} {name : String}
    (h : name ∈ l.filter (· != ".")) : name ≠ "." := by
  have hne := (List.mem_filter.1 h).2
  simpa using hne

/-- What the names of a path are, by its pieces. -/
theorem names_eq {path first : String} {rest : List String} (h : pieces path = first :: rest) :
    names path =
      if first = "." ∧ isAbsolute path = true then rest.filter (· != ".")
      else first :: rest.filter (· != ".") := by
  unfold names
  rw [h]
  by_cases hfirst : first = "."
  · cases habsolute : isAbsolute path <;> simp [hfirst]
  · simp [hfirst]

theorem names_nil {path : String} (h : pieces path = []) : names path = [] := by
  unfold names
  rw [h]

theorem names_sublist (path : String) : (names path).Sublist (pieces path) := by
  cases hpieces : pieces path with
  | nil =>
    rw [names_nil hpieces]
  | cons first rest =>
    rw [names_eq hpieces]
    split
    · exact List.filter_sublist.cons first
    · exact List.filter_sublist.cons_cons first

theorem names_normal (path : String) : Normal (isAbsolute path) (names path) := by
  refine ⟨fun name hname => isName_of_mem_pieces ((names_sublist path).subset hname), ?_, ?_⟩
  · intro name hname
    cases hpieces : pieces path with
    | nil =>
      rw [names_nil hpieces] at hname
      cases hname
    | cons first rest =>
      rw [names_eq hpieces] at hname
      split at hname
      · exact mem_tail_filter (List.mem_of_mem_tail hname)
      · exact mem_tail_filter hname
  · intro habsolute hhead
    cases hpieces : pieces path with
    | nil =>
      rw [names_nil hpieces] at hhead
      cases hhead
    | cons first rest =>
      rw [names_eq hpieces] at hhead
      split at hhead
      · exact mem_tail_filter (List.mem_of_head? hhead) rfl
      · rename_i hfirst
        cases hhead
        exact hfirst ⟨rfl, habsolute⟩

/-- Without their dots, the names are the location. -/
theorem filter_names (path : String) : (names path).filter (· != ".") = location path := by
  unfold location
  cases hpieces : pieces path with
  | nil => rw [names_nil hpieces]
  | cons first rest =>
    rw [names_eq hpieces]
    split
    · rename_i hfirst
      rw [List.filter_filter, hfirst.1, List.filter_cons_of_neg (by decide)]
      simp
    · rw [List.filter_cons, List.filter_cons, List.filter_filter]
      simp

theorem isAbsolute_ofNames {absolute : Bool} {l : List String} (h : ∀ name ∈ l, IsName name) :
    isAbsolute (ofNames absolute l) = absolute := by
  unfold isAbsolute
  rw [toList_ofNames]
  cases absolute with
  | true => rfl
  | false =>
    cases l with
    | nil => rfl
    | cons name rest =>
      have hname := h name (List.mem_cons_self ..)
      cases hchars : name.toList with
      | nil => exact absurd (String.toList_eq_nil_iff.1 hchars) hname.nonempty
      | cons c chars =>
        have hc : c ≠ '/' := by
          rintro rfl
          exact hname.noSlash (by rw [hchars]; exact List.mem_cons_self ..)
        rw [List.map_cons, hchars, List.intercalate_cons_cons_left]
        simpa using hc

theorem names_ofNames {absolute : Bool} {l : List String} (h : Normal absolute l) :
    names (ofNames absolute l) = l := by
  have hpieces := pieces_ofNames absolute h.isName
  cases l with
  | nil => exact names_nil hpieces
  | cons first rest =>
    have hrest : rest.filter (· != ".") = rest := by
      rw [List.filter_eq_self]
      intro name hname
      simpa using h.tail name hname
    rw [names_eq hpieces, isAbsolute_ofNames h.isName, hrest, if_neg]
    rintro ⟨rfl, habsolute⟩
    exact h.head habsolute rfl

/-! ## Ancestors -/

theorem parent?_eq {path last : String} {all : List String} (h : names path = all ++ [last]) :
    parent? path = some (ofNames (isAbsolute path) all) := by
  unfold parent?
  rw [h]
  cases all with
  | nil => rfl
  | cons first all =>
    show some (ofNames (isAbsolute path) ((first :: all) ++ [last]).dropLast) = _
    rw [List.dropLast_concat]

/-- The paths of the directories that a path is in are spelled with its first names. -/
theorem mem_ancestors {path parent above : String} (hparent : parent? path = some parent)
    (h : above ∈ ancestors parent) :
    ∃ first rest, names path = first ++ rest ∧ first ≠ [] ∧ rest ≠ [] ∧
      above = ofNames (isAbsolute path) first := by
  rcases List.eq_nil_or_concat' (names path) with hnil | ⟨all, last, hnames⟩
  · unfold parent? at hparent
    rw [hnil] at hparent
    cases hparent
  rw [parent?_eq hnames] at hparent
  cases hparent
  have hnormal : Normal (isAbsolute path) all := by
    have hall := names_normal path
    rw [hnames] at hall
    exact hall.of_append
  unfold ancestors at h
  simp only [names_ofNames hnormal, isAbsolute_ofNames hnormal.isName] at h
  obtain ⟨i, hi, rfl⟩ := List.mem_map.1 h
  rw [List.mem_range] at hi
  refine ⟨all.take (all.length - i), all.drop (all.length - i) ++ [last], ?_, ?_, ?_, rfl⟩
  · rw [← List.append_assoc, List.take_append_drop, hnames]
  · intro hnil
    rw [List.take_eq_nil_iff] at hnil
    rcases hnil with hzero | rfl
    · omega
    · exact absurd hi (by simp)
  · simp

/-- What is spelled with names of a path is a part of its text. -/
theorem ofNames_sublist {path : String} {first rest : List String}
    (h : names path = first ++ rest) :
    (ofNames (isAbsolute path) first).toList.Sublist path.toList := by
  have hpieces : first.Sublist (pieces path) :=
    (List.sublist_append_left first rest).trans (h ▸ names_sublist path)
  have hmap := hpieces.map String.toList
  rw [toList_pieces] at hmap
  rw [toList_ofNames]
  cases habsolute : isAbsolute path with
  | false =>
    have hsub := intercalate_sublist ['/'] (hmap.trans List.filter_sublist)
    rw [List.intercalate_splitOn] at hsub
    exact hsub
  | true =>
    unfold isAbsolute at habsolute
    obtain ⟨chars, hchars⟩ := List.head?_eq_some_iff.1 (beq_iff_eq.1 habsolute)
    rw [hchars, splitOn_slash_cons, List.filter_cons_of_neg (by decide)] at hmap
    have hsub := intercalate_sublist ['/'] (hmap.trans List.filter_sublist)
    rw [List.intercalate_splitOn] at hsub
    rw [hchars]
    exact hsub.cons_cons '/'

section Ancestor

variable {path parent above : String} (hparent : parent? path = some parent)
  (hmem : above ∈ ancestors parent)

include hparent hmem

theorem location_of_mem_ancestors : location above <+: (location path).dropLast := by
  obtain ⟨first, rest, hnames, hfirst, hrest, rfl⟩ := mem_ancestors hparent hmem
  have hnormal := names_normal path
  rw [hnames] at hnormal
  unfold location
  rw [pieces_ofNames _ hnormal.of_append.isName]
  show _ <+: (location path).dropLast
  -- the last name is not the first, so it is not a dot
  obtain ⟨between, last, rfl⟩ := (List.eq_nil_or_concat' rest).resolve_left hrest
  have hlast : last ≠ "." := by
    refine hnormal.tail last ?_
    cases first with
    | nil => exact absurd rfl hfirst
    | cons name first => simp
  rw [← filter_names path, hnames, ← List.append_assoc, List.filter_append, List.filter_append,
    List.filter_cons_of_pos (by simpa using hlast), List.filter_nil, List.dropLast_concat]
  exact List.prefix_append _ _

theorem dots_of_mem_ancestors (hdots : ".." ∉ pieces path) : ".." ∉ pieces above := by
  obtain ⟨first, rest, hnames, -, -, rfl⟩ := mem_ancestors hparent hmem
  have hnormal := names_normal path
  rw [hnames] at hnormal
  rw [pieces_ofNames _ hnormal.of_append.isName]
  intro hdot
  have hname : ".." ∈ names path := by
    rw [hnames]
    exact List.mem_append_left _ hdot
  exact hdots ((names_sublist path).subset hname)

theorem sublist_of_mem_ancestors : above.toList.Sublist path.toList := by
  obtain ⟨first, rest, hnames, -, -, rfl⟩ := mem_ancestors hparent hmem
  exact ofNames_sublist hnames

theorem nonempty_of_mem_ancestors : above ≠ "" := by
  obtain ⟨first, rest, hnames, hfirst, -, rfl⟩ := mem_ancestors hparent hmem
  have hnormal := names_normal path
  rw [hnames] at hnormal
  intro hempty
  have hpieces := pieces_ofNames (isAbsolute path) hnormal.of_append.isName
  rw [hempty] at hpieces
  exact hfirst hpieces.symm

end Ancestor

/-- A part of the text of a proper path is a proper path. -/
theorem Proper.of_sublist {path part : String} (h : Proper path) (hne : part ≠ "")
    (hsub : part.toList.Sublist path.toList) : Proper part where
  noNul hmem := h.noNul (hsub.subset hmem)
  nonempty := hne
  short := by
    have hle := String.utf8Len_le_of_sublist hsub
    rw [String.utf8Len_toList, String.utf8Len_toList] at hle
    have hshort := h.short
    omega

end VectorBench.Path
