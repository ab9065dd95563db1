import VectorBench.Files.Tree
import Mathlib.Logic.Function.Basic

/-!
# What is where in a file tree

A tree as a map from lists of names to what is there: a file with its bytes, a directory, or
nothing.  What a directory holds is told by the lists that go through it, so changing one entry
changes the map at one list.

    (n.setEntry dir name c).view = Function.update n.view (dir ++ [name]) (c.map Node.kind)
                                                                                   (view_setEntry)
-/

namespace VectorBench

/-- What a node is, without what is below it. -/
inductive Kind where
  | file (bytes : Bytes)
  | directory
  deriving DecidableEq

namespace Node

def kind : Node → Kind
  | file bytes => .file bytes
  | directory _ => .directory

/-- What is at the end of a list of names. -/
def view (n : Node) (names : List String) : Option Kind := (n.get? names).map kind

/-! ## Entries of one directory -/

theorem child?_file (bytes : Bytes) (name : String) : (file bytes).child? name = none := rfl

/-- A node with a child is a directory. -/
theorem kind_of_child? {n c : Node} {name : String} (h : n.child? name = some c) :
    n.kind = .directory := by
  cases n with
  | file bytes => rw [child?_file] at h; cases h
  | directory entries => rfl

theorem lookup_filter_ne (name other : String) (entries : List (String × Node)) :
    (entries.filter fun e => e.1 != name).lookup other =
      if other = name then none else entries.lookup other := by
  induction entries with
  | nil => simp
  | cons e rest ih =>
    obtain ⟨first, node⟩ := e
    by_cases hname : first = name
    · subst hname
      rw [List.filter_cons_of_neg (by simp), ih]
      by_cases hother : other = first
      · rw [if_pos hother, if_pos hother]
      · rw [if_neg hother, if_neg hother, List.lookup_cons, beq_false_of_ne hother]
    · rw [List.filter_cons_of_pos (by simpa using hname), List.lookup_cons, List.lookup_cons, ih]
      by_cases hother : other = first
      · subst hother
        rw [beq_self_eq_true]
        exact (if_neg hname).symm
      · rw [beq_false_of_ne hother]

theorem child?_setChild (n : Node) (name other : String) (c : Option Node) :
    (n.setChild name c).child? other = if other = name then c else n.child? other := by
  cases c with
  | none => exact lookup_filter_ne name other n.entries
  | some node =>
    show ((name, node) :: n.entries.filter fun e => e.1 != name).lookup other = _
    rw [List.lookup_cons]
    by_cases hother : other = name
    · rw [if_pos hother, hother, beq_self_eq_true]
    · rw [if_neg hother, beq_false_of_ne hother]
      exact (lookup_filter_ne name other n.entries).trans (if_neg hother)

theorem kind_setChild (n : Node) (name : String) (c : Option Node) :
    (n.setChild name c).kind = .directory := by
  cases c <;> rfl

/-! ## Lists of names -/

theorem view_nil (n : Node) : n.view [] = some n.kind := rfl

theorem view_cons (n : Node) (name : String) (rest : List String) :
    n.view (name :: rest) = (n.child? name).bind fun c => c.view rest := by
  unfold view
  rw [get?]
  cases n.child? name <;> rfl

/-- Something is there only below directories. -/
theorem view_of_append {n : Node} {names : List String} {name : String} {rest : List String}
    (h : n.view (names ++ name :: rest) ≠ none) : n.view names = some .directory := by
  induction names generalizing n with
  | nil =>
    rw [List.nil_append, view_cons] at h
    cases hc : n.child? name with
    | none => rw [hc] at h; exact absurd rfl h
    | some c => rw [view_nil, kind_of_child? hc]
  | cons first above ih =>
    rw [List.cons_append, view_cons] at h
    rw [view_cons]
    cases hc : n.child? first with
    | none => rw [hc] at h; exact absurd rfl h
    | some c =>
      rw [hc] at h
      exact ih h

/-- Nothing is below what is not a directory. -/
theorem view_append_eq_none {n : Node} {names : List String} (h : n.view names ≠ some .directory)
    (name : String) (rest : List String) : n.view (names ++ name :: rest) = none := by
  by_cases hnone : n.view (names ++ name :: rest) = none
  · exact hnone
  · exact absurd (view_of_append hnone) h

/-! ## One entry changed -/

theorem kind_setEntry {n : Node} {dir : List String} (name : String) (c : Option Node)
    (hdir : n.view dir = some .directory) : (n.setEntry dir name c).kind = .directory := by
  cases dir with
  | nil => exact kind_setChild n name c
  | cons first rest =>
    rw [view_cons] at hdir
    cases hfirst : n.child? first with
    | none => rw [hfirst] at hdir; cases hdir
    | some below =>
      rw [setEntry, hfirst]
      exact kind_setChild n first _

/-- Below the entry there is what the new node holds. -/
theorem view_setEntry_below {n : Node} {dir : List String} (name : String) (c : Option Node)
    (rest : List String) (hdir : n.view dir = some .directory) :
    (n.setEntry dir name c).view (dir ++ name :: rest) = c.bind fun node => node.view rest := by
  induction dir generalizing n with
  | nil =>
    rw [List.nil_append, view_cons, setEntry, child?_setChild, if_pos rfl]
  | cons first above ih =>
    rw [view_cons] at hdir
    cases hfirst : n.child? first with
    | none => rw [hfirst] at hdir; cases hdir
    | some below =>
      rw [hfirst] at hdir
      rw [setEntry, hfirst, List.cons_append, view_cons]
      show (((n.setChild first (some (below.setEntry above name c))).child? first).bind _) = _
      rw [child?_setChild, if_pos rfl]
      exact ih hdir

/-- Away from the entry there is what was there. -/
theorem view_setEntry_away {n : Node} {dir : List String} {name : String} (c : Option Node)
    {names : List String} (hdir : n.view dir = some .directory) (haway : ¬ dir ++ [name] <+: names) :
    (n.setEntry dir name c).view names = n.view names := by
  induction dir generalizing n names with
  | nil =>
    cases names with
    | nil =>
      rw [view_nil] at hdir ⊢
      rw [view_nil, hdir, setEntry, kind_setChild]
    | cons other rest =>
      have hne : other ≠ name := by
        rintro rfl
        exact haway ⟨rest, rfl⟩
      rw [view_cons, view_cons, setEntry, child?_setChild, if_neg hne]
  | cons first above ih =>
    cases names with
    | nil =>
      have hn : n.view [] = some .directory := by
        have hsome : n.view ([] ++ first :: above) ≠ none := by
          rw [List.nil_append, hdir]
          exact Option.some_ne_none _
        exact view_of_append hsome
      rw [view_nil, kind_setEntry name c hdir, hn]
    | cons other rest =>
      rw [view_cons] at hdir
      cases hfirst : n.child? first with
      | none => rw [hfirst] at hdir; cases hdir
      | some below =>
        rw [hfirst] at hdir
        rw [setEntry, hfirst, view_cons, view_cons]
        show (((n.setChild first (some (below.setEntry above name c))).child? other).bind _) = _
        rw [child?_setChild]
        by_cases hother : other = first
        · subst hother
          rw [if_pos rfl, hfirst]
          refine ih hdir ?_
          rintro ⟨more, rfl⟩
          exact haway ⟨more, rfl⟩
        · rw [if_neg hother]

def IsLeaf (n : Node) : Prop := ∀ name rest, n.view (name :: rest) = none

theorem isLeaf_file (bytes : Bytes) : (file bytes).IsLeaf := fun _ _ => rfl

theorem isLeaf_empty : empty.IsLeaf := fun _ _ => rfl

/-- An entry that is not a directory, replaced by a node without entries, added or removed, changes
what is at one list of names. -/
theorem view_setEntry {n : Node} {dir : List String} {name : String} {c : Option Node}
    (hdir : n.view dir = some .directory) (hold : n.view (dir ++ [name]) ≠ some .directory)
    (hleaf : ∀ node, c = some node → node.IsLeaf) :
    (n.setEntry dir name c).view = Function.update n.view (dir ++ [name]) (c.map kind) := by
  funext names
  by_cases hbelow : dir ++ [name] <+: names
  · obtain ⟨rest, rfl⟩ := hbelow
    rw [List.append_assoc, List.singleton_append, view_setEntry_below name c rest hdir]
    cases rest with
    | nil =>
      rw [Function.update_self]
      cases c <;> rfl
    | cons other more =>
      have hne : dir ++ name :: other :: more ≠ dir ++ [name] := by simp
      rw [Function.update_of_ne hne]
      -- nothing is below the old entry, nor below the new one
      have hnone := view_append_eq_none hold other more
      rw [List.append_assoc, List.singleton_append] at hnone
      rw [hnone]
      cases c with
      | none => rfl
      | some node => exact hleaf node rfl other more
  · have hne : names ≠ dir ++ [name] := by
      rintro rfl
      exact hbelow (List.prefix_refl _)
    rw [view_setEntry_away c hdir hbelow, Function.update_of_ne hne]

end Node

end VectorBench
