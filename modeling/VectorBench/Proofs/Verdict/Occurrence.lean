import Mathlib.Data.List.Nodup

/-!
# Names in the order in which they first occur

The distinct names of a list, each at the place of its first occurrence.  There is one such list, and
it grows at its end: a name that occurred before adds nothing, and a new one comes last.

    FirstOccurrences names all → e ∈ all → FirstOccurrences names (all ++ [e])              (again)
    FirstOccurrences names all → e ∉ all → FirstOccurrences (names ++ [e]) (all ++ [e])     (first)
    FirstOccurrences names all → FirstOccurrences names' all → names = names'              (unique)
-/

namespace VectorBench

/-- Lists are equal when their entries have the same keys and a key has one entry. -/
theorem eq_of_map_eq {α β : Type} {key : α → β} {l k : List α} (h : l.map key = k.map key)
    (hkey : ∀ a ∈ l, ∀ b ∈ k, key a = key b → a = b) : l = k := by
  induction l generalizing k with
  | nil => exact (List.map_eq_nil_iff.1 h.symm).symm
  | cons a l ih =>
    cases k with
    | nil => cases h
    | cons b k =>
      rw [List.map_cons, List.map_cons, List.cons.injEq] at h
      rw [hkey a List.mem_cons_self b List.mem_cons_self h.1,
        ih h.2 fun x hx y hy => hkey x (List.mem_cons_of_mem a hx) y (List.mem_cons_of_mem b hy)]

/-- The distinct names of a list in the order in which they first occur in it. -/
structure FirstOccurrences (names all : List String) : Prop where
  distinct : names.Nodup
  mem_iff : ∀ e, e ∈ names ↔ e ∈ all
  ordered : names.Pairwise fun a b => all.idxOf a < all.idxOf b

namespace FirstOccurrences

variable {names names' all : List String} {e : String}

theorem nil : FirstOccurrences [] [] := ⟨.nil, fun _ => Iff.rfl, .nil⟩

/-- What follows a list does not change where its names first occur. -/
theorem ordered_append (h : FirstOccurrences names all) (more : List String) :
    names.Pairwise fun a b => (all ++ more).idxOf a < (all ++ more).idxOf b := by
  refine h.ordered.imp_of_mem fun {a b} ha hb hlt => ?_
  rw [List.idxOf_append_of_mem ((h.mem_iff a).1 ha), List.idxOf_append_of_mem ((h.mem_iff b).1 hb)]
  exact hlt

theorem again (h : FirstOccurrences names all) (he : e ∈ all) :
    FirstOccurrences names (all ++ [e]) := by
  refine ⟨h.distinct, fun x => ?_, h.ordered_append [e]⟩
  rw [h.mem_iff, List.mem_append, List.mem_singleton]
  constructor
  · exact Or.inl
  · rintro (hx | rfl)
    · exact hx
    · exact he

theorem first (h : FirstOccurrences names all) (he : e ∉ all) :
    FirstOccurrences (names ++ [e]) (all ++ [e]) := by
  refine ⟨?_, fun x => ?_, ?_⟩
  · rw [List.nodup_append]
    refine ⟨h.distinct, List.nodup_singleton e, fun a ha b hb => ?_⟩
    rw [List.mem_singleton] at hb
    rintro rfl
    exact he (hb ▸ (h.mem_iff a).1 ha)
  · rw [List.mem_append, List.mem_append, h.mem_iff]
  · rw [List.pairwise_append]
    refine ⟨h.ordered_append [e], List.pairwise_singleton _ e, fun a ha b hb => ?_⟩
    rw [List.mem_singleton] at hb
    have hmem : a ∈ all := (h.mem_iff a).1 ha
    rw [hb, List.idxOf_append_of_mem hmem, List.idxOf_append_of_notMem he]
    have := List.idxOf_lt_length_iff.2 hmem
    omega

theorem unique (h : FirstOccurrences names all) (h' : FirstOccurrences names' all) :
    names = names' := by
  have hperm : names.Perm names' := by
    rw [List.perm_ext_iff_of_nodup h.distinct h'.distinct]
    exact fun e => (h.mem_iff e).trans (h'.mem_iff e).symm
  exact hperm.eq_of_pairwise (fun a b _ _ hab hba => by omega) h.ordered h'.ordered

/-- Names that are all different occur first where they are. -/
theorem self (h : all.Nodup) : FirstOccurrences all all := by
  refine ⟨h, fun _ => Iff.rfl, ?_⟩
  rw [List.pairwise_iff_getElem]
  intro i j hi hj hij
  rw [h.idxOf_getElem, h.idxOf_getElem]
  exact hij

end FirstOccurrences

end VectorBench
