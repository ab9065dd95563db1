import Mathlib.Data.List.Induction
import VectorBench.Proofs.Registry.Registrations
import VectorBench.Proofs.Verdict.Occurrence

/-!
# What registrations leave

What a registry holds after any registrations, said without the registry on the way: all that it
held at first, and behind that the new names in the order in which they first came, each with the
engine that came with it then.  A name that was there before, or came before, is refused, and its
second engine is nowhere.

    name ∈ (r.registerAll offers).names ↔ name ∈ r.names ∨ name ∈ offers.map (·.1)
                                                                       (mem_names_registerAll)
    ∃ added, FirstRegistrations r.names offers added ∧
      (r.registerAll offers).entries = r.entries ++ added              (entries_registerAll)
-/

namespace VectorBench.Registry

variable {α : Type}

/-- The names of registrations that are not `taken`, as often as they come. -/
def newNames (taken : List String) (offers : List (String × α)) : List String :=
  (offers.map (·.1)).filter fun name => name ∉ taken

/-- The entries that registrations leave where some names are `taken`: the other names, each where
it first came, with the first engine that came under it. -/
structure FirstRegistrations (taken : List String) (offers added : List (String × α)) : Prop where
  names : FirstOccurrences (added.map (·.1)) (newNames taken offers)
  engines : ∀ entry ∈ added, offers.find? (fun offer => offer.1 == entry.1) = some entry

section

variable {taken : List String} {offers added : List (String × α)} {name : String} {engine : α}

theorem mem_newNames : name ∈ newNames taken offers ↔ name ∈ offers.map (·.1) ∧ name ∉ taken := by
  rw [newNames, List.mem_filter, decide_eq_true_eq]

theorem newNames_append_of_mem (h : name ∈ taken) :
    newNames taken (offers ++ [(name, engine)]) = newNames taken offers := by
  simp [newNames, h]

theorem newNames_append_of_not_mem (h : name ∉ taken) :
    newNames taken (offers ++ [(name, engine)]) = newNames taken offers ++ [name] := by
  simp [newNames, h]

namespace FirstRegistrations

theorem nil : FirstRegistrations taken ([] : List (String × α)) [] :=
  ⟨.nil, fun _ h => (List.not_mem_nil h).elim⟩

/-- Who was first is not changed by who comes later. -/
theorem engines_append (h : FirstRegistrations taken offers added) (more : List (String × α)) :
    ∀ entry ∈ added, (offers ++ more).find? (fun offer => offer.1 == entry.1) = some entry := by
  intro entry hentry
  rw [List.find?_append, h.engines entry hentry, Option.some_or]

/-- A name that is taken or came before adds nothing. -/
theorem again (h : FirstRegistrations taken offers added)
    (hname : name ∈ taken ∨ name ∈ offers.map (·.1)) :
    FirstRegistrations taken (offers ++ [(name, engine)]) added := by
  refine ⟨?_, h.engines_append _⟩
  by_cases htaken : name ∈ taken
  · rw [newNames_append_of_mem htaken]
    exact h.names
  · rw [newNames_append_of_not_mem htaken]
    exact h.names.again (mem_newNames.2 ⟨hname.resolve_left htaken, htaken⟩)

/-- A new name comes last, with its engine. -/
theorem first (h : FirstRegistrations taken offers added) (htaken : name ∉ taken)
    (hnew : name ∉ offers.map (·.1)) :
    FirstRegistrations taken (offers ++ [(name, engine)]) (added ++ [(name, engine)]) := by
  constructor
  · rw [List.map_append, newNames_append_of_not_mem htaken]
    exact h.names.first fun hmem => hnew (mem_newNames.1 hmem).1
  · rw [List.forall_mem_append]
    refine ⟨h.engines_append _, List.forall_mem_singleton.2 ?_⟩
    have hnone : offers.find? (fun offer => offer.1 == name) = none := by
      rw [List.find?_eq_none]
      intro offer hoffer heq
      exact hnew (List.mem_map.2 ⟨offer, hoffer, eq_of_beq heq⟩)
    rw [List.find?_append, hnone, Option.none_or]
    exact List.find?_cons_of_pos (BEq.refl name)

/-- There is one such list. -/
theorem unique {other : List (String × α)} (h : FirstRegistrations taken offers added)
    (h' : FirstRegistrations taken offers other) : other = added := by
  refine eq_of_map_eq (h'.names.unique h.names) fun a ha b hb hname => ?_
  have hfound := h'.engines a ha
  rw [hname, h.engines b hb] at hfound
  exact (Option.some.inj hfound).symm

end FirstRegistrations

end

/-! ## One registration -/

theorem offer_of_mem {r : Registry α} {name : String} (h : name ∈ r.names) (engine : α) :
    r.offer name engine = r := by
  rw [offer, register, if_pos h]

theorem entries_offer_of_not_mem {r : Registry α} {name : String} (h : name ∉ r.names)
    (engine : α) : (r.offer name engine).entries = r.entries ++ [(name, engine)] := by
  rw [offer, register, if_neg h]

theorem mem_names_offer {r : Registry α} {name other : String} {engine : α} :
    other ∈ (r.offer name engine).names ↔ other ∈ r.names ∨ other = name := by
  rw [names_offer]
  split
  · rename_i h
    exact ⟨Or.inl, fun hor => hor.elim id fun heq => heq ▸ h⟩
  · rw [List.mem_append, List.mem_singleton]

/-! ## Any number of registrations -/

theorem registerAll_append (r : Registry α) (offers : List (String × α)) (offer : String × α) :
    r.registerAll (offers ++ [offer]) = (r.registerAll offers).offer offer.1 offer.2 := by
  rw [registerAll, List.foldl_append]
  rfl

/-- Exactly the names that were there or came are there. -/
theorem mem_names_registerAll {r : Registry α} {offers : List (String × α)} {name : String} :
    name ∈ (r.registerAll offers).names ↔ name ∈ r.names ∨ name ∈ offers.map (·.1) := by
  induction offers using List.reverseRecOn with
  | nil => exact (or_iff_left List.not_mem_nil).symm
  | append_singleton offers offer ih =>
    rw [registerAll_append, mem_names_offer, ih, List.map_append, List.mem_append, or_assoc]
    exact or_congr_right (or_congr_right List.mem_singleton.symm)

theorem entries_registerAll (r : Registry α) (offers : List (String × α)) :
    ∃ added, FirstRegistrations r.names offers added ∧
      (r.registerAll offers).entries = r.entries ++ added := by
  induction offers using List.reverseRecOn with
  | nil => exact ⟨[], .nil, (List.append_nil _).symm⟩
  | append_singleton offers offer ih =>
    obtain ⟨added, hadded, hentries⟩ := ih
    rw [registerAll_append]
    by_cases h : offer.1 ∈ (r.registerAll offers).names
    · rw [offer_of_mem h]
      exact ⟨added, hadded.again (mem_names_registerAll.1 h), hentries⟩
    · have hnew := not_or.1 (mem_names_registerAll.not.1 h)
      rw [entries_offer_of_not_mem h, hentries, List.append_assoc]
      exact ⟨added ++ [offer], hadded.first hnew.1 hnew.2, rfl⟩

/-! ## From the start -/

/-- A registry to start with: one without engines, or one with the default engines, whatever these
are wrapped in. -/
inductive Start : Registry α → Prop where
  | empty : Start .empty
  | defaults (tuning : Tuning) (source : CandidateSource) (wrap : Engine → α) :
      Start ((defaultEngines tuning source).map wrap)

theorem Start.nodup {start : Registry α} (h : start.Start) : start.names.Nodup := by
  cases h with
  | empty => exact List.nodup_nil
  | defaults tuning source wrap =>
    show defaultNames.Nodup
    decide

/-- All that can be seen of a registry describes one list of names and engines. -/
structure Lists (r : Registry α) (entries : List (String × α)) : Prop where
  entries_eq : r.entries = entries
  names_eq : r.names = entries.map (·.1)
  size_eq : r.size = entries.length
  isEmpty_iff : r.isEmpty = true ↔ entries = []

theorem lists_of_entries {r : Registry α} {entries : List (String × α)} (h : r.entries = entries) :
    r.Lists entries where
  entries_eq := h
  names_eq := by rw [names, h]
  size_eq := by rw [size, h]
  isEmpty_iff := by rw [isEmpty, h, List.isEmpty_iff]

/-- The law of registrations.  After any of them, one more is refused exactly if its name was there
from the start or came before, and then changes nothing; any other is accepted and comes last.  No
name is there twice, and whichever way one looks at it, the registry is the list of what was there
at first and then of the first registrations of new names. -/
theorem registerAll_history {start : Registry α} (h : start.Start) (offers : List (String × α)) :
    (∀ name engine e, (start.registerAll offers).register name engine = .error e ↔
      (name ∈ start.names ∨ name ∈ offers.map (·.1)) ∧ e = .duplicateEngine name) ∧
    (∀ name, name ∈ (start.registerAll offers).names ↔
      name ∈ start.names ∨ name ∈ offers.map (·.1)) ∧
    (∀ name engine, name ∈ (start.registerAll offers).names →
      (start.registerAll offers).offer name engine = start.registerAll offers) ∧
    (∀ name engine, name ∉ (start.registerAll offers).names → ∃ grown,
      (start.registerAll offers).register name engine = .ok grown ∧
        grown.entries = (start.registerAll offers).entries ++ [(name, engine)]) ∧
    (start.registerAll offers).names.Nodup ∧
    ∃ added, FirstRegistrations start.names offers added ∧
      (∀ other, FirstRegistrations start.names offers other → other = added) ∧
      (start.registerAll offers).Lists (start.entries ++ added) := by
  refine ⟨fun name engine e => ?_, fun name => mem_names_registerAll,
    fun name engine hname => offer_of_mem hname engine, fun name engine hname => ?_,
    nodup_names_registerAll h.nodup offers, ?_⟩
  · rw [register_eq_error_iff, mem_names_registerAll]
  · exact ⟨_, if_neg hname, rfl⟩
  · obtain ⟨added, hadded, hentries⟩ := entries_registerAll start offers
    exact ⟨added, hadded, fun other => hadded.unique, lists_of_entries hentries⟩

/-- A default name and a repeated one among the registrations. -/
theorem registerAll_history_repeated :
    Registry.Start ((defaultEngines .default .exhaustive).map fun _ => 0) ∧
      (((defaultEngines .default .exhaustive).map fun _ => 0).registerAll
        [("x", 1), ("flat_ip", 2), ("x", 3), ("", 4)]).Lists
        [("graph_ann", 0), ("flat_ip", 0), ("x", 1), ("", 4)] ∧
      (((defaultEngines .default .exhaustive).map fun _ => 0).registerAll
        [("x", 1), ("flat_ip", 2), ("x", 3), ("", 4)]).register "" 5 =
          .error (.duplicateEngine "") := by
  have hstart : Registry.Start ((defaultEngines .default .exhaustive).map fun _ => 0) :=
    .defaults _ _ _
  obtain ⟨herror, -, -, -, -, added, -, hunique, hlists⟩ :=
    registerAll_history hstart [("x", 1), ("flat_ip", 2), ("x", 3), ("", 4)]
  have hadded : FirstRegistrations defaultNames [("x", 1), ("flat_ip", 2), ("x", 3), ("", 4)]
      [("x", 1), ("", 4)] :=
    (((FirstRegistrations.nil.first (by decide) (by decide)).again (.inl (by decide))).again
      (.inr (by decide))).first (by decide) (by decide)
  rw [← hunique _ hadded] at hlists
  exact ⟨hstart, hlists, (herror _ _ _).2 ⟨.inr (by decide), rfl⟩⟩

end VectorBench.Registry
