import VectorBench.Proofs.Store.Beside
import VectorBench.Proofs.Store.Interruption
import VectorBench.Proofs.Store.Lasting

/-!
# Saving, step by step

While a record is saved the tree is in one of two stages: nothing but directories above the path and
the file beside it has changed, or the file beside has taken the place of the path with all of its
bytes.  Only one step leads from the first stage to the second, the renaming, and it is asked for
only after all bytes were written.

    Keeps (saveRecord r path) t (Stage r path t) (Outcome r path t)               (saveRecord_keeps)
-/

namespace VectorBench

open VectorBench.Path (location)

/-- A record is under a path, and nothing else changed but for directories above the path. -/
structure Saved (r : Record) (path : String) (before after : Node) : Prop where
  read : Tree.read after path = .ok r.bytes
  gone : after.view (location (temporaryPath path)) = none
  others : ∀ names, names ≠ location path → names ≠ location (temporaryPath path) →
    after.view names = before.view names ∨ MadeAbove path before after names

/-- A record is not yet saved, or it is. -/
def Stage (r : Record) (path : String) (before after : Node) : Prop :=
  Untouched path before after ∨ Saved r path before after

/-- What is there when saving is done. -/
def Outcome (r : Record) (path : String) (before : Node) :
    Except FileError Unit → Node → Prop
  | .ok _, after => Saved r path before after
  | .error _, after => Untouched path before after

/-- A program that leaves the path alone keeps to the first stage. -/
theorem keeps_stage {α : Type} {r : Record} {path : String} {before t : Node} {p : FileProgram α}
    {Q : α → Node → Prop} (h : Keeps p t (Untouched path before) Q) :
    Keeps p t (Stage r path before) fun a t' => Untouched path before t' ∧ Q a t' :=
  h.mono (fun _ ht => .inl ht) fun _ _ ht hQ => ⟨ht, hQ⟩

section

variable {path : String} {before t t' : Node}

/-! ## Directories above -/

theorem makeDir_untouched {above : String} (hroot : t.kind = .directory)
    (hdots : ".." ∉ Path.pieces above) (habove : location above <+: (location path).dropLast)
    (h : Tree.makeDir t above = .ok t') : Untouched path t t' := by
  obtain ⟨hnone, hview⟩ := Tree.makeDir_eq_ok hroot hdots h
  intro names hne
  by_cases hnames : names = location above
  · subst hnames
    refine .inr ⟨habove, hnone, ?_⟩
    rw [hview, Function.update_self]
  · left
    rw [hview, Function.update_of_ne hnames]

theorem makeDir_keeps {above : String} (hroot : before.kind = .directory)
    (hdots : ".." ∉ Path.pieces above) (habove : location above <+: (location path).dropLast)
    (ht : Untouched path before t) :
    Keeps (ask (.makeDir above)) t (Untouched path before) fun _ _ => True := by
  have hmade : ∀ t', Tree.makeDir t above = .ok t' → Untouched path before t' :=
    fun t' h => ht.trans (makeDir_untouched (ht.root hroot) hdots habove h)
  exact (Keeps.ask (r := .makeDir above) rfl ht hmade).forget

/-- A request that changes nothing. -/
theorem ask_keeps {r : FileRequest} (hr : r.whole = true)
    (hsame : ∀ t', Tree.effect r t = .ok t' → t' = t) (ht : Untouched path before t) :
    Keeps (ask r) t (Untouched path before) fun _ t' => t' = t := by
  have hkept : ∀ t', Tree.effect r t = .ok t' → Untouched path before t' := by
    intro t' h
    rw [hsame t' h]
    exact ht
  refine (Keeps.ask hr ht hkept).imp ?_
  rintro a t' - (⟨-, rfl⟩ | ⟨-, h⟩)
  · rfl
  · exact hsame t' h

theorem sync_same {file : String} (t' : Node) (h : Tree.effect (.sync file) t = .ok t') :
    t' = t := by
  rw [Tree.effect] at h
  cases hfile : Tree.existingFile t file with
  | error e => rw [hfile] at h; cases h
  | ok found => rw [hfile] at h; exact (Except.ok.inj h).symm

theorem unlessDirectory_keeps (above : String) (e : FileError) (ht : Untouched path before t) :
    Keeps (unlessDirectory above e) t (Untouched path before) fun _ _ => True := by
  unfold unlessDirectory
  have hsame : ∀ t', Tree.effect (.isDir above) t = .ok t' → t' = t :=
    fun t' h => (Except.ok.inj h).symm
  have hask := ask_keeps (r := .isDir above) rfl hsame ht
  refine hask.bind fun a t' ht' _ => ?_
  split
  · exact .done ht' trivial
  · exact .done ht' trivial

theorem makeDirs_keeps (hroot : before.kind = .directory) (paths : List String)
    (hdots : ∀ above ∈ paths, ".." ∉ Path.pieces above)
    (habove : ∀ above ∈ paths, location above <+: (location path).dropLast)
    (ht : Untouched path before t) :
    Keeps (makeDirs paths) t (Untouched path before) fun _ _ => True := by
  induction paths generalizing t with
  | nil => exact .done ht trivial
  | cons first above ih =>
    obtain ⟨hdotsFirst, hdotsAbove⟩ := List.forall_mem_cons.1 hdots
    obtain ⟨hfirst, hrest⟩ := List.forall_mem_cons.1 habove
    rw [makeDirs]
    refine (makeDir_keeps hroot hdotsFirst hfirst ht).bind fun a t₁ ht₁ _ => ?_
    split
    · exact .done ht₁ trivial
    · refine (ih hdotsAbove hrest ht₁).bind fun b t₂ ht₂ _ => ?_
      split
      · exact .done ht₂ trivial
      · refine (makeDir_keeps hroot hdotsFirst hfirst ht₂).bind fun c t₃ ht₃ _ => ?_
        split
        · exact .done ht₃ trivial
        · exact unlessDirectory_keeps first _ ht₃
    · exact unlessDirectory_keeps first _ ht₁

theorem makeParents_eq {parent : String} (h : Path.parent? path = some parent) :
    makeParents path = makeDirs (Path.ancestors parent) := by
  unfold makeParents
  rw [h]

variable (hroot : before.kind = .directory) (hdots : ".." ∉ Path.pieces path)

include hroot hdots

theorem makeParents_keeps (ht : Untouched path before t) :
    Keeps (makeParents path) t (Untouched path before) fun _ _ => True := by
  cases hparent : Path.parent? path with
  | none =>
    unfold makeParents
    rw [hparent]
    exact .done ht trivial
  | some parent =>
    rw [makeParents_eq hparent]
    exact makeDirs_keeps hroot _ (fun _ h => Path.dots_of_mem_ancestors hparent h hdots)
      (fun _ h => Path.location_of_mem_ancestors hparent h) ht

/-! ## The file beside -/

/-- The file beside a path holds some bytes, and nothing else has changed. -/
def Holds (path : String) (before : Node) (bytes : Bytes) (t : Node) : Prop :=
  Untouched path before t ∧ t.view (location (temporaryPath path)) = some (.file bytes)

theorem create_holds (ht : Untouched path before t)
    (h : Tree.create t (temporaryPath path) = .ok t') :
    Holds path before [] t' := by
  obtain ⟨-, -, hview⟩ := Tree.create_eq_ok (ht.root hroot) (dots_temporaryPath hdots) h
  refine ⟨ht.trans (.of_update hview), ?_⟩
  rw [hview, Function.update_self]

theorem append_holds {written more : Bytes} (ht : Holds path before written t)
    (h : Tree.append t (temporaryPath path) more = .ok t') :
    Holds path before (written ++ more) t' := by
  have hdots' := dots_temporaryPath hdots
  obtain ⟨bytes, hread, hview⟩ := Tree.append_eq_ok (ht.1.root hroot) hdots' h
  have hbytes := ((Tree.read_eq_ok_iff hdots').1 hread).2
  rw [ht.2] at hbytes
  cases hbytes
  refine ⟨ht.1.trans (.of_update hview), ?_⟩
  rw [hview, Function.update_self]

theorem append_keeps (bytes : Bytes) (ht : Holds path before [] t) :
    Keeps (ask (.append (temporaryPath path) bytes)) t (Untouched path before) fun a t' =>
      a = .ok () → Holds path before bytes t' := by
  have happend : Keeps (ask (.append (temporaryPath path) bytes)) t _ _ :=
    Keeps.append (fun _ _ _ _ hC h => append_holds hroot hdots hC h) ht
  refine happend.mono (fun t' ⟨_, hC⟩ => hC.1) ?_
  rintro a t' - (⟨e, rfl⟩ | ⟨-, hC⟩) hok
  · cases hok
  · exact hC

theorem writeSynced_keeps (bytes : Bytes) (ht : Untouched path before t) :
    Keeps (writeSynced (temporaryPath path) bytes) t (Untouched path before) fun a t' =>
      a = .ok () → Holds path before bytes t' := by
  unfold writeSynced
  have hempty : ∀ t', Tree.create t (temporaryPath path) = .ok t' → Holds path before [] t' :=
    fun t' h => create_holds hroot hdots ht h
  have hcreate := Keeps.ask (r := .create (temporaryPath path)) rfl ht
    fun t' h => (hempty t' h).1
  refine hcreate.bind fun a t₁ ht₁ ha => ?_
  split
  · exact .done ht₁ fun he => nomatch he
  · rcases ha with ⟨⟨e, he⟩, -⟩ | ⟨-, hcreated⟩
    · cases he
    · refine (append_keeps hroot hdots bytes (hempty t₁ hcreated)).bind fun b t₂ ht₂ hb => ?_
      split
      · exact .done ht₂ fun he => nomatch he
      · have hsync := ask_keeps (r := .sync (temporaryPath path)) rfl sync_same ht₂
        refine hsync.imp ?_
        rintro c t₃ - rfl -
        exact hb rfl

/-! ## The record -/

/-- Renaming the complete file makes the record the one under the path. -/
theorem rename_saved {r : Record} (ht : Holds path before r.bytes t)
    (h : Tree.rename t (temporaryPath path) path = .ok t') : Saved r path before t' := by
  have hdots' := dots_temporaryPath hdots
  obtain ⟨bytes, hread, hopens, hnotDirectory, hview⟩ :=
    Tree.rename_eq_ok (ht.1.root hroot) hdots' hdots h
  have hbytes := ((Tree.read_eq_ok_iff hdots').1 hread).2
  rw [ht.2] at hbytes
  cases hbytes
  have hle : DirectoriesLE t t' :=
    Tree.effect_directories (r := .rename (temporaryPath path) path) (ht.1.root hroot) h
  refine ⟨?_, ?_, ?_⟩
  · rw [Tree.read_eq_ok_iff hdots]
    refine ⟨hopens.of_le hle, ?_⟩
    rw [hview, Function.update_self]
  · rw [hview, Function.update_of_ne (temporaryPath_ne path).symm, Function.update_self]
  · intro names hne hne'
    have hsame : t'.view names = t.view names := by
      rw [hview, Function.update_of_ne hne, Function.update_of_ne hne']
    rcases ht.1 names hne' with hbefore | ⟨hstart, hnone, hmade⟩
    · exact .inl (hsame.trans hbefore)
    · exact .inr ⟨hstart, hnone, hsame.trans hmade⟩

theorem replaceFile_keeps (r : Record) (ht : Untouched path before t) :
    Keeps (replaceFile path r.bytes) t (Stage r path before) (Outcome r path before) := by
  unfold replaceFile
  have hwrite := keeps_stage (r := r) (writeSynced_keeps hroot hdots r.bytes ht)
  refine hwrite.bind fun a t₁ _ ⟨ht₁, hholds⟩ => ?_
  split
  · exact .done (.inl ht₁) ht₁
  · have hsaved : ∀ t', Tree.rename t₁ (temporaryPath path) path = .ok t' →
        Saved r path before t' := fun t' h => rename_saved hroot hdots (hholds rfl) h
    have hrename := Keeps.ask (I := Stage r path before) (r := .rename (temporaryPath path) path)
      rfl (.inl ht₁) fun t' h => .inr (hsaved t' h)
    refine hrename.imp ?_
    rintro b t₂ - (⟨⟨e, rfl⟩, rfl⟩ | ⟨⟨v, rfl⟩, h⟩)
    · exact ht₁
    · exact hsaved t₂ h

theorem remove_keeps (ht : Untouched path before t) :
    Keeps (ask (.remove (temporaryPath path))) t (Untouched path before) fun _ _ => True := by
  have hremoved : ∀ t', Tree.remove t (temporaryPath path) = .ok t' →
      Untouched path before t' := by
    intro t' h
    obtain ⟨-, hview⟩ := Tree.remove_eq_ok (ht.root hroot) (dots_temporaryPath hdots) h
    exact ht.trans (.of_update hview)
  exact (Keeps.ask (r := .remove (temporaryPath path)) rfl ht hremoved).forget

/-- Saving is in one of its two stages at every moment, and ends in the second exactly when it
succeeds. -/
theorem saveRecord_keeps (r : Record) :
    Keeps (saveRecord r path) before (Stage r path before) (Outcome r path before) := by
  unfold saveRecord
  have hparents := keeps_stage (r := r) (makeParents_keeps hroot hdots (.refl path before))
  refine hparents.bind fun a t₁ _ ⟨ht₁, _⟩ => ?_
  split
  · exact .done (.inl ht₁) ht₁
  · refine (replaceFile_keeps hroot hdots r ht₁).bind fun b t₂ hstage hb => ?_
    split
    · exact .done hstage hb
    · have ht₂ : Untouched path before t₂ := hb
      have hremove := keeps_stage (r := r) (remove_keeps hroot hdots ht₂)
      exact hremove.bind fun c t₃ _ ⟨ht₃, _⟩ => .done (.inl ht₃) ht₃

end

end VectorBench
