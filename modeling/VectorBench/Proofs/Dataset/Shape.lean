import VectorBench.Dataset
import VectorBench.Proofs.Record.Fit
import VectorBench.Proofs.VectorSet.Rows

/-!
# The shape of a dataset

A set of random rows is as large as was asked for exactly if the numbers that it takes can be
counted in 64 bits: drawing yields as many numbers as words are read, and scaling a row changes none
of the lengths.  No configuration is refused because its numbers cannot be counted; the program
stops at such a one, or makes a dataset of another shape.

    overflow.count? rows dim = none ↔ overflow = .stops ∧ ¬ rows * dim < 2 ^ 64  (count?_eq_none_iff)
    (drawCounted next (rows * dim) dim source).1.HasShape rows dim ↔ rows * dim < 2 ^ 64
                                                                           (drawCounted_hasShape_iff)
    (∃ dataset, generate overflow config = .ok dataset ∧ dataset.Fills config) ↔ config.Countable
                                                                                 (generate_fills_iff)
-/

namespace VectorBench

/-- A set of `rows` rows of length `dim`, with nothing behind them. -/
structure VectorSet.HasShape (v : VectorSet) (rows dim : Nat) : Prop where
  dim_eq : v.dim = dim
  rows_eq : v.rows.length = rows
  row_length : ∀ row ∈ v.rows, row.length = dim
  data_length : v.data.length = rows * dim

/-! ## Rows -/

theorem length_normalize (row : Vector32) : (normalize row).length = row.length := by
  simp only [normalize]
  split
  · rfl
  · rw [List.length_map]

theorem length_normalizeRows (dim : Nat) (data : Vector32) :
    (normalizeRows dim data).length = data.length := by
  have hfit : data.length / dim * dim ≤ data.length := Nat.div_mul_le_self _ _
  have hsum : (((rowsOf dim data).map normalize).map List.length).sum =
      ((rowsOf dim data).map List.length).sum := by
    rw [List.map_map]
    exact congrArg List.sum (List.map_congr_left fun row _ => length_normalize row)
  have hrows : ((rowsOf dim data).map List.length).sum = data.length / dim * dim := by
    rw [← List.length_flatten]
    exact length_flatten_takeRows hfit
  rw [normalizeRows, List.length_append, List.length_flatten, hsum, hrows, List.length_drop,
    length_rowsOf]
  omega

/-! ## Drawing -/

section

variable {σ : Type} (next : σ → UInt32 × σ)

theorem length_drawNumbers (count : Nat) (drawn : Vector32) (source : σ) :
    (drawNumbers next count drawn source).1.length = count + drawn.length := by
  induction count generalizing drawn source with
  | zero =>
    rw [drawNumbers, List.length_reverse]
    omega
  | succ count ih =>
    rw [drawNumbers, ih, List.length_cons]
    omega

variable (count dim : UInt64) (source : σ)

theorem length_data_drawCounted :
    (drawCounted next count dim source).1.data.length = count.toNat := by
  show (normalizeRows _ _).length = _
  rw [length_normalizeRows, length_drawNumbers]
  rfl

theorem length_rows_drawCounted :
    (drawCounted next count dim source).1.rows.length = count.toNat / dim.toNat := by
  rw [← length_data_drawCounted next count dim source]
  exact length_rowsOf _ _

theorem length_of_mem_rows_drawCounted {row : Vector32}
    (hrow : row ∈ (drawCounted next count dim source).1.rows) : row.length = dim.toNat :=
  length_of_mem_takeRows (Nat.div_mul_le_self _ _) hrow

end

/-! ## Counts -/

theorem toNat_pos {n : UInt64} (h : n ≠ 0) : 0 < n.toNat := by
  apply Nat.pos_of_ne_zero
  intro hzero
  exact h (UInt64.toNat_inj.1 hzero)

theorem toNat_mul_of_fit {rows dim : UInt64} (hfit : rows.toNat * dim.toNat < UInt64.size) :
    (rows * dim).toNat = rows.toNat * dim.toNat := by
  rw [UInt64.toNat_mul]
  exact Nat.mod_eq_of_lt hfit

/-- The program stops only at a product that does not fit, and only if it was built to. -/
theorem Overflow.count?_eq_none_iff {overflow : Overflow} {rows dim : UInt64} :
    overflow.count? rows dim = none ↔
      overflow = .stops ∧ ¬ rows.toNat * dim.toNat < UInt64.size := by
  cases overflow with
  | stops =>
    rw [count?]
    split
    · rename_i hfit
      exact iff_of_false nofun fun h => h.2 hfit
    · rename_i hfit
      exact iff_of_true rfl ⟨rfl, hfit⟩
  | wraps => exact iff_of_false nofun fun h => nomatch h.1

theorem Overflow.count?_eq_some {overflow : Overflow} {rows dim : UInt64}
    (h : overflow = .wraps ∨ rows.toNat * dim.toNat < UInt64.size) :
    overflow.count? rows dim = some (rows * dim) := by
  cases overflow with
  | stops => exact if_pos (h.resolve_left nofun)
  | wraps => rfl

section

variable {σ : Type} {overflow : Overflow} (next : σ → UInt32 × σ) {rows dim : UInt64} (source : σ)

theorem drawSet_eq_some (h : overflow = .wraps ∨ rows.toNat * dim.toNat < UInt64.size) :
    drawSet overflow next rows dim source =
      some (drawCounted next (rows * dim) dim source) := by
  rw [drawSet, Overflow.count?_eq_some h, Option.map_some]

theorem drawSet_stops (h : ¬ rows.toNat * dim.toNat < UInt64.size) :
    drawSet .stops next rows dim source = none := by
  rw [drawSet, Overflow.count?_eq_none_iff.2 ⟨rfl, h⟩, Option.map_none]

theorem length_rows_drawCounted_mul :
    (drawCounted next (rows * dim) dim source).1.rows.length =
      rows.toNat * dim.toNat % UInt64.size / dim.toNat := by
  rw [length_rows_drawCounted, UInt64.toNat_mul]

/-- A set of positive dimension has the shape that was asked for unless 64 bits cannot count its
numbers, and then it is too small. -/
theorem drawCounted_hasShape_iff (hdim : dim ≠ 0) :
    (drawCounted next (rows * dim) dim source).1.HasShape rows.toNat dim.toNat ↔
      rows.toNat * dim.toNat < UInt64.size := by
  constructor
  · intro hshape
    rw [← hshape.data_length, length_data_drawCounted]
    exact UInt64.toNat_lt_size _
  · intro hfit
    exact {
      dim_eq := rfl
      rows_eq := by
        rw [length_rows_drawCounted, toNat_mul_of_fit hfit, Nat.mul_div_cancel _ (toNat_pos hdim)]
      row_length := fun _ hrow => length_of_mem_rows_drawCounted next _ _ _ hrow
      data_length := by rw [length_data_drawCounted, toNat_mul_of_fit hfit] }

end

/-! ## Datasets -/

/-- A dataset with the corpus and the queries of a configuration. -/
structure Dataset.Fills (dataset : Dataset) (config : Config) : Prop where
  vectors : dataset.vectors.HasShape config.samples.toNat config.dims.toNat
  queries : dataset.queries.HasShape config.queries.toNat config.dims.toNat

/-- The numbers of the corpus and those of the queries can be counted in 64 bits. -/
structure Config.Countable (config : Config) : Prop where
  vectors : config.samples.toNat * config.dims.toNat < UInt64.size
  queries : config.queries.toNat * config.dims.toNat < UInt64.size

namespace Dataset

section

variable {σ : Type} {overflow : Overflow} (next : σ → UInt32 × σ) {config : Config}

theorem drawFrom_of_check_error {e : ValidationError} (h : config.check = .error e) (source : σ) :
    drawFrom overflow next config source = (.error (.invalidConfig e), source) := by
  rw [drawFrom, h]

/-- The dataset that a source of random words yields for a configuration without a zero count when
the program gets past the counts, and the source after it. -/
def drawn (config : Config) (source : σ) : Dataset × σ :=
  let corpus := drawCounted next (config.samples * config.dims) config.dims source
  let queries := drawCounted next (config.queries * config.dims) config.dims corpus.2
  (⟨corpus.1, queries.1⟩, queries.2)

theorem drawFrom_eq_drawn (h : config.check = .ok ())
    (hcount : overflow = .wraps ∨ config.Countable) (source : σ) :
    drawFrom overflow next config source =
      (.ok (drawn next config source).1, (drawn next config source).2) := by
  simp only [drawFrom, h, drawSet_eq_some next _ (hcount.imp_right Config.Countable.vectors),
    drawSet_eq_some next _ (hcount.imp_right Config.Countable.queries)]
  rfl

theorem drawFrom_stops (h : config.check = .ok ()) (hcount : ¬ config.Countable) (source : σ) :
    (drawFrom .stops next config source).1 = .error .overflow := by
  by_cases hcorpus : config.samples.toNat * config.dims.toNat < UInt64.size
  · have hqueries : ¬ config.queries.toNat * config.dims.toNat < UInt64.size := fun hqueries =>
      hcount ⟨hcorpus, hqueries⟩
    simp only [drawFrom, h, drawSet_eq_some next _ (.inr hcorpus), drawSet_stops next _ hqueries]
  · simp only [drawFrom, h, drawSet_stops next _ hcorpus]

theorem drawn_fills_iff (h : config.check = .ok ()) (source : σ) :
    (drawn next config source).1.Fills config ↔ config.Countable := by
  have hdims : config.dims ≠ 0 := (configCheck_eq_ok_iff.1 h).2.1
  constructor
  · intro hfills
    exact ⟨(drawCounted_hasShape_iff next _ hdims).1 hfills.vectors,
      (drawCounted_hasShape_iff next _ hdims).1 hfills.queries⟩
  · intro hcount
    exact ⟨(drawCounted_hasShape_iff next _ hdims).2 hcount.vectors,
      (drawCounted_hasShape_iff next _ hdims).2 hcount.queries⟩

end

section

variable {overflow : Overflow} {config : Config}

theorem generate_of_check_error {e : ValidationError} (h : config.check = .error e) :
    generate overflow config = .error (.invalidConfig e) := by
  rw [generate, drawFrom_of_check_error _ h]

theorem generate_eq_drawn (h : config.check = .ok ())
    (hcount : overflow = .wraps ∨ config.Countable) :
    generate overflow config =
      .ok (drawn ChaCha.Stream.next config (.ofSeed config.seed)).1 := by
  rw [generate, drawFrom_eq_drawn _ h hcount]

theorem generate_stops (h : config.check = .ok ()) (hcount : ¬ config.Countable) :
    generate .stops config = .error .overflow := drawFrom_stops _ h hcount _

/-- A configuration without a zero count has a dataset if the program gets past the counts, and it
is the whole one if its numbers can be counted. -/
theorem generate_of_check (overflow : Overflow) (h : config.check = .ok ())
    (hcount : overflow = .wraps ∨ config.Countable) :
    ∃ dataset, generate overflow config = .ok dataset ∧
      (config.Countable → dataset.Fills config) :=
  ⟨_, generate_eq_drawn h hcount, (drawn_fills_iff _ h _).2⟩

/-- Either the program gets past the counts, or it stops at numbers that cannot be counted. -/
theorem goes_or_stops (overflow : Overflow) (config : Config) :
    (overflow = .wraps ∨ config.Countable) ∨ overflow = .stops ∧ ¬ config.Countable := by
  by_cases hcount : config.Countable
  · exact .inl (.inr hcount)
  · cases overflow with
    | stops => exact .inr ⟨rfl, hcount⟩
    | wraps => exact .inl (.inl rfl)

/-- A configuration without a zero count has the dataset asked for exactly if the numbers of its two
sets can be counted in 64 bits.  If they cannot, the program stops, or it goes on with rows of the
right length whose number is what 64 bits keep of the counts. -/
theorem generate_fills_iff (overflow : Overflow) (h : config.check = .ok ()) :
    ((∃ dataset, generate overflow config = .ok dataset ∧ dataset.Fills config) ↔
        config.Countable) ∧
      (generate overflow config = .error .overflow ↔ overflow = .stops ∧ ¬ config.Countable) ∧
      (overflow = .wraps ∨ config.Countable →
        ∃ dataset, generate overflow config = .ok dataset ∧
          (∀ row ∈ dataset.vectors.rows ++ dataset.queries.rows,
            row.length = config.dims.toNat) ∧
          dataset.vectors.rows.length =
            config.samples.toNat * config.dims.toNat % UInt64.size / config.dims.toNat ∧
          dataset.queries.rows.length =
            config.queries.toNat * config.dims.toNat % UInt64.size / config.dims.toNat ∧
          (dataset.Fills config ↔ config.Countable)) := by
  refine ⟨?_, ?_, ?_⟩
  · rcases goes_or_stops overflow config with hgoes | ⟨rfl, hcount⟩
    · rw [generate_eq_drawn h hgoes, ← drawn_fills_iff ChaCha.Stream.next h (.ofSeed config.seed)]
      constructor
      · rintro ⟨dataset, ⟨⟩, hfills⟩
        exact hfills
      · exact fun hfills => ⟨_, rfl, hfills⟩
    · rw [generate_stops h hcount]
      exact iff_of_false (fun ⟨_, hdataset, _⟩ => nomatch hdataset) hcount
  · rcases goes_or_stops overflow config with hgoes | ⟨rfl, hcount⟩
    · rw [generate_eq_drawn h hgoes]
      refine iff_of_false nofun fun ⟨hstops, hcount⟩ => ?_
      exact hgoes.elim (fun hwraps => nomatch hstops.symm.trans hwraps) hcount
    · exact iff_of_true (generate_stops h hcount) ⟨rfl, hcount⟩
  · intro hgoes
    refine ⟨_, generate_eq_drawn h hgoes, ?_, ?_, ?_, drawn_fills_iff _ h _⟩
    · intro row hrow
      rcases List.mem_append.1 hrow with hrow | hrow
      · exact length_of_mem_rows_drawCounted _ _ _ _ hrow
      · exact length_of_mem_rows_drawCounted _ _ _ _ hrow
    · exact length_rows_drawCounted_mul _ _
    · exact length_rows_drawCounted_mul _ _

end

/-- `2 ^ 63` rows of two numbers. -/
def uncounted : Config := ⟨9223372036854775808, 2, 1, 1, 0⟩

theorem uncounted_check : uncounted.check = .ok () := by decide

theorem not_countable_uncounted : ¬ uncounted.Countable := fun h => absurd h.vectors (by decide)

/-- The program stops at these, or nothing is left of their count and the corpus is empty. -/
theorem generate_fills_iff_uncounted :
    uncounted.check = .ok () ∧ generate .stops uncounted = .error .overflow ∧
      ∃ dataset, generate .wraps uncounted = .ok dataset ∧ dataset.vectors.rows.length = 0 ∧
        ¬ dataset.Fills uncounted := by
  obtain ⟨-, hstops, -⟩ := generate_fills_iff .stops uncounted_check
  obtain ⟨-, -, hwraps⟩ := generate_fills_iff .wraps uncounted_check
  obtain ⟨dataset, hdataset, -, hvectors, -, hfills⟩ := hwraps (.inl rfl)
  exact ⟨uncounted_check, hstops.2 ⟨rfl, not_countable_uncounted⟩, dataset, hdataset, hvectors,
    fun h => not_countable_uncounted (hfills.1 h)⟩

/-- That a configuration is accepted does not keep a program from stopping, nor, where it goes on,
give the dataset the shape asked for. -/
theorem not_forall_generate_shape :
    (¬ ∀ config : Config, config.check = .ok () → generate .stops config ≠ .error .overflow) ∧
      ¬ ∀ (config : Config) (dataset : Dataset), config.check = .ok () →
        generate .wraps config = .ok dataset →
        dataset.vectors.rows.length = config.samples.toNat ∧
          dataset.queries.rows.length = config.queries.toNat ∧
          ∀ row ∈ dataset.vectors.rows ++ dataset.queries.rows,
            row.length = config.dims.toNat := by
  constructor
  · intro h
    exact h _ uncounted_check (generate_stops uncounted_check not_countable_uncounted)
  · intro h
    obtain ⟨hrows, -, -⟩ := h _ _ uncounted_check (generate_eq_drawn uncounted_check (.inl rfl))
    have hnone := length_rows_drawCounted ChaCha.Stream.next
      (uncounted.samples * uncounted.dims) uncounted.dims (.ofSeed uncounted.seed)
    exact absurd (hnone.symm.trans hrows) (by decide)

end Dataset

end VectorBench
