import VectorBench.Proofs.Dataset.Shape
import VectorBench.Proofs.Dataset.Uniform

/-!
# Rows as blocks of words

What a dataset is made of, said without drawing: row `i` of the corpus and the queries together is
the `i`-th block of words of the source, each word mapped to its number and the whole scaled to norm
one.  Neither the number of rows nor the place where the queries begin moves any word, so datasets
of one dimension from one source agree as far as both go.

    drawNumbers next count drawn source = (drawn.reverse ++ numbers, sourceAfter next count source)
                                                                                   (drawNumbers_eq)
    (drawCounted next (rows * dim) dim source).1.rows = normalized blocks 0, 1, ..., rows - 1
                                                                                 (rows_drawCounted)
    corpus rows ++ query rows = normalized blocks 0, 1, ..., samples + queries - 1 (drawFrom_blocks)
-/

namespace VectorBench

/-! ## Sources -/

section

variable {σ : Type} (next : σ → UInt32 × σ)

def sourceAfter : Nat → σ → σ
  | 0, source => source
  | count + 1, source => sourceAfter count (next source).2

/-- The word that a source yields after `place` others. -/
def wordAt (source : σ) (place : Nat) : UInt32 := (next (sourceAfter next place source)).1

/-- The numbers of the words from `index * dim` on, before they are scaled. -/
def blockAt (dim : Nat) (source : σ) (index : Nat) : Vector32 :=
  (List.range dim).map fun place => uniform (wordAt next source (index * dim + place))

theorem sourceAfter_add (m n : Nat) (source : σ) :
    sourceAfter next (m + n) source = sourceAfter next n (sourceAfter next m source) := by
  induction m generalizing source with
  | zero => rw [Nat.zero_add, sourceAfter]
  | succ m ih => rw [Nat.succ_add, sourceAfter, sourceAfter, ih]

theorem wordAt_sourceAfter (m : Nat) (source : σ) (place : Nat) :
    wordAt next (sourceAfter next m source) place = wordAt next source (m + place) := by
  rw [wordAt, wordAt, sourceAfter_add]

theorem blockAt_sourceAfter (dim rows : Nat) (source : σ) (index : Nat) :
    blockAt next dim (sourceAfter next (rows * dim) source) index =
      blockAt next dim source (rows + index) := by
  rw [blockAt, blockAt]
  simp only [wordAt_sourceAfter, Nat.add_mul, Nat.add_assoc]

/-- Drawing yields the numbers of the words at the front, in their order. -/
theorem drawNumbers_eq (count : Nat) (drawn : Vector32) (source : σ) :
    drawNumbers next count drawn source =
      (drawn.reverse ++ (List.range count).map fun place => uniform (wordAt next source place),
        sourceAfter next count source) := by
  induction count generalizing drawn source with
  | zero => rw [drawNumbers, List.range_zero, List.map_nil, List.append_nil, sourceAfter]
  | succ count ih =>
    show drawNumbers next count (uniform (next source).1 :: drawn) (next source).2 = _
    rw [ih, List.range_succ_eq_map, List.map_cons, List.map_map, List.reverse_cons,
      List.append_assoc]
    rfl

end

/-! ## Rows -/

/-- Consecutive numbers, cut into rows. -/
theorem takeRows_map_range (dim count : Nat) (number : Nat → Binary32) :
    takeRows dim count ((List.range (count * dim)).map number) =
      (List.range count).map fun index =>
        (List.range dim).map fun place => number (index * dim + place) := by
  induction count generalizing number with
  | zero => rfl
  | succ count ih =>
    have hsplit : (List.range ((count + 1) * dim)).map number =
        (List.range dim).map number ++
          (List.range (count * dim)).map fun place => number (dim + place) := by
      rw [Nat.succ_mul, Nat.add_comm, List.range_add, List.map_append, List.map_map]
      rfl
    have hfirst : ((List.range dim).map number).length = dim := by
      rw [List.length_map, List.length_range]
    have hnext : ∀ index place, dim + (index * dim + place) = (index + 1) * dim + place := by
      intro index place
      rw [Nat.succ_mul]
      omega
    rw [takeRows, hsplit, List.take_left' hfirst, List.drop_left' hfirst, ih,
      List.range_succ_eq_map, List.map_cons, List.map_map]
    simp only [hnext, Nat.zero_mul, Nat.zero_add]
    rfl

/-- Scaling the rows of a list that ends with a row leaves no number unscaled, and the rows stay
apart. -/
theorem rowsOf_normalizeRows {dim : Nat} (hdim : 0 < dim) {data : Vector32}
    (h : data.length / dim * dim = data.length) :
    rowsOf dim (normalizeRows dim data) = (rowsOf dim data).map normalize := by
  have hrest : data.drop ((rowsOf dim data).length * dim) = [] := by
    rw [length_rowsOf, h, List.drop_length]
  rw [normalizeRows]
  simp only [hrest, List.append_nil]
  apply rowsOf_flatten hdim
  rw [List.forall_mem_map]
  intro row hrow
  rw [length_normalize]
  exact length_of_mem_takeRows h.le hrow

/-! ## Sets -/

section

variable {σ : Type} (next : σ → UInt32 × σ) {rows dim : UInt64}
  (hfit : rows.toNat * dim.toNat < UInt64.size) (source : σ)

include hfit

theorem source_drawCounted :
    (drawCounted next (rows * dim) dim source).2 =
      sourceAfter next (rows.toNat * dim.toNat) source := by
  rw [drawCounted, drawNumbers_eq, toNat_mul_of_fit hfit]

/-- The rows of a set are the blocks at the front of the source. -/
theorem rows_drawCounted (hdim : dim ≠ 0) :
    (drawCounted next (rows * dim) dim source).1.rows =
      (List.range rows.toNat).map fun index => normalize (blockAt next dim.toNat source index) := by
  have hpos := toNat_pos hdim
  rw [drawCounted, drawNumbers_eq, toNat_mul_of_fit hfit, VectorSet.rows]
  simp only [List.reverse_nil, List.nil_append]
  generalize hdata : ((List.range (rows.toNat * dim.toNat)).map fun place =>
    uniform (wordAt next source place)) = data
  have hlength : data.length = rows.toNat * dim.toNat := by
    rw [← hdata, List.length_map, List.length_range]
  have hwhole : data.length / dim.toNat = rows.toNat := by
    rw [hlength, Nat.mul_div_cancel _ hpos]
  rw [rowsOf_normalizeRows hpos (by rw [hwhole, hlength]), rowsOf, hwhole, ← hdata,
    takeRows_map_range, List.map_map]
  rfl

end

/-- Of rows that a rule gives by their places, fewer are the beginning of more. -/
theorem map_range_isPrefix {short long : Nat} {row : Nat → Vector32}
    (h : ((List.range short).map row).length ≤ ((List.range long).map row).length) :
    (List.range short).map row <+: (List.range long).map row := by
  simp only [List.length_map, List.length_range] at h
  obtain ⟨more, rfl⟩ := Nat.exists_eq_add_of_le h
  rw [List.range_add, List.map_append]
  exact List.prefix_append _ _

/-! ## Datasets -/

namespace Dataset

/-- The rows of the corpus, then those of the queries. -/
def rows (dataset : Dataset) : List Vector32 := dataset.vectors.rows ++ dataset.queries.rows

/-- The shorter of the two row sequences is a prefix of the longer one. -/
def Agree (dataset other : Dataset) : Prop :=
  (dataset.rows.length ≤ other.rows.length → dataset.rows <+: other.rows) ∧
    (other.rows.length ≤ dataset.rows.length → other.rows <+: dataset.rows)

section

variable {σ : Type} (next : σ → UInt32 × σ)

/-- The dataset has the shape of the configuration, its rows are the normalized blocks at the front
of the source, and `rest` is the source behind these. -/
structure DrawnFrom (config : Config) (source : σ) (dataset : Dataset) (rest : σ) : Prop where
  fills : dataset.Fills config
  rows_eq : dataset.rows = (List.range (config.samples.toNat + config.queries.toNat)).map
    fun index => normalize (blockAt next config.dims.toNat source index)
  rest_eq : rest = sourceAfter next
    ((config.samples.toNat + config.queries.toNat) * config.dims.toNat) source

variable {next} {overflow : Overflow} {source : σ} {config : Config} {dataset : Dataset} {rest : σ}

/-- The queries go on in the source where the corpus ends. -/
theorem drawFrom_drawn (hcheck : config.check = .ok ()) (hcount : config.Countable) :
    ∃ dataset rest, drawFrom overflow next config source = (.ok dataset, rest) ∧
      DrawnFrom next config source dataset rest := by
  have hdims : config.dims ≠ 0 := (configCheck_eq_ok_iff.1 hcheck).2.1
  have hcorpus := source_drawCounted next hcount.vectors source
  refine ⟨_, _, drawFrom_eq_drawn next hcheck (.inr hcount) source, ?_⟩
  constructor
  · exact (drawn_fills_iff next hcheck source).2 hcount
  · rw [rows, drawn]
    simp only
    rw [rows_drawCounted next hcount.vectors _ hdims, rows_drawCounted next hcount.queries _ hdims,
      hcorpus, List.range_add, List.map_append, List.map_map]
    simp only [blockAt_sourceAfter]
    rfl
  · rw [drawn]
    simp only
    rw [source_drawCounted next hcount.queries, hcorpus, ← sourceAfter_add, Nat.add_mul]

/-- Datasets of one dimension from one source agree. -/
theorem DrawnFrom.agree {config' : Config} {dataset' : Dataset} {rest' : σ}
    (h : DrawnFrom next config source dataset rest)
    (h' : DrawnFrom next config' source dataset' rest') (hdims : config.dims = config'.dims) :
    dataset.Agree dataset' := by
  rw [Agree, h.rows_eq, h'.rows_eq, hdims]
  exact ⟨map_range_isPrefix, map_range_isPrefix⟩

theorem drawFrom_agree {config' : Config} (hcheck : config.check = .ok ())
    (hcount : config.Countable) (hcheck' : config'.check = .ok ()) (hcount' : config'.Countable)
    (hdims : config.dims = config'.dims) (overflow : Overflow) (next : σ → UInt32 × σ)
    (source : σ) :
    ∃ dataset dataset', (drawFrom overflow next config source).1 = .ok dataset ∧
      (drawFrom overflow next config' source).1 = .ok dataset' ∧ dataset.Agree dataset' := by
  obtain ⟨dataset, rest, hdraw, hdrawn⟩ := drawFrom_drawn hcheck hcount
  obtain ⟨dataset', rest', hdraw', hdrawn'⟩ := drawFrom_drawn hcheck' hcount'
  exact ⟨dataset, dataset', by rw [hdraw], by rw [hdraw'], hdrawn.agree hdrawn' hdims⟩

end

/-- The law of drawing.  Every word stands for one number in `[0, 1)`.  A configuration that is
refused takes no word; one whose numbers can be counted takes exactly as many words as its rows have
numbers, and each row is the normalized block of words at its place.  So of two datasets of one
dimension, from one source or from one seed, the shorter one is the beginning of the longer one. -/
theorem drawFrom_blocks {σ : Type} (overflow : Overflow) (next : σ → UInt32 × σ) (source : σ)
    (config : Config) :
    (∀ word, IsFraction word (uniform word)) ∧
      (∀ e, config.check = .error e →
        drawFrom overflow next config source = (.error (.invalidConfig e), source)) ∧
      (config.check = .ok () → config.Countable →
        (∃ dataset rest, drawFrom overflow next config source = (.ok dataset, rest) ∧
          DrawnFrom next config source dataset rest) ∧
        ∀ config' : Config, config'.check = .ok () → config'.Countable →
          config.dims = config'.dims →
          (∃ dataset dataset', (drawFrom overflow next config source).1 = .ok dataset ∧
            (drawFrom overflow next config' source).1 = .ok dataset' ∧ dataset.Agree dataset') ∧
          (config.seed = config'.seed → ∃ dataset dataset',
            generate overflow config = .ok dataset ∧ generate overflow config' = .ok dataset' ∧
              dataset.Agree dataset')) := by
  refine ⟨uniform_isFraction, fun e he => drawFrom_of_check_error next he source, ?_⟩
  intro hcheck hcount
  refine ⟨drawFrom_drawn hcheck hcount, fun config' hcheck' hcount' hdims => ⟨?_, ?_⟩⟩
  · exact drawFrom_agree hcheck hcount hcheck' hcount' hdims overflow next source
  · intro hseed
    rw [generate, generate, ← hseed]
    exact drawFrom_agree hcheck hcount hcheck' hcount' hdims overflow _ _

def countingSource (n : Nat) : UInt32 × Nat := (n.toUInt32, n + 1)

theorem drawFrom_blocks_counting :
    (∃ dataset, drawFrom .stops countingSource ⟨2, 3, 1, 1, 7⟩ 0 = (.ok dataset, 9) ∧
      DrawnFrom countingSource ⟨2, 3, 1, 1, 7⟩ 0 dataset 9) ∧
    ∃ dataset dataset', generate .stops ⟨2, 3, 1, 1, 7⟩ = .ok dataset ∧
      generate .stops ⟨1, 3, 5, 4, 7⟩ = .ok dataset' ∧ dataset.Agree dataset' := by
  obtain ⟨-, -, hlaw⟩ := drawFrom_blocks .stops countingSource 0 ⟨2, 3, 1, 1, 7⟩
  obtain ⟨⟨dataset, rest, hdraw, hdrawn⟩, hother⟩ := hlaw (by decide) ⟨by decide, by decide⟩
  obtain ⟨-, hseed⟩ := hother ⟨1, 3, 5, 4, 7⟩ (by decide) ⟨by decide, by decide⟩ rfl
  have hrest : rest = 9 := hdrawn.rest_eq
  subst hrest
  exact ⟨⟨dataset, hdraw, hdrawn⟩, hseed rfl⟩

end Dataset

end VectorBench
