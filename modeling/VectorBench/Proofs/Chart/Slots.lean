import VectorBench.Chart
import VectorBench.Proofs.Chart.Whole

/-!
# Slots of a chart

The slots cut a fixed number of pixels, so that with more engines each of them is narrower, while the
margins beside a bar stay as they are.  The first slot starts where the plot does and the last one of
an engine ends at most 543 pixels behind that; so no more than eleven slots can be 49 pixels wide, and
with eleven they are not because the empty slot at the end takes its share.

    slotStart n 0 = 80 and, if n is not too large for a number, slotStart n n ≤ 623   (slotStart_zero)
    every slot is wider than its margins ↔ n ≤ 10                                        (roomy_iff)
-/

namespace VectorBench

/-- The empty slot at the end is part of the plot. -/
theorem lastSlotWidth_mem (n : Nat) : 0 ≤ lastSlotWidth n ∧ lastSlotWidth n ≤ plotWidth := by
  rw [lastSlotWidth]
  rcases whole64_cases (n + 1) with hfinite | hinfinite
  · have hplot : (whole64 plotWidth).isFinite = true := whole64_isFinite (by decide)
    have hvalue : (whole64 plotWidth).value = plotWidth := whole64_value (by decide)
    have hzero := whole64_isZero n.succ_pos
    have hsign := Binary.div_negative hplot hfinite hzero
    have hquotient : |(whole64 plotWidth).value / (whole64 (n + 1)).value| ≤ plotWidth := by
      have hone := one_le_value n.succ_pos
      rw [hvalue, abs_of_nonneg (div_nonneg (by positivity) (le_trans zero_le_one hone))]
      exact div_le_self (by positivity) hone
    have hmagnitude := (Binary.div_nearest hplot hfinite hzero).mono (whole64_nearest plotWidth)
      (mul_le_mul_of_nonneg_right hquotient (by positivity))
    have hle := Binary.value_le_of_magnitude_le hsign (whole64_negative plotWidth) hmagnitude
    exact Binary.roundInt_mem hsign (hvalue ▸ hle)
  · rw [hinfinite, div_infinity (whole64_isFinite (by decide)), whole64_negative]
    exact Binary.roundInt_mem rfl ((Binary.zero_value false).trans_le (Nat.cast_nonneg plotWidth))

/-! ## Where slots start -/

/-- The pixel column at a share of the pixels for slots that are not empty. -/
def columnAt (width : Nat) (share : Binary64) : Int :=
  plotLeft + (whole64 width * share + pixelSlack).floorInt

theorem width_isFinite {width : Nat} (h : width ≤ plotWidth) : (whole64 width).isFinite = true :=
  whole64_isFinite (Nat.lt_of_le_of_lt h (by decide))

theorem columnAt_zero {width : Nat} (h : width ≤ plotWidth) :
    columnAt width (.zero false) = plotLeft := by
  have hfloor : (Binary.zero false + pixelSlack).floorInt = 0 := by decide +kernel
  rw [columnAt, Binary.mul_zero (width_isFinite h) (whole64_negative width), hfloor, Int.add_zero]

theorem columnAt_one {width : Nat} (h : width ≤ plotWidth) :
    columnAt width (whole64 1) = plotLeft + width := by
  have hall : ∀ width ∈ List.range (plotWidth + 1),
      (whole64 width + pixelSlack).floorInt = width := by decide +kernel
  rw [columnAt, mul_whole64_one (width_isFinite h), hall width (List.mem_range.2 (by omega))]

theorem exists_columnAt (n : Nat) : ∃ width ≤ plotWidth,
    ∀ k, slotStart n k = columnAt width (whole64 k / whole64 n) := by
  obtain ⟨hlow, hhigh⟩ := lastSlotWidth_mem n
  obtain ⟨width, hwidth⟩ := Int.eq_ofNat_of_zero_le (Int.sub_nonneg_of_le hhigh)
  refine ⟨width, by omega, fun k => ?_⟩
  rw [slotStart, hwidth]
  rfl

/-- The first slot starts where the plot does. -/
theorem slotStart_zero {n : Nat} (h : 0 < n) : slotStart n 0 = plotLeft := by
  obtain ⟨width, hwidth, hstart⟩ := exists_columnAt n
  rw [hstart, whole64_zero_div h, columnAt_zero hwidth]

/-- The slots of the engines end within the plot. -/
theorem slotStart_self_le {n : Nat} (h : 0 < n) (hfinite : (whole64 n).isFinite = true) :
    slotStart n n ≤ plotLeft + plotWidth := by
  obtain ⟨width, hwidth, hstart⟩ := exists_columnAt n
  rw [hstart, whole64_div_self h hfinite, columnAt_one hwidth]
  omega

/-! ## Slots that are wide enough -/

/-- Every slot is wider than the margins on both sides of a bar. -/
def Roomy (n : Nat) : Prop := ∀ k < n, slotStart n k + 2 * barMargin < slotStart n (k + 1)

theorem Roomy.apart {n i j : Nat} (h : Roomy n) (hij : i ≤ j) (hj : j ≤ n) :
    slotStart n i + (2 * barMargin + 1) * (j - i : Nat) ≤ slotStart n j := by
  induction j, hij using Nat.le_induction with
  | base => simp
  | succ j hij ih =>
    have hstep := h j (by omega)
    have hlast := ih (by omega)
    rw [Nat.succ_sub hij]
    push_cast at hlast ⊢
    rw [Int.mul_add]
    omega

theorem roomy_of_le {n : Nat} (h : n ≤ 10) : Roomy n := by
  have hall : ∀ n ∈ List.range 11, ∀ k ∈ List.range n,
      slotStart n k + 2 * barMargin < slotStart n (k + 1) := by decide +kernel
  exact fun k hk => hall n (List.mem_range.2 (by omega)) k (List.mem_range.2 hk)

theorem not_roomy {n : Nat} (h : 11 ≤ n) : ¬ Roomy n := by
  intro hroomy
  rcases whole64_cases n with hfinite | hinfinite
  · rcases Nat.lt_or_eq_of_le h with hmore | rfl
    · -- twelve slots would need more pixels than there are
      have hwide := hroomy.apart n.zero_le le_rfl
      rw [slotStart_zero (by omega)] at hwide
      have hend := slotStart_self_le (by omega) hfinite
      simp only [barMargin, plotWidth] at hwide hend
      omega
    · exact absurd (hroomy 0 (by decide)) (by decide +kernel)
  · -- so many engines that none has a share of the plot
    have hfirst := hroomy 0 (by omega)
    obtain ⟨width, -, hstart⟩ := exists_columnAt n
    rw [Nat.zero_add, hstart 0, hstart 1, hinfinite, div_infinity (whole64_isFinite (by norm_num)),
      div_infinity (whole64_isFinite (by norm_num)), whole64_negative, whole64_negative,
      barMargin] at hfirst
    omega

theorem roomy_iff {n : Nat} : Roomy n ↔ n ≤ 10 :=
  ⟨fun h => Nat.le_of_not_lt fun hlt => not_roomy hlt h, roomy_of_le⟩

end VectorBench
