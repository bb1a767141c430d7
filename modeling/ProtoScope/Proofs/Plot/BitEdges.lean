/-
The edges of a bit.

The search for the edges of a range collects them up to a limit and skips the blocks in
which the bit is constant.  It finds all of them, in their order, exactly when there are not
more than the limit.
-/
import ProtoScope.Library.HalvingSearch
import ProtoScope.Proofs.Plot.QueryViews

namespace ProtoScope.Plot

open ProtoScope.Library
open WaveScalar

namespace WaveQueryView

variable {α : Type} [WaveArith α] {view : WaveQueryView α} {bit : Fin 64} {left right i : ℕ}

/-! ### The edges of a range -/

/-- The positions in `[left, right)` where the bit differs from the sample before. -/
def edgesIn (view : WaveQueryView α) (bit : Fin 64) (left right : ℕ) : List ℕ :=
  (List.range' left (right - left)).filter fun i =>
    view.bitState bit i != view.bitState bit (i - 1)

theorem mem_edgesIn :
    i ∈ view.edgesIn bit left right ↔
      (left ≤ i ∧ i < right) ∧ view.bitState bit i ≠ view.bitState bit (i - 1) := by
  unfold edgesIn
  rw [List.mem_filter, List.mem_range'_1, bne_iff_ne]
  constructor
  · rintro ⟨h, hne⟩
    exact ⟨by omega, hne⟩
  · rintro ⟨h, hne⟩
    exact ⟨by omega, hne⟩

theorem edgesIn_split {mid : ℕ} (hleft : left ≤ mid) (hright : mid ≤ right) :
    view.edgesIn bit left right = view.edgesIn bit left mid ++ view.edgesIn bit mid right := by
  unfold edgesIn
  rw [HalvingSearch.range'_split hleft hright, List.filter_append]

theorem edgesIn_eq_nil (h : ∀ i, left ≤ i → i < right →
    view.bitState bit i = view.bitState bit (i - 1)) : view.edgesIn bit left right = [] := by
  rw [List.eq_nil_iff_forall_not_mem]
  intro i hi
  obtain ⟨⟨hleft, hright⟩, hne⟩ := mem_edgesIn.mp hi
  exact hne (h i hleft hright)

/-- Without an edge the bit stays what it was before the range. -/
theorem state_of_no_edge (h : view.edgesIn bit left right = []) :
    ∀ i, left - 1 ≤ i → i < right → view.bitState bit i = view.bitState bit (left - 1) := by
  intro i
  induction i with
  | zero =>
    intro hleft _
    rw [Nat.le_zero.mp hleft]
  | succ i ih =>
    intro hleft hright
    rcases Nat.eq_or_lt_of_le hleft with heq | hlt
    · rw [heq]
    · have hsame : view.bitState bit (i + 1) = view.bitState bit i := by
        by_contra hne
        have hmem : i + 1 ∈ view.edgesIn bit left right :=
          mem_edgesIn.mpr ⟨⟨by omega, hright⟩, hne⟩
        rw [h] at hmem
        cases hmem
      rw [hsame, ih (by omega) (by omega)]

/-- **The first edge of a range** and those after it. -/
theorem edgesIn_cons {rest : List ℕ} (h : view.edgesIn bit left right = i :: rest) :
    (left ≤ i ∧ i < right) ∧ view.bitState bit i ≠ view.bitState bit (left - 1) ∧
      rest = view.edgesIn bit (i + 1) right := by
  have hmem : i ∈ view.edgesIn bit left right := h ▸ List.mem_cons_self
  obtain ⟨hin, hne⟩ := mem_edgesIn.mp hmem
  have hbefore : view.edgesIn bit left i = [] := by
    rw [edgesIn_split hin.1 hin.2.le] at h
    cases hfront : view.edgesIn bit left i with
    | nil => rfl
    | cons j front =>
      rw [hfront] at h
      obtain rfl := List.head_eq_of_cons_eq h
      have hj : j ∈ view.edgesIn bit left j := hfront ▸ List.mem_cons_self
      exact absurd (mem_edgesIn.mp hj).1.2 (Nat.lt_irrefl j)
  have hone : view.edgesIn bit i (i + 1) = [i] := by
    have hlength : i + 1 - i = 1 := Nat.add_sub_cancel_left i 1
    unfold edgesIn
    rw [hlength]
    simpa using hne
  rw [edgesIn_split hin.1 hin.2.le, hbefore,
    edgesIn_split (Nat.le_succ i) (Nat.succ_le_of_lt hin.2), hone] at h
  refine ⟨hin, ?_, (List.tail_eq_of_cons_eq h).symm⟩
  rcases Nat.eq_or_lt_of_le hin.1 with rfl | hlt
  · exact hne
  · rwa [state_of_no_edge hbefore (i - 1) (by omega) (by omega)] at hne

/-- A run of edges, and those after it. -/
theorem edgesIn_group {rest : List ℕ} :
    ∀ (group : List ℕ) (first left : ℕ), view.edgesIn bit left right = first :: (group ++ rest) →
      rest = view.edgesIn bit (group.getLastD first + 1) right ∧
        group.getLastD first < right ∧ group.getLastD first ∈ first :: group ∧
        ∀ i ∈ first :: group, first ≤ i ∧ i ≤ group.getLastD first := by
  intro group
  induction group with
  | nil =>
    intro first left h
    obtain ⟨hin, -, hrest⟩ := edgesIn_cons h
    exact ⟨hrest, hin.2, List.mem_cons_self, fun i hi => by
      obtain rfl := List.mem_singleton.mp hi
      exact ⟨Nat.le_refl _, Nat.le_refl _⟩⟩
  | cons second group ih =>
    intro first left h
    obtain ⟨hin, -, hnext⟩ := edgesIn_cons h
    obtain ⟨hrest, hlast, hmem, hgroup⟩ := ih second (first + 1) hnext.symm
    have hsecond := (edgesIn_cons hnext.symm).1
    rw [List.getLastD_cons]
    refine ⟨hrest, hlast, List.mem_cons_of_mem _ hmem, ?_⟩
    intro i hi
    rcases List.mem_cons.mp hi with rfl | hi
    · have := hgroup second List.mem_cons_self
      omega
    · have := hgroup i hi
      omega

/-! ### Finding them -/

theorem collectEdges_eq (limit : ℕ) :
    ∀ (indices edges : List ℕ), edges.length ≤ limit →
      let found := indices.filter fun i => view.bitState bit i != view.bitState bit (i - 1)
      (edges.length + found.length ≤ limit →
        view.collectEdges bit limit indices edges = (true, edges ++ found)) ∧
      (limit < edges.length + found.length →
        (view.collectEdges bit limit indices edges).1 = false) := by
  intro indices
  induction indices with
  | nil =>
    intro edges hedges
    refine ⟨fun _ => by rw [List.filter_nil, List.append_nil]; rfl, fun hmore => ?_⟩
    rw [List.filter_nil, List.length_nil] at hmore
    omega
  | cons i indices ih =>
    intro edges hedges
    dsimp only
    rw [List.filter_cons]
    unfold collectEdges
    split
    · rw [List.length_cons]
      split
      · rename_i hfull
        exact ⟨fun hfits => by omega, fun _ => rfl⟩
      · obtain ⟨hall, hsome⟩ := ih (edges ++ [i]) (by
          rw [List.length_append, List.length_singleton]
          omega)
        rw [List.length_append, List.length_singleton] at hall hsome
        refine ⟨fun hfits => ?_, fun hmore => hsome (by omega)⟩
        rw [hall (by omega), List.append_assoc]
        rfl
    · exact ih edges hedges

variable [LawfulWaveScalar α]

/-- **The search finds all edges of a range, unless there are more than the limit.** -/
theorem findEdges_eq (hsync : view.channel.Synced) (limit : ℕ) :
    ∀ (fuel left right : ℕ) (edges : List ℕ), right - left ≤ fuel → 1 ≤ left →
      right ≤ view.size → edges.length ≤ limit →
      (edges.length + (view.edgesIn bit left right).length ≤ limit →
        view.findEdges bit limit fuel left right edges =
          (true, edges ++ view.edgesIn bit left right)) ∧
      (limit < edges.length + (view.edgesIn bit left right).length →
        (view.findEdges bit limit fuel left right edges).1 = false) := by
  intro fuel
  induction fuel with
  | zero =>
    intro left right edges hfuel hleft hright hedges
    rw [edgesIn_eq_nil fun i hi hlt => by omega, List.append_nil, List.length_nil]
    exact ⟨fun _ => rfl, fun hmore => by omega⟩
  | succ fuel ih =>
    intro left right edges hfuel hleft hright hedges
    unfold findEdges
    by_cases hempty : right ≤ left
    · rw [if_pos hempty, edgesIn_eq_nil fun i hi hlt => by omega, List.append_nil, List.length_nil]
      exact ⟨fun _ => rfl, fun hmore => by omega⟩
    rw [if_neg hempty]
    by_cases hconstant : constantBit bit (view.summary (left - 1) right) = true
    · have hall := (constantBit_summary hsync (by omega) hright bit).mp hconstant
      have hnone : view.edgesIn bit left right = [] := edgesIn_eq_nil fun i hi hlt => by
        rw [hall i (by omega) hlt, hall (i - 1) (by omega) (by omega)]
      rw [if_pos hconstant, hnone, List.append_nil, List.length_nil]
      exact ⟨fun _ => rfl, fun hmore => by omega⟩
    rw [if_neg hconstant]
    by_cases hleaf : right - left ≤ blockSize
    · rw [if_pos hleaf]
      exact collectEdges_eq limit _ edges hedges
    rw [if_neg hleaf]
    have hlong : 256 < right - left := Nat.lt_of_not_le hleaf
    dsimp only
    generalize hmid : left + (right - left) / 2 = mid
    have hsplit := @edgesIn_split _ _ view bit left right mid (by omega) (by omega)
    obtain ⟨hall, hsome⟩ := ih left mid edges (by omega) hleft (by omega) hedges
    rw [hsplit, List.length_append]
    rcases Nat.lt_or_ge limit (edges.length + (view.edgesIn bit left mid).length) with hmore | hfits
    · have hfailed := hsome hmore
      refine ⟨fun h => by omega, fun _ => ?_⟩
      generalize view.findEdges bit limit fuel left mid edges = found at hfailed
      obtain ⟨ok, edges'⟩ := found
      cases hfailed
      rfl
    · obtain ⟨hall', hsome'⟩ := ih mid right (edges ++ view.edgesIn bit left mid) (by omega)
        (by omega) hright (by rw [List.length_append]; exact hfits)
      rw [List.length_append] at hall' hsome'
      rw [hall hfits]
      dsimp only
      refine ⟨fun h => ?_, fun h => hsome' (by omega)⟩
      rw [hall' (by omega), List.append_assoc]

/-- What the search says of a range of its own. -/
theorem findEdges_found (hsync : view.channel.Synced) (limit : ℕ) (hleft : 1 ≤ left)
    (hright : right ≤ view.size) :
    let found := view.findEdges bit limit (right - left) left right []
    (found.1 = true → found.2 = view.edgesIn bit left right ∧ found.2.length ≤ limit) ∧
      (found.1 = false → view.edgesIn bit left right ≠ []) := by
  obtain ⟨hall, hsome⟩ := @findEdges_eq _ _ view bit _ hsync limit (right - left) left right []
    (Nat.le_refl _) hleft hright (Nat.zero_le _)
  rw [List.length_nil, Nat.zero_add] at hall hsome
  rw [List.nil_append] at hall
  dsimp only
  rcases Nat.lt_or_ge limit (view.edgesIn bit left right).length with hmore | hfits
  · rw [hsome hmore]
    refine ⟨fun h => Bool.noConfusion h, fun _ hnone => ?_⟩
    rw [hnone] at hmore
    exact Nat.not_lt_zero _ hmore
  · rw [hall hfits]
    exact ⟨fun _ => ⟨rfl, hfits⟩, fun h => Bool.noConfusion h⟩

end WaveQueryView

end ProtoScope.Plot
