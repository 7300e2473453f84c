import Mathlib.Algebra.BigOperators.Group.List.Basic
import Mathlib.Algebra.Order.BigOperators.Group.List
import Mathlib.Algebra.Order.Field.Rat
import Mathlib.Data.List.Induction
import ProgressiveFrame.Sample

/-!
# Samples merge in any order

A merge divides by the number of rays so far, and forgets a colour that no ray carries. In exact arithmetic none of
this shows in the end.

* `Sample.pooled`: the mean colour of the rays of many samples.
* `Sample.Pools`: a sample stands for others when it has their rays and their light. A merge adds up both
  (`Pools.merge`).
* `MergeTree`: which samples are merged, in which order and with which brackets.
* `MergeTree.eval_eq_pooled`: every tree over the same samples gives their pooled sample, so that a machine's own
  contribution completes what all others contributed.
-/

namespace ProgressiveFrame

/-! ## Adding colours -/

theorem Rgb.eq_of_components {α : Type} {c d : Rgb α} (hr : c.r = d.r) (hg : c.g = d.g) (hb : c.b = d.b) : c = d := by
  cases c
  cases d
  simp_all

instance : Zero (Rgb ℚ) := ⟨.uniform 0⟩

instance : Add (Rgb ℚ) := ⟨.zipWith (· + ·)⟩

/-- Colours add up component by component. -/
instance : AddCommMonoid (Rgb ℚ) where
  add_assoc _ _ _ := Rgb.eq_of_components (add_assoc _ _ _) (add_assoc _ _ _) (add_assoc _ _ _)
  zero_add _ := Rgb.eq_of_components (zero_add _) (zero_add _) (zero_add _)
  add_zero _ := Rgb.eq_of_components (add_zero _) (add_zero _) (add_zero _)
  add_comm _ _ := Rgb.eq_of_components (add_comm _ _) (add_comm _ _) (add_comm _ _)
  nsmul := nsmulRec

namespace Sample

/-! ## The pooled sample -/

/-- What all rays of a sample bring together. -/
def light (s : Sample ℚ) : Rgb ℚ := s.color.map (s.count * ·)

/-- The number of rays of samples. -/
def totalCount (xs : List (Sample ℚ)) : ℚ := (xs.map (·.count)).sum

/-- What all rays of samples bring together. -/
def totalLight (xs : List (Sample ℚ)) : Rgb ℚ := (xs.map light).sum

/-- The mean colour of the rays of samples, and their number. Without rays it is the sample of no rays. -/
def pooled (xs : List (Sample ℚ)) : Sample ℚ :=
  if totalCount xs = 0 then zero else ⟨(totalLight xs).map (· / totalCount xs), totalCount xs⟩

theorem totalCount_append (xs ys : List (Sample ℚ)) : totalCount (xs ++ ys) = totalCount xs + totalCount ys := by
  simp [totalCount]

theorem totalLight_append (xs ys : List (Sample ℚ)) : totalLight (xs ++ ys) = totalLight xs + totalLight ys := by
  simp [totalLight]

theorem pooled_perm {xs ys : List (Sample ℚ)} (h : xs.Perm ys) : pooled xs = pooled ys := by
  have hcount : totalCount xs = totalCount ys := (h.map _).sum_eq
  have hlight : totalLight xs = totalLight ys := (h.map _).sum_eq
  rw [pooled, pooled, hcount, hlight]

theorem totalCount_nonneg {xs : List (Sample ℚ)} (h : ∀ s ∈ xs, 0 ≤ s.count) : 0 ≤ totalCount xs :=
  List.sum_nonneg (by simpa using h)

/-! ## Merges -/

/-- The sample has the rays and the light of others. -/
structure Pools (s : Sample ℚ) (xs : List (Sample ℚ)) : Prop where
  count : s.count = totalCount xs
  light : s.light = totalLight xs

/-- Without rays there is no light. -/
theorem light_eq_zero {s : Sample ℚ} (h : s.count = 0) : s.light = 0 := by
  rw [light, h]
  exact Rgb.eq_of_components (zero_mul _) (zero_mul _) (zero_mul _)

theorem Pools.zero : Pools zero [] := ⟨rfl, light_eq_zero rfl⟩

theorem Pools.single (s : Sample ℚ) : Pools s [s] where
  count := by simp [totalCount]
  light := by simp [totalLight]

/-- One component of two colours, mixed by shares of the rays, is the light of both over all rays. -/
theorem mixed_eq_div (v w n m total : ℚ) : v * (n / total) + w * (m / total) = (n * v + m * w) / total := by
  rw [← mul_div_assoc, ← mul_div_assoc, ← add_div, mul_comm v, mul_comm w]

/-- A merge of samples with rays mixes their light. -/
theorem merge_of_pos {a b : Sample ℚ} (h : 0 < a.count + b.count) :
    a.merge b = ⟨(a.light + b.light).map (· / (a.count + b.count)), a.count + b.count⟩ := by
  have hlt : Scalar.lt Scalar.zero (a.count + b.count) = true := Scalar.lt_rat.mpr h
  rw [merge, if_pos hlt]
  exact congrArg (Sample.mk · _) (Rgb.eq_of_components (mixed_eq_div ..) (mixed_eq_div ..) (mixed_eq_div ..))

theorem merge_of_eq_zero {a b : Sample ℚ} (h : a.count + b.count = 0) : a.merge b = zero := by
  have hlt : ¬ Scalar.lt Scalar.zero (a.count + b.count) = true := fun hlt => (Scalar.lt_rat.mp hlt).ne h.symm
  rw [merge, if_neg hlt]

/-- The pooled sample has the light of the samples, unless they have light without rays. -/
theorem pools_pooled {xs : List (Sample ℚ)} (h : totalCount xs = 0 → totalLight xs = 0) : Pools (pooled xs) xs := by
  rw [pooled]
  split
  case isTrue hnone => exact ⟨hnone.symm, (h hnone).symm ▸ Pools.zero.light⟩
  case isFalse hsome =>
    exact ⟨rfl, Rgb.eq_of_components (mul_div_cancel₀ _ hsome) (mul_div_cancel₀ _ hsome) (mul_div_cancel₀ _ hsome)⟩

theorem Pools.totalLight_eq_zero {s : Sample ℚ} {xs : List (Sample ℚ)} (h : Pools s xs) (hnone : totalCount xs = 0) :
    totalLight xs = 0 :=
  h.light.symm.trans (light_eq_zero (h.count.trans hnone))

section Merge

variable {a b : Sample ℚ} {xs ys : List (Sample ℚ)} (ha : Pools a xs) (hb : Pools b ys)
  (hxs : 0 ≤ totalCount xs) (hys : 0 ≤ totalCount ys)
include ha hb hxs hys

/-- What comes of a merge is the pooled sample of both sides, whatever these stood for. -/
theorem Pools.merge_eq_pooled : a.merge b = pooled (xs ++ ys) := by
  have hcount : a.count + b.count = totalCount (xs ++ ys) := by rw [ha.count, hb.count, totalCount_append]
  have hlight : a.light + b.light = totalLight (xs ++ ys) := by rw [ha.light, hb.light, totalLight_append]
  have htotal : 0 ≤ totalCount (xs ++ ys) := by rw [totalCount_append]; exact add_nonneg hxs hys
  rw [pooled]
  split
  case isTrue hnone => exact merge_of_eq_zero (hcount.trans hnone)
  case isFalse hsome =>
    have hpos : 0 < a.count + b.count := hcount ▸ lt_of_le_of_ne htotal (Ne.symm hsome)
    rw [merge_of_pos hpos, hcount, hlight]

/-- A merge stands for what both sides stood for. -/
theorem Pools.merge : Pools (a.merge b) (xs ++ ys) := by
  rw [ha.merge_eq_pooled hb hxs hys]
  refine pools_pooled fun hnone => ?_
  rw [totalCount_append] at hnone
  obtain ⟨hx, hy⟩ := (add_eq_zero_iff_of_nonneg hxs hys).mp hnone
  rw [totalLight_append, ha.totalLight_eq_zero hx, hb.totalLight_eq_zero hy, add_zero]

end Merge

end Sample

/-! ## Trees of merges -/

/-- Samples to be merged, in an order and with brackets. Between them there may be samples of no rays. -/
inductive MergeTree (α : Type) where
  | empty
  | sample (s : Sample α)
  | merge (left right : MergeTree α)

namespace MergeTree

section Eval

variable {α : Type} [Scalar α]

/-- What the merges give. -/
def eval : MergeTree α → Sample α
  | empty => .zero
  | sample s => s
  | merge left right => left.eval.merge right.eval

/-- The samples that are merged. -/
def samples : MergeTree α → List (Sample α)
  | empty => []
  | sample s => [s]
  | merge left right => left.samples ++ right.samples

/-- The number of merges. -/
def merges : MergeTree α → Nat
  | empty | sample _ => 0
  | merge left right => left.merges + right.merges + 1

/-- Merging one sample after another is one of the trees. -/
theorem exists_eval_eq_foldl (xs : List (Sample α)) :
    ∃ t : MergeTree α, t.samples = xs ∧ t.eval = xs.foldl Sample.merge .zero := by
  induction xs using List.reverseRecOn with
  | nil => exact ⟨.empty, rfl, rfl⟩
  | append_singleton xs s ih =>
    obtain ⟨t, hsamples, heval⟩ := ih
    refine ⟨.merge t (.sample s), ?_, ?_⟩
    · rw [samples, hsamples, samples]
    · rw [eval, heval, eval, List.foldl_append, List.foldl_cons, List.foldl_nil]

end Eval

/-- A tree stands for its samples. -/
theorem pools_eval {t : MergeTree ℚ} (h : ∀ s ∈ t.samples, 0 ≤ s.count) : t.eval.Pools t.samples := by
  induction t with
  | empty => exact Sample.Pools.zero
  | sample s => exact Sample.Pools.single s
  | merge left right ihl ihr =>
    obtain ⟨hl, hr⟩ := List.forall_mem_append.mp h
    exact (ihl hl).merge (ihr hr) (Sample.totalCount_nonneg hl) (Sample.totalCount_nonneg hr)

/-- A merge of two trees gives the pooled sample of both. -/
theorem merge_eval {left right : MergeTree ℚ} (hl : ∀ s ∈ left.samples, 0 ≤ s.count)
    (hr : ∀ s ∈ right.samples, 0 ≤ s.count) :
    left.eval.merge right.eval = .pooled (left.samples ++ right.samples) :=
  (pools_eval hl).merge_eq_pooled (pools_eval hr) (Sample.totalCount_nonneg hl) (Sample.totalCount_nonneg hr)

theorem eval_of_merges {t : MergeTree ℚ} (h : ∀ s ∈ t.samples, 0 ≤ s.count) (ht : 0 < t.merges) :
    t.eval = .pooled t.samples := by
  cases t with
  | empty => exact absurd ht (lt_irrefl 0)
  | sample s => exact absurd ht (lt_irrefl 0)
  | merge left right =>
    obtain ⟨hl, hr⟩ := List.forall_mem_append.mp h
    exact merge_eval hl hr

/-- Merging one sample after another gives the pooled sample, also when there is nothing to merge. -/
theorem foldl_eq_pooled {xs : List (Sample ℚ)} (h : ∀ s ∈ xs, 0 ≤ s.count) :
    xs.foldl Sample.merge .zero = .pooled xs := by
  rcases List.eq_nil_or_concat' xs with rfl | ⟨before, last, rfl⟩
  · rfl
  · obtain ⟨hbefore, hlast⟩ := List.forall_mem_append.mp h
    obtain ⟨t, rfl, heval⟩ := exists_eval_eq_foldl before
    rw [List.foldl_append, ← heval]
    exact @merge_eval t (.sample last) hbefore hlast

/-- The order and the brackets of merges do not matter. Every tree of merges over samples gives their pooled sample,
and so does the accumulation from the sample of no rays on, in every order. Whichever machine's own sample is merged
with what all others gave, the result is what all machines gave. -/
theorem eval_eq_pooled (xs : List (Sample ℚ)) (h : ∀ s ∈ xs, 0 ≤ s.count) :
    (∀ all : MergeTree ℚ, all.samples.Perm xs → 0 < all.merges → all.eval = .pooled xs) ∧
    (∀ ys : List (Sample ℚ), ys.Perm xs → ys.foldl Sample.merge .zero = .pooled xs) ∧
    ∀ own others, (own :: others).Perm xs → ∀ minusOne all : MergeTree ℚ, minusOne.samples.Perm others →
      all.samples.Perm xs → 0 < all.merges →
        minusOne.eval.merge own = all.eval ∧ own.merge minusOne.eval = all.eval := by
  have hperm {ys : List (Sample ℚ)} (hys : ys.Perm xs) : ∀ s ∈ ys, 0 ≤ s.count := fun s hs => h s (hys.mem_iff.mp hs)
  have htree (all : MergeTree ℚ) (hall : all.samples.Perm xs) (hmerges : 0 < all.merges) : all.eval = .pooled xs := by
    rw [eval_of_merges (hperm hall) hmerges, Sample.pooled_perm hall]
  refine ⟨htree, fun ys hys => ?_, fun own others hxs minusOne all hothers hall hmerges => ?_⟩
  · rw [foldl_eq_pooled (hperm hys), Sample.pooled_perm hys]
  · have hfirst : (merge (.sample own) minusOne).samples.Perm xs := (hothers.cons own).trans hxs
    have hlast : (merge minusOne (.sample own)).samples.Perm xs := List.perm_append_comm.trans hfirst
    rw [htree all hall hmerges]
    exact ⟨htree _ hlast (Nat.succ_pos _), htree _ hfirst (Nat.succ_pos _)⟩

/-- Three rays of one colour and one of another, and a sample without rays whose colour is never seen. -/
theorem eval_eq_pooled_staleColor :
    let a : Sample ℚ := ⟨⟨2, 0, 1⟩, 3⟩
    let b : Sample ℚ := ⟨⟨6, 4, 1⟩, 1⟩
    let stale : Sample ℚ := ⟨⟨5, 5, 5⟩, 0⟩
    let all : MergeTree ℚ := .merge (.merge .empty (.sample stale)) (.merge (.sample b) (.sample a))
    let minusOne : MergeTree ℚ := .merge (.sample stale) (.sample a)
    all.eval = ⟨⟨3, 1, 1⟩, 4⟩ ∧ minusOne.eval.merge b = all.eval := by
  intro a b stale all minusOne
  obtain ⟨htree, -, hminus⟩ := eval_eq_pooled [a, b, stale] (by simp [a, b, stale])
  have hall : all.samples.Perm [a, b, stale] := by decide +kernel
  refine ⟨(htree all hall (by decide)).trans (by decide +kernel), ?_⟩
  exact (hminus b [a, stale] (by decide +kernel) minusOne all (by decide +kernel) hall (by decide)).1

end MergeTree

end ProgressiveFrame
