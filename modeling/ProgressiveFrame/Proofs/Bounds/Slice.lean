import Mathlib.Data.List.Nodup
import ProgressiveFrame.Proofs.Tile.Packing

/-!
# Parts of arrays

A program that reads a part of an array, or writes over one, comes to a halt where there is no such part. Here such a
program is one that may have no result, and each access asks first. A buffer with `width` values for each slot is
written slot by slot, and what stands in it on the way is told by the slots that are done.

* `slice?`, `writeSlice?`: a part of an array is read or written.
* `patched`: the buffer on the way, with some slots from the buffer at the end and all others from that at the start.
* `writeSlice?_patched`, `slice?_patched`: one slot is written or read on the way.
* `foldlM_patched`: a loop whose steps write their slots writes the slots of all (`Slotted.foldlM_eq`).
-/

namespace ProgressiveFrame

variable {α : Type}

/-- The elements from `first` to `last - 1`, if there are all of them. -/
def slice? (a : Array α) (first last : Nat) : Option (Array α) :=
  if first ≤ last ∧ last ≤ a.size then some (a.extract first last) else none

/-- The array with the elements from `first` to `last - 1` replaced, if there are all of them and as many others. -/
def writeSlice? (a : Array α) (first last : Nat) (values : Array α) : Option (Array α) :=
  if first ≤ last ∧ last ≤ a.size ∧ values.size = last - first then
    some (a.extract 0 first ++ values ++ a.extract last a.size)
  else none

theorem slice?_of_le {a : Array α} {first last : Nat} (h₁ : first ≤ last) (h₂ : last ≤ a.size) :
    slice? a first last = some (a.extract first last) := if_pos ⟨h₁, h₂⟩

theorem exists_writeSlice? {a values : Array α} {first last : Nat} (h₁ : first ≤ last) (h₂ : last ≤ a.size)
    (hvalues : values.size = last - first) : ∃ b, writeSlice? a first last values = some b ∧
      ∀ k, b[k]? = if first ≤ k ∧ k < last then values[k - first]? else a[k]? := by
  refine ⟨_, if_pos ⟨h₁, h₂, hvalues⟩, fun k => ?_⟩
  have hhead : (a.extract 0 first).size = first := by rw [Array.size_extract]; omega
  have hlast : (a.extract 0 first ++ values).size = last := by rw [Array.size_append, hhead]; omega
  by_cases hbelow : k < first
  · rw [Array.getElem?_append_left (by omega), Array.getElem?_append_left (by omega), Array.getElem?_extract,
      if_pos (by omega), Nat.zero_add, if_neg (by omega)]
  · by_cases habove : k < last
    · rw [Array.getElem?_append_left (by omega), Array.getElem?_append_right (by omega), hhead, if_pos (by omega)]
    · rw [Array.getElem?_append_right (by omega), hlast, Array.getElem?_extract, Nat.add_sub_cancel' (by omega),
        if_neg (c := first ≤ k ∧ k < last) (by omega), Nat.min_self]
      split
      · rfl
      · exact (Array.getElem?_eq_none (by omega)).symm

/-- One element is written where there is one. -/
theorem writeSlice?_one {a : Array α} {k : Nat} (h : k < a.size) (value : α) :
    writeSlice? a k (k + 1) #[value] = some (a.setIfInBounds k value) := by
  have hsize : (#[value] : Array α).size = k + 1 - k := by simp
  obtain ⟨b, hb, hvalues⟩ := exists_writeSlice? (Nat.le_succ k) h hsize
  rw [hb, Option.some.injEq]
  apply Array.ext_getElem?
  intro j
  rw [hvalues, Array.getElem?_setIfInBounds]
  by_cases hj : k = j
  · subst hj
    simp [h]
  · rw [if_neg (by omega), if_neg hj]

/-! ## Slots on the way -/

/-- The buffer with some slots as they are `after` a loop and all others as they are `before` it. -/
def patched (width : Nat) (before after : Array α) (slots : List Nat) : Array α :=
  before.mapIdx fun k value => if k / width ∈ slots then after.getD k value else value

/-- Two buffers have `width` values for each of `count` slots. -/
structure Slotted (width count : Nat) (before after : Array α) : Prop where
  before : before.size = count * width
  after : after.size = count * width

variable {width count slot : Nat} {before after : Array α} {done : List Nat}

@[simp] theorem patched_nil (width : Nat) (before after : Array α) : patched width before after [] = before := by
  simp [patched, Array.mapIdx_eq_zipIdx_map]

@[simp] theorem size_patched (width : Nat) (before after : Array α) (slots : List Nat) :
    (patched width before after slots).size = before.size := by simp [patched]

/-- The values of a slot lie in the buffer. -/
theorem slot_le_size (width : Nat) (hslot : slot < count) :
    slot * width ≤ (slot + 1) * width ∧ (slot + 1) * width ≤ count * width :=
  ⟨Nat.mul_le_mul_right _ (Nat.le_succ _), Nat.mul_le_mul_right _ hslot⟩

theorem size_extract_slot {a : Array α} (h : (slot + 1) * width ≤ a.size) :
    (a.extract (slot * width) ((slot + 1) * width)).size = width := by
  rw [Array.size_extract, Nat.min_eq_left h, Nat.succ_mul, Nat.add_sub_cancel_left]

/-- Value `j` of a slot. -/
theorem getElem?_extract_slot {a : Array α} (h : (slot + 1) * width ≤ a.size) {j : Nat} (hj : j < width) :
    (a.extract (slot * width) ((slot + 1) * width))[j]? = a[slot * width + j]? := by
  rw [Array.getElem?_extract, Nat.min_eq_left h, if_pos (by rw [Nat.succ_mul]; omega)]

/-- The values of a slot are told by each of them. -/
theorem eq_extract_slot {a values : Array α} (h : (slot + 1) * width ≤ a.size) (hsize : values.size = width)
    (hvalues : ∀ j, j < width → values[j]? = a[slot * width + j]?) :
    values = a.extract (slot * width) ((slot + 1) * width) := by
  apply Array.ext_getElem?
  intro j
  by_cases hj : j < width
  · rw [hvalues j hj, getElem?_extract_slot h hj]
  · rw [Array.getElem?_eq_none (by omega), Array.getElem?_eq_none (by rw [size_extract_slot h]; omega)]

theorem Slotted.getElem?_patched (h : Slotted width count before after) (slots : List Nat) (k : Nat) :
    (patched width before after slots)[k]? = if k / width ∈ slots then after[k]? else before[k]? := by
  rw [patched, Array.getElem?_mapIdx]
  by_cases hk : k < count * width
  · have hb : k < before.size := h.before ▸ hk
    have ha : k < after.size := h.after ▸ hk
    split <;> simp [*]
  · have hb : before[k]? = none := Array.getElem?_eq_none (h.before ▸ Nat.le_of_not_lt hk)
    have ha : after[k]? = none := Array.getElem?_eq_none (h.after ▸ Nat.le_of_not_lt hk)
    rw [ha, hb, ite_self, Option.map_none]

/-- Once all slots that differ are done, the buffer is that of the end. -/
theorem Slotted.patched_eq (h : Slotted width count before after) {slots : List Nat}
    (hrest : ∀ k, k / width < count → k / width ∉ slots → after[k]? = before[k]?) :
    patched width before after slots = after := by
  apply Array.ext_getElem?
  intro k
  rw [h.getElem?_patched]
  split
  · rfl
  · rename_i hnot
    by_cases hk : k < count * width
    · exact (hrest k (Nat.div_lt_of_lt_mul (Nat.mul_comm count width ▸ hk)) hnot).symm
    · rw [Array.getElem?_eq_none (h.before ▸ Nat.le_of_not_lt hk),
        Array.getElem?_eq_none (h.after ▸ Nat.le_of_not_lt hk)]

/-- Slots that are the same before and after are done from the start. -/
theorem Slotted.patched_append (h : Slotted width count before after) {slots : List Nat}
    (hsame : ∀ k, k / width ∈ slots → after[k]? = before[k]?) :
    patched width before after (done ++ slots) = patched width before after done := by
  apply Array.ext_getElem?
  intro k
  rw [h.getElem?_patched, h.getElem?_patched]
  by_cases hk : k / width ∈ slots
  · rw [hsame k hk, ite_self, ite_self]
  · simp [hk]

/-- The values of a slot on the way. -/
theorem Slotted.extract_patched (h : Slotted width count before after) (slots : List Nat) :
    (patched width before after slots).extract (slot * width) ((slot + 1) * width) =
      (if slot ∈ slots then after else before).extract (slot * width) ((slot + 1) * width) := by
  apply Array.ext_getElem?
  intro j
  have hsize : (if slot ∈ slots then after else before).size = count * width := by
    split
    · exact h.after
    · exact h.before
  rw [Array.getElem?_extract, Array.getElem?_extract, size_patched, h.getElem?_patched, h.before, hsize]
  by_cases hj : j < width
  · rw [div_of_slot hj]
    by_cases hmem : slot ∈ slots
    · simp only [if_pos hmem]
    · simp only [if_neg hmem]
  · rw [if_neg (by rw [Nat.succ_mul]; omega), if_neg (by rw [Nat.succ_mul]; omega)]

/-- A slot can be read on the way. -/
theorem Slotted.slice?_patched (h : Slotted width count before after) (hslot : slot < count) (slots : List Nat) :
    slice? (patched width before after slots) (slot * width) ((slot + 1) * width) =
      some ((if slot ∈ slots then after else before).extract (slot * width) ((slot + 1) * width)) := by
  obtain ⟨hfirst, hlast⟩ := slot_le_size width hslot
  rw [slice?_of_le hfirst (by rw [size_patched, h.before]; exact hlast), h.extract_patched]

/-- The values of a slot that are written are those that the slot has in the end. -/
theorem Slotted.writeSlice?_patched (h : Slotted width count before after) (done : List Nat) (hslot : slot < count)
    {values : Array α} (hvalues : values = after.extract (slot * width) ((slot + 1) * width)) :
    writeSlice? (patched width before after done) (slot * width) ((slot + 1) * width) values =
      some (patched width before after (done ++ [slot])) := by
  obtain ⟨hfirst, hlast⟩ := slot_le_size width hslot
  have hsize : values.size = (slot + 1) * width - slot * width := by
    rw [hvalues, Array.size_extract, h.after, Nat.min_eq_left hlast]
  obtain ⟨b, hwrite, hb⟩ := exists_writeSlice? (a := patched width before after done) hfirst
    (by rw [size_patched, h.before]; exact hlast) hsize
  rw [hwrite]
  congr 1
  apply Array.ext_getElem?
  intro k
  simp only [hb, h.getElem?_patched, List.mem_append, List.mem_singleton]
  by_cases hk : slot * width ≤ k ∧ k < (slot + 1) * width
  · obtain ⟨j, rfl⟩ := Nat.exists_eq_add_of_le hk.1
    rw [if_pos hk, if_pos (.inr (div_of_slot (by rw [Nat.succ_mul] at hk; omega))), hvalues, Nat.add_sub_cancel_left,
      Array.getElem?_extract, if_pos (by rw [h.after]; omega)]
  · rw [if_neg hk]
    by_cases hin : k < count * width
    · have hwidth : 0 < width := Nat.pos_of_mul_pos_left (Nat.zero_lt_of_lt hin)
      have hother : k / width ≠ slot := by
        rintro rfl
        exact hk ⟨Nat.div_mul_le_self k width, Nat.mul_comm width _ ▸ Nat.lt_mul_div_succ k hwidth⟩
      simp [hother]
    · rw [Array.getElem?_eq_none (by rw [h.after]; omega), Array.getElem?_eq_none (by rw [h.before]; omega), ite_self,
        ite_self]

/-! ## Loops -/

/-- A loop whose steps lead from each state to the next ends in the last one. -/
theorem foldlM_prefix {σ ι : Type} {step : σ → ι → Option σ} {items : List ι} (state : List ι → σ)
    (hstep : ∀ pre item post, items = pre ++ item :: post → step (state pre) item = some (state (pre ++ [item]))) :
    items.foldlM step (state []) = some (state items) := by
  induction items generalizing state with
  | nil => rfl
  | cons item items ih =>
    rw [List.foldlM_cons, hstep [] item items rfl]
    exact ih (fun pre => state (item :: pre)) fun pre next post hsplit =>
      hstep (item :: pre) next post (congrArg (item :: ·) hsplit)

/-- A loop over numbers, with the state before each of them. -/
theorem foldlM_range {σ : Type} {step : σ → Nat → Option σ} {n : Nat} (state : Nat → σ)
    (hstep : ∀ k < n, step (state k) k = some (state (k + 1))) :
    (List.range n).foldlM step (state 0) = some (state n) := by
  induction n with
  | zero => rfl
  | succ n ih =>
    rw [List.range_succ, List.foldlM_append, ih fun k hk => hstep k (Nat.lt_succ_of_lt hk), Option.bind_eq_bind,
      Option.bind_some, List.foldlM_cons, hstep n (Nat.lt_succ_self n)]
    rfl

/-- A loop whose steps write their slots writes the slots of all of them. -/
theorem foldlM_patched {ι : Type} {step : Array α → ι → Option (Array α)} {items : List ι} (slotsOf : ι → List Nat)
    (hstep : ∀ pre item post, items = pre ++ item :: post →
      step (patched width before after (done ++ pre.flatMap slotsOf)) item =
        some (patched width before after (done ++ pre.flatMap slotsOf ++ slotsOf item))) :
    items.foldlM step (patched width before after done) =
      some (patched width before after (done ++ items.flatMap slotsOf)) := by
  have hnext (pre : List ι) (item : ι) (post : List ι) (hsplit : items = pre ++ item :: post) :
      step (patched width before after (done ++ pre.flatMap slotsOf)) item =
        some (patched width before after (done ++ (pre ++ [item]).flatMap slotsOf)) := by
    rw [hstep pre item post hsplit, List.flatMap_append, List.flatMap_singleton, List.append_assoc]
  have hrun := foldlM_prefix (fun pre => patched width before after (done ++ pre.flatMap slotsOf)) hnext
  rwa [List.flatMap_nil, List.append_nil] at hrun

/-- A loop whose steps write their slots ends with all slots done, if no others differ. -/
theorem Slotted.foldlM_eq (h : Slotted width count before after) {ι : Type} {step : Array α → ι → Option (Array α)}
    {items : List ι} (slotsOf : ι → List Nat)
    (hstep : ∀ pre item post, items = pre ++ item :: post →
      step (patched width before after (pre.flatMap slotsOf)) item =
        some (patched width before after (pre.flatMap slotsOf ++ slotsOf item)))
    (hrest : ∀ k, k / width < count → k / width ∉ items.flatMap slotsOf → after[k]? = before[k]?) :
    items.foldlM step before = some after := by
  have hrun : items.foldlM step (patched width before after []) =
      some (patched width before after ([] ++ items.flatMap slotsOf)) :=
    foldlM_patched slotsOf (by simpa only [List.nil_append] using hstep)
  rwa [patched_nil, List.nil_append, h.patched_eq hrest] at hrun

end ProgressiveFrame
