import Mathlib.Data.List.Induction
import ProgressiveFrame.Binary32
import ProgressiveFrame.Schedule.Rate

/-!
# Message rates against all arrivals

The stamps that are dropped make no difference to the rate. Only the oldest stamps are looked at when a message
arrives, so after messages out of order some stay that are too old already; the rate does not count those.

* `MessageRate.recordAll`: the messages of a list, one after another.
* `MessageRate.Remembers`: what is kept of all arrivals. `Remembers.record`: each message keeps it so.
* `Remembers.countP_eq`: a count of recent stamps is a count of all arrivals.
* `MessageRate.stamps_record_of_sorted`: after messages in order, just the recent ones are kept.
* `MessageRate.perSecond_recordAll`: the rate in terms of the arrivals alone.
-/

namespace ProgressiveFrame.MessageRate

variable {r : MessageRate} {times : List Instant}

/-- Messages have arrived one after another. -/
def recordAll (r : MessageRate) (times : List Instant) : MessageRate := times.foldl record r

@[simp] theorem recordAll_concat (r : MessageRate) (times : List Instant) (now : Instant) :
    r.recordAll (times ++ [now]) = (r.recordAll times).record now := by
  unfold recordAll
  rw [List.foldl_append, List.foldl_cons, List.foldl_nil]

/-- The stamps are the last of the arrivals, and each arrival before them was too old already when some message
arrived. -/
def Remembers (r : MessageRate) (times : List Instant) : Prop :=
  ∃ dropped, times = dropped ++ r.stamps ∧ ∀ s ∈ dropped, ∃ t ∈ times, r.isRecent t s = false

theorem isRecent_iff {now stamp : Instant} :
    r.isRecent now stamp = true ↔ now.nanos - stamp.nanos ≤ r.window.nanos := by
  unfold isRecent Instant.since
  exact decide_eq_true_iff

theorem isRecent_eq_false_iff {now stamp : Instant} :
    r.isRecent now stamp = false ↔ r.window.nanos < now.nanos - stamp.nanos := by
  rw [← Bool.not_eq_true, isRecent_iff, Nat.not_le]

/-- A stamp that is too old stays so. -/
theorem isRecent_mono {earlier now stamp : Instant} (hle : earlier.nanos ≤ now.nanos)
    (h : r.isRecent earlier stamp = false) : r.isRecent now stamp = false := by
  rw [isRecent_eq_false_iff] at *
  omega

theorem remembers_new (window : Duration) : (new window).Remembers [] := ⟨[], rfl, by simp⟩

theorem Remembers.record (h : r.Remembers times) (now : Instant) : (r.record now).Remembers (times ++ [now]) := by
  obtain ⟨dropped, hsplit, hold⟩ := h
  refine ⟨dropped ++ (r.stamps ++ [now]).takeWhile fun stamp => !r.isRecent now stamp, ?_, fun s hs => ?_⟩
  · rw [hsplit, List.append_assoc, List.append_assoc]
    unfold MessageRate.record
    rw [List.takeWhile_append_dropWhile]
  · rcases List.mem_append.mp hs with hs | hs
    · obtain ⟨t, ht, hrecent⟩ := hold s hs
      exact ⟨t, List.mem_append_left _ ht, hrecent⟩
    · have hrecent : (!r.isRecent now s) = true := List.all_eq_true.mp List.all_takeWhile s hs
      refine ⟨now, by simp, ?_⟩
      show r.isRecent now s = false
      simpa using hrecent

theorem window_recordAll (r : MessageRate) (times : List Instant) : (r.recordAll times).window = r.window := by
  induction times generalizing r with
  | nil => rfl
  | cons now times ih => exact (ih (r.record now)).trans (window_record r now)

theorem remembers_recordAll (window : Duration) (times : List Instant) :
    ((new window).recordAll times).Remembers times := by
  induction times using List.reverseRecOn with
  | nil => exact remembers_new window
  | append_singleton times now ih =>
    rw [recordAll_concat]
    exact ih.record now

/-- Where no message is later than now, the recent stamps are the recent ones of all arrivals. -/
theorem Remembers.countP_eq (h : r.Remembers times) {now : Instant} (hnow : ∀ t ∈ times, t.nanos ≤ now.nanos) :
    r.stamps.countP (r.isRecent now) = times.countP (r.isRecent now) := by
  obtain ⟨dropped, hsplit, hold⟩ := h
  have hdropped : dropped.countP (r.isRecent now) = 0 := by
    rw [List.countP_eq_zero]
    intro s hs
    obtain ⟨t, ht, hrecent⟩ := hold s hs
    rw [isRecent_mono (hnow t ht) hrecent]
    exact Bool.false_ne_true
  rw [hsplit, List.countP_append, hdropped, Nat.zero_add]

/-- What is left after the oldest stamps are dropped is recent, if the stamps are in order. -/
theorem isRecent_of_mem_record {now s : Instant}
    (h : (r.stamps ++ [now]).Pairwise fun s t : Instant => s.nanos ≤ t.nanos) (hs : s ∈ (r.record now).stamps) :
    r.isRecent now s = true := by
  have hsorted := h.sublist (List.dropWhile_sublist fun stamp => !r.isRecent now stamp)
  have hhead := List.head?_dropWhile_not (fun stamp => !r.isRecent now stamp) (r.stamps ++ [now])
  unfold record at hs
  cases hkept : (r.stamps ++ [now]).dropWhile fun stamp => !r.isRecent now stamp with
  | nil =>
    rw [hkept] at hs
    cases hs
  | cons first rest =>
    rw [hkept] at hs hsorted hhead
    have hfirst : r.isRecent now first = true := by simpa using hhead
    rcases List.mem_cons.mp hs with rfl | hrest
    · exact hfirst
    · have hle : first.nanos ≤ s.nanos := List.rel_of_pairwise_cons hsorted hrest
      rw [isRecent_iff] at *
      omega

/-- After messages in order, just the stamps in the window before the last one are kept. -/
theorem stamps_record_of_sorted (h : r.Remembers times) {now : Instant}
    (hsorted : (times ++ [now]).Pairwise fun s t => s.nanos ≤ t.nanos) :
    (r.record now).stamps = (times ++ [now]).filter (r.isRecent now) := by
  have hstamps : (r.stamps ++ [now]).Pairwise fun s t => s.nanos ≤ t.nanos := by
    obtain ⟨dropped, hsplit, -⟩ := h
    rw [hsplit, List.append_assoc] at hsorted
    exact (List.pairwise_append.mp hsorted).2.1
  have hlast : ∀ t ∈ times ++ [now], t.nanos ≤ now.nanos := by
    intro t ht
    rcases List.mem_append.mp ht with ht | ht
    · exact (List.pairwise_append.mp hsorted).2.2 t ht now (by simp)
    · exact Nat.le_of_eq (congrArg Instant.nanos (List.mem_singleton.mp ht))
  obtain ⟨dropped, hsplit, hold⟩ := h.record now
  have hdropped : dropped.filter (r.isRecent now) = [] := by
    rw [List.filter_eq_nil_iff]
    intro s hs hrecent
    obtain ⟨t, ht, htold⟩ := hold s hs
    have hfalse : r.isRecent now s = false := isRecent_mono (hlast t ht) htold
    rw [hfalse] at hrecent
    cases hrecent
  rw [hsplit, List.filter_append, hdropped, List.nil_append, List.filter_eq_self.mpr]
  exact fun s hs => isRecent_of_mem_record hstamps hs

/-- Dropping stamps never shows in the rate. After messages at any times, in any order, the rate at an instant that is
not before any of them counts all messages that have ever arrived no longer ago than the window. After messages in
order, each of them leaves just those stamps that lie in the window before it. -/
theorem perSecond_recordAll {α : Type} [Scalar α] (window : Duration) (times : List Instant) :
    (∀ now : Instant, (∀ t ∈ times, t.nanos ≤ now.nanos) →
      (((new window).recordAll times).perSecond now : α) =
        Scalar.ofNat (times.countP fun s => now.nanos - s.nanos ≤ window.nanos) / window.seconds) ∧
    (times.Pairwise (fun s t => s.nanos ≤ t.nanos) → ∀ earlier t, earlier ++ [t] <+: times →
      ((new window).recordAll (earlier ++ [t])).stamps =
        (earlier ++ [t]).filter fun s => t.nanos - s.nanos ≤ window.nanos) := by
  have htest (ts : List Instant) (now : Instant) :
      ((new window).recordAll ts).isRecent now = fun s => decide (now.nanos - s.nanos ≤ window.nanos) := by
    funext s
    unfold isRecent Instant.since
    rw [window_recordAll]
    rfl
  refine ⟨fun now hnow => ?_, fun hsorted earlier t hprefix => ?_⟩
  · unfold perSecond
    rw [(remembers_recordAll window times).countP_eq hnow, htest, window_recordAll]
    rfl
  · rw [recordAll_concat, ← htest earlier t]
    exact stamps_record_of_sorted (remembers_recordAll window earlier) (hsorted.sublist hprefix.sublist)

/-- Stamps of the seconds 0, 3, 1 and 2, in this order, in a window of two seconds. The first is dropped when the
second arrives; the third is kept, as only the oldest stamp is looked at. In the fourth second, those of seconds 2 and 3
count, the former at the very end of the window. In order of time, seconds 1 to 3 are kept. -/
theorem perSecond_recordAll_lateStamp :
    let second (n : Nat) : Instant := ⟨n * nanosPerSecond⟩
    let window := Duration.ofSeconds 2
    let late := (new window).recordAll [second 0, second 3, second 1, second 2]
    late.stamps = [second 3, second 1, second 2] ∧
      late.perSecond (second 4) = Scalar.ofNat 2 / (window.seconds : Binary32) ∧
      ((new window).recordAll [second 0, second 1, second 2, second 3]).stamps = [second 1, second 2, second 3] := by
  intro second window late
  refine ⟨by decide, ?_, ?_⟩
  · have hnow : ∀ t ∈ [second 0, second 3, second 1, second 2], t.nanos ≤ (second 4).nanos := by decide
    have hcount : [second 0, second 3, second 1, second 2].countP
        (fun s => (second 4).nanos - s.nanos ≤ window.nanos) = 2 := by decide
    rw [← hcount]
    exact (perSecond_recordAll window _).1 (second 4) hnow
  · have hsorted : [second 0, second 1, second 2, second 3].Pairwise fun s t => s.nanos ≤ t.nanos := by decide
    have hrecent : [second 0, second 1, second 2, second 3].filter
        (fun s => (second 3).nanos - s.nanos ≤ window.nanos) = [second 1, second 2, second 3] := by decide
    exact ((perSecond_recordAll (α := Binary32) window _).2 hsorted [second 0, second 1, second 2] (second 3)
      (List.prefix_refl _)).trans hrecent

end ProgressiveFrame.MessageRate
