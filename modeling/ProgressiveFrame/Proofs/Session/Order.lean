import ProgressiveFrame.Proofs.Session.Run

/-!
# The order of buffers

How the buffers of a frame are cut into messages, and in which order they come, does not matter as long as
the buffers for each place keep their order.

* `NamedBuffer.Rearranges`: a list of buffers in another order that is the same in every place.
* `FrameStore.Alike`: stores that differ at most in the order of their AOVs.
* `Controller.Knows`: once a message of a frame has been taken, another one with the same header finds the
  store as it was left. So messages with one header do one row of writes (`run_again`).
* `take_rearranged`: if a message succeeds, its buffers succeed and leave the same store in every such order
  and in every such cut; and in every order at all when they go to different places.
-/

namespace ProgressiveFrame

namespace NamedBuffer

/-- The one list holds the buffers of the other, and those for each place in the same order. -/
structure Rearranges (bs cs : List NamedBuffer) : Prop where
  perm : bs.Perm cs
  order : ∀ p, bs.filter (·.place? = some p) = cs.filter (·.place? = some p)

/-- No two buffers go to one place. -/
def PlacesDiffer (bs : List NamedBuffer) : Prop := (bs.filterMap (·.place?)).Nodup

theorem PlacesDiffer.length_le {bs : List NamedBuffer} (hd : PlacesDiffer bs) (p : Place) :
    (bs.filter (·.place? = some p)).length ≤ 1 := by
  have hcount := List.nodup_iff_count.mp hd p
  rw [List.count_filterMap, List.countP_eq_length_filter] at hcount
  have htest : (fun b : NamedBuffer => b.place? == some p) = fun b => decide (b.place? = some p) := by
    funext b
    rw [Bool.eq_iff_iff, beq_iff_eq, decide_eq_true_eq]
  rwa [htest] at hcount

/-- Buffers for different places can come in any order. -/
theorem PlacesDiffer.rearranges {bs cs : List NamedBuffer} (hd : PlacesDiffer cs) (hp : bs.Perm cs) :
    Rearranges bs cs where
  perm := hp
  order p := by
    have hfilter := hp.filter (·.place? = some p)
    have hlength := hd.length_le p
    cases hc : cs.filter (·.place? = some p) with
    | nil =>
      rw [hc] at hfilter
      exact List.perm_nil.mp hfilter
    | cons b rest =>
      rw [hc, List.length_cons] at hlength
      have hrest : rest = [] := List.length_eq_zero_iff.mp (by omega)
      rw [hc, hrest] at hfilter
      rw [hrest]
      exact List.perm_singleton.mp hfilter

/-- Neighbours that do not go to the same place can change places. -/
theorem rearranges_swap {b c : NamedBuffer} (hne : ∀ p, b.place? = some p → c.place? ≠ some p)
    (rest : List NamedBuffer) : Rearranges (b :: c :: rest) (c :: b :: rest) where
  perm := .swap c b rest
  order p := by
    by_cases hb : b.place? = some p
    · simp [hb, hne p hb]
    · simp [List.filter_cons, hb]

/-- Rearranged buffers ask for the same writes in every place. -/
theorem Rearranges.onPlace {bs cs : List NamedBuffer} (hr : Rearranges bs cs) (codec : Codec) (layout : TileLayout)
    (p : Place) : Write.onPlace (writes codec layout bs) p = Write.onPlace (writes codec layout cs) p := by
  rw [onPlace_writes, onPlace_writes, hr.order p]

theorem writes_append (codec : Codec) (layout : TileLayout) (bs cs : List NamedBuffer) :
    writes codec layout (bs ++ cs) = writes codec layout bs ++ writes codec layout cs := List.filterMap_append ..

end NamedBuffer

namespace FrameStore

/-- The stores hold the same, but for the order of the AOVs. -/
structure Alike (s t : FrameStore) : Prop where
  viewport : s.viewport = t.viewport
  /-- Values, ray counts, coverage and precision. -/
  channel : ∀ kind, s.channel kind = t.channel kind
  /-- What each name stands for, if for anything. -/
  aov? : ∀ name, s.aov? name = t.aov? name

theorem alike_of_content {s t : FrameStore} (hv : s.viewport = t.viewport) (hc : ∀ p, s.content p = t.content p) :
    s.Alike t where
  viewport := hv
  channel kind := by
    have := hc (.channel kind)
    simpa [content] using this
  aov? name := hc (.aov name)

/-- Rearranged buffers are written alike. -/
theorem alike_writeAll {s : FrameStore} {codec : Codec} {layout : TileLayout} {bs cs : List NamedBuffer}
    (hr : NamedBuffer.Rearranges bs cs) (hok : (s.writeAll (NamedBuffer.writes codec layout cs)).2 = .ok ()) :
    (s.writeAll (NamedBuffer.writes codec layout bs)).2 = .ok () ∧
      (s.writeAll (NamedBuffer.writes codec layout bs)).1.Alike
        (s.writeAll (NamedBuffer.writes codec layout cs)).1 := by
  obtain ⟨hbs, hcontent⟩ := writeAll_congr (hr.onPlace codec layout) hok
  refine ⟨hbs, alike_of_content ?_ hcontent⟩
  rw [viewport_writeAll, viewport_writeAll]

end FrameStore

namespace Controller

variable {μ : Type} {decoders : Decoders μ} {c : Controller μ} {h : FrameHeader}

/-- The controller has taken an image message with this header last. -/
structure Knows (c : Controller μ) (h : FrameHeader) : Prop where
  syncId : c.session.syncId = some h.syncId
  viewport : c.store.viewport = h.viewport

theorem knows_take (decoders : Decoders μ) (c : Controller μ) {m : Message} (hm : m.isImage = true) :
    (c.take decoders m).next.Knows m.header where
  syncId := by
    have htook := c.took decoders m
    generalize c.take decoders m = step at htook
    cases htook with
    | aside hi => exact absurd (hm.symm.trans hi) nofun
    | delivered _ _ => rfl
    | refused _ _ => exact congrArg SessionState.syncId (session_beginMessage ..)
  viewport := by rw [store_take_image hm, FrameStore.viewport_writeAll, viewport_beginMessage]

/-- The header says nothing new, so the store is left alone. -/
theorem Knows.store_beginMessage (hk : c.Knows h) (a : Arrival) : (c.beginMessage h a).store = c.store := by
  have hstarts : ¬ c.startsFrame h = true := fun hs => (startsFrame_iff.mp hs).2 hk.syncId
  rw [Controller.store_beginMessage, if_neg hstarts, storeFor_of_eq hk.viewport]

/-- A message that is the first part of a row of writes does that part, in the store that its header calls for. -/
theorem take_row {m : Message} (hi : m.isImage = true) {s : FrameStore}
    (hs : (c.beginMessage m.header m.arrival).store = s) {bs : List NamedBuffer}
    (hok : (s.writeAll (NamedBuffer.writes decoders.codec m.header.layout (m.buffers ++ bs))).2 = .ok ()) :
    (c.take decoders m).result = .ok () ∧
      s.writeAll (NamedBuffer.writes decoders.codec m.header.layout (m.buffers ++ bs)) =
        (c.take decoders m).next.store.writeAll (NamedBuffer.writes decoders.codec m.header.layout bs) := by
  rw [NamedBuffer.writes_append] at hok ⊢
  have hfirst := FrameStore.writeAll_append_ok hok
  refine ⟨(result_take_image hi).mpr (hs ▸ hfirst), ?_⟩
  rw [FrameStore.writeAll_append hfirst, store_take_image hi, hs]
  rfl

end Controller

namespace SessionRun

variable {μ : Type} {decoders : Decoders μ} {h : FrameHeader}

/-- Further messages with the header that the controller knows do one row of writes. -/
theorem run_again (messages : List Message) (hi : ∀ m ∈ messages, m.isImage = true)
    (hh : ∀ m ∈ messages, m.header = h) (r : SessionRun μ) (hk : r.controller.Knows h)
    (hall : ∀ x ∈ r.history, x.result = .ok ())
    (hok : (r.controller.store.writeAll
      (NamedBuffer.writes decoders.codec h.layout (messages.flatMap (·.buffers)))).2 = .ok ()) :
    (∀ x ∈ (messages.foldl (next decoders) r).history, x.result = .ok ()) ∧
      (messages.foldl (next decoders) r).controller.store = (r.controller.store.writeAll
        (NamedBuffer.writes decoders.codec h.layout (messages.flatMap (·.buffers)))).1 := by
  induction messages generalizing r with
  | nil => exact ⟨hall, rfl⟩
  | cons m messages ih =>
    have hm : m.header = h := hh m List.mem_cons_self
    have himage : m.isImage = true := hi m List.mem_cons_self
    subst hm
    rw [List.flatMap_cons] at hok ⊢
    obtain ⟨hresult, hrow⟩ := Controller.take_row himage (hk.store_beginMessage m.arrival) hok
    rw [hrow] at hok ⊢
    refine ih (fun m' hmem => hi m' (List.mem_cons_of_mem m hmem)) (fun m' hmem => hh m' (List.mem_cons_of_mem m hmem))
      (r.next decoders m) (r.controller.knows_take decoders himage) (fun x hx => ?_) hok
    rcases List.mem_cons.mp hx with rfl | hx
    · exact hresult
    · exact hall x hx

/-- Messages with one header do one row of writes, however the buffers are cut. -/
theorem run_cut (c : Controller μ) {m : Message} (hi : m.isImage = true) {messages : List Message}
    (hne : messages ≠ []) (hh : ∀ m' ∈ messages, m'.header = m.header)
    (hok : ((c.beginMessage m.header m.arrival).store.writeAll
      (NamedBuffer.writes decoders.codec m.header.layout (messages.flatMap (·.buffers)))).2 = .ok ()) :
    (∀ x ∈ (ofMessages decoders c messages).history, x.result = .ok ()) ∧
      (ofMessages decoders c messages).controller.store = ((c.beginMessage m.header m.arrival).store.writeAll
        (NamedBuffer.writes decoders.codec m.header.layout (messages.flatMap (·.buffers)))).1 := by
  have himages : ∀ m' ∈ messages, m'.isImage = true := by
    intro m' hmem
    rw [Message.isImage, hh m' hmem]
    exact hi
  cases messages with
  | nil => exact absurd rfl hne
  | cons first rest =>
    have hf : m.header = first.header := (hh first List.mem_cons_self).symm
    have hfi : first.isImage = true := himages first List.mem_cons_self
    -- The store does not depend on when the message arrives.
    have hbegin :
        (c.beginMessage first.header first.arrival).store = (c.beginMessage first.header m.arrival).store := by
      rw [Controller.store_beginMessage, Controller.store_beginMessage]
    rw [hf, List.flatMap_cons] at hok ⊢
    obtain ⟨hresult, hrow⟩ := Controller.take_row hfi hbegin hok
    rw [hrow] at hok ⊢
    refine run_again rest (fun m' hmem => himages m' (List.mem_cons_of_mem first hmem))
      (fun m' hmem => (hh m' (List.mem_cons_of_mem first hmem)).trans hf) (next decoders ⟨c, []⟩ first)
      (c.knows_take decoders hfi) (fun x hx => ?_) hok
    rw [List.mem_singleton.mp hx]
    exact hresult

/-- Neither the cut nor the order of buffers matters across places. Of an image message that succeeds, take
the buffers in any order that is the same in every place, and cut them into messages with its header: all of
them succeed, and the store ends alike. Buffers for different places can come in any order at all. -/
theorem take_rearranged (c : Controller μ) (m : Message) (hi : m.isImage = true)
    (hok : (c.take decoders m).result = .ok ()) :
    (∀ messages : List Message, messages ≠ [] → (∀ m' ∈ messages, m'.header = m.header) →
      NamedBuffer.Rearranges (messages.flatMap (·.buffers)) m.buffers →
      (∀ x ∈ (ofMessages decoders c messages).history, x.result = .ok ()) ∧
        (ofMessages decoders c messages).controller.store.Alike (c.take decoders m).next.store) ∧
    (NamedBuffer.PlacesDiffer m.buffers → ∀ bs, bs.Perm m.buffers →
      (c.take decoders { m with buffers := bs }).result = .ok () ∧
        (c.take decoders { m with buffers := bs }).next.store.Alike (c.take decoders m).next.store) := by
  have hwrites := (Controller.result_take_image hi).mp hok
  rw [Controller.store_take_image hi]
  refine ⟨fun messages hne hh hr => ?_, fun hd bs hp => ?_⟩
  · obtain ⟨hbs, halike⟩ := FrameStore.alike_writeAll hr hwrites
    obtain ⟨hall, hend⟩ := run_cut c hi hne hh hbs
    rw [hend]
    exact ⟨hall, halike⟩
  · obtain ⟨hbs, halike⟩ := FrameStore.alike_writeAll (hd.rearranges hp) hwrites
    refine ⟨(Controller.result_take_image (m := { m with buffers := bs }) hi).mpr hbs, ?_⟩
    rw [Controller.store_take_image (m := { m with buffers := bs }) hi]
    exact halike

/-- Beauty, normals and beauty in one message, or the normals in a message before. -/
theorem take_rearranged_normalsFirst :
    let left : NamedBuffer := ⟨"rgba", .beauty, ⟨#[0]⟩⟩
    let right : NamedBuffer := ⟨"rgba", .beauty, ⟨#[1]⟩⟩
    let normals : NamedBuffer := ⟨"normal", .aovGeneric, ⟨#[1]⟩⟩
    let c := Controller.new .full true ⟨1⟩ 0
    let r := ofMessages .firstByte c [.start 7 [normals], .start 7 [], .start 7 [left, right]]
    (∀ x ∈ r.history, x.result = .ok ()) ∧
      r.controller.store.Alike (c.take .firstByte (.start 7 [left, normals, right])).next.store := by
  intro left right normals c r
  have hswap : NamedBuffer.Rearranges [normals, left, right] [left, normals, right] := by
    refine NamedBuffer.rearranges_swap (fun p hn hl => ?_) [right]
    have hne : normals.place? ≠ left.place? := by decide +kernel
    exact hne (hn.trans hl.symm)
  refine (take_rearranged c (.start 7 [left, normals, right]) (by decide) (by decide +kernel)).1 _ (by simp) ?_ hswap
  intro m hm
  simp only [List.mem_cons, List.not_mem_nil, or_false] at hm
  rcases hm with rfl | rfl | rfl <;> rfl

end SessionRun

end ProgressiveFrame
