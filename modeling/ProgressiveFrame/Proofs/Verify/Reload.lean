import ProgressiveFrame.Proofs.Image.RoundTrip
import ProgressiveFrame.Proofs.Verify.FileNames
import ProgressiveFrame.Verify.Run

/-!
# Dumps that are written and loaded again

The images of a frame are written to a directory as float dumps, in any order and among other dumps. Each file then
holds the image of its key, since no two keys share a file, and float dumps keep colours and ray counts. So loading the
frame gives its images back, and a verification finds what it would find without the files.

* `Files.writeAll`: the files after dumps have been written to a directory.
* `FrameDumps.dumps`: the dumps of a frame. `FrameDumps.Shows`: which image a dump shows.
* `FrameDumps.Complete`: the images of a frame that float dumps keep, for so many machines.
* `FrameDumps.load_writeAll`: what is loaded is what was written.
-/

namespace ProgressiveFrame

/-! ## Files -/

/-- The contents of the files, none where there is no file. -/
abbrev Files := String → Option ByteArray

/-- An image to be written as a dump. -/
structure DumpWrite where
  key : DumpKey
  image : RgbImage

/-- What is written. -/
def DumpWrite.bytes (w : DumpWrite) : ByteArray := w.image.dumpBytes w.key.kind w.key.format

namespace Files

variable {files : Files} {dir : String} {ws : List DumpWrite} {w : DumpWrite}

/-- The files after a dump has been written to a directory. A file holds what was written to it last. -/
def write (dir : String) (files : Files) (w : DumpWrite) : Files :=
  fun path => if path = w.key.path dir then some w.bytes else files path

/-- The files after dumps have been written to a directory, one after the other. -/
def writeAll (files : Files) (dir : String) (ws : List DumpWrite) : Files := ws.foldl (write dir) files

/-- Reads a file. -/
def read {m : Type → Type} [Monad m] (files : Files) (path : String) : m (Option ByteArray) := pure (files path)

/-- A file holds the dump of its key, unless another image has been written as that dump. -/
theorem writeAll_path (hw : w ∈ ws) (hsame : ∀ v ∈ ws, v.key = w.key → v = w) :
    files.writeAll dir ws (w.key.path dir) = some w.bytes := by
  induction ws using List.reverseRecOn with
  | nil => cases hw
  | append_singleton ws v ih =>
    rw [writeAll, List.foldl_concat, ← writeAll, write]
    -- The last dump to be written is this one, or it has a file of its own.
    by_cases hkey : v.key = w.key
    · rw [hsame v (by simp) hkey, if_pos rfl]
    · have hpath : w.key.path dir ≠ v.key.path dir := fun h => hkey (DumpKey.path_injective dir h).symm
      have hmem : w ∈ ws := by
        rcases List.mem_append.mp hw with h | h
        · exact h
        · cases List.mem_singleton.mp h
          exact absurd rfl hkey
      rw [if_neg hpath]
      exact ih hmem fun u hu => hsame u (List.mem_append_left _ hu)

end Files

/-! ## The dumps of a frame -/

/-- The colours or the ray counts. -/
def SampledImage.part (i : SampledImage) : ImageKind → RgbImage
  | .beauty => i.beauty
  | .numSample => i.numSample

/-- The two dumps of an image and its ray counts. -/
def SampledImage.dumps (i : SampledImage) (frame : Nat) (format : DumpFormat) (source : DumpSource) : List DumpWrite :=
  [ImageKind.beauty, .numSample].map fun kind => ⟨⟨frame, source, kind, format⟩, i.part kind⟩

/-- The image of a machine at a stage. -/
def MachineDumps.image (m : MachineDumps) : Stage → SampledImage
  | .feedback => m.feedback
  | .decoded => m.decoded
  | .merged => m.merged
  | .minusOne => m.minusOne

/-- The dumps of a machine. -/
def MachineDumps.dumps (m : MachineDumps) (frame : Nat) (format : DumpFormat) : List DumpWrite :=
  [Stage.feedback, .decoded, .merged, .minusOne].flatMap fun stage =>
    (m.image stage).dumps frame format (.machine m.machine stage)

namespace FrameDumps

/-- The dumps of a frame. -/
def dumps (d : FrameDumps) (frame : Nat) (format : DumpFormat) : List DumpWrite :=
  d.mergeAll.dumps frame format .mergeAll ++
    (d.merge.zipIdx.flatMap fun (i, machine) => i.dumps frame format (.merge machine)) ++
    d.machines.flatMap (·.dumps frame format)

/-- The dumps of a frame with the machines in the order of their numbers. -/
def inOrder (d : FrameDumps) : FrameDumps :=
  { d with machines := d.machines.mergeSort fun a b => decide (a.machine ≤ b.machine) }

/-- Which image of the frame a dump shows. -/
inductive Shows (d : FrameDumps) : DumpSource → SampledImage → Prop where
  | mergeAll : Shows d .mergeAll d.mergeAll
  | merge {machine : Nat} {i : SampledImage} (h : d.merge[machine]? = some i) : Shows d (.merge machine) i
  | machine {m : MachineDumps} (h : m ∈ d.machines) (stage : Stage) : Shows d (.machine m.machine stage) (m.image stage)

variable {d : FrameDumps} {source : DumpSource} {i j : SampledImage} {frame : Nat} {format : DumpFormat} {w : DumpWrite}

theorem mem_dumps_iff : w ∈ d.dumps frame format ↔
    ∃ source i kind, d.Shows source i ∧ w = ⟨⟨frame, source, kind, format⟩, i.part kind⟩ := by
  have himage (i : SampledImage) (source : DumpSource) :
      w ∈ i.dumps frame format source ↔ ∃ kind, w = ⟨⟨frame, source, kind, format⟩, i.part kind⟩ := by
    rw [SampledImage.dumps, List.mem_map]
    refine exists_congr fun kind => ?_
    rw [and_iff_right (by cases kind <;> simp), eq_comm]
  constructor
  · intro h
    rcases List.mem_append.mp h with h | h
    · rcases List.mem_append.mp h with h | h
      · obtain ⟨kind, rfl⟩ := (himage _ _).mp h
        exact ⟨_, _, kind, .mergeAll, rfl⟩
      · obtain ⟨⟨i, machine⟩, hi, h⟩ := List.mem_flatMap.mp h
        obtain ⟨kind, rfl⟩ := (himage _ _).mp h
        exact ⟨_, _, kind, .merge (List.mem_zipIdx_iff_getElem?.mp hi), rfl⟩
    · obtain ⟨m, hm, h⟩ := List.mem_flatMap.mp h
      obtain ⟨stage, -, h⟩ := List.mem_flatMap.mp h
      obtain ⟨kind, rfl⟩ := (himage _ _).mp h
      exact ⟨_, _, kind, .machine hm stage, rfl⟩
  · rintro ⟨source, i, kind, hshows, hw⟩
    unfold dumps
    rw [List.mem_append, List.mem_append]
    cases hshows with
    | mergeAll => exact .inl (.inl ((himage _ _).mpr ⟨kind, hw⟩))
    | merge hi =>
      exact .inl (.inr (List.mem_flatMap.mpr
        ⟨(_, _), List.mem_zipIdx_iff_getElem?.mpr hi, (himage _ _).mpr ⟨kind, hw⟩⟩))
    | machine hm stage =>
      refine .inr (List.mem_flatMap.mpr ⟨_, hm, List.mem_flatMap.mpr ⟨stage, ?_, (himage _ _).mpr ⟨kind, hw⟩⟩⟩)
      cases stage <;> simp

/-- A dump shows one image, if no two machines have one number. -/
theorem Shows.unique (hnodup : (d.machines.map (·.machine)).Nodup) (hi : d.Shows source i) (hj : d.Shows source j) :
    i = j := by
  cases hi with
  | mergeAll =>
    cases hj
    rfl
  | merge hi =>
    cases hj with
    | merge hj => exact Option.some.inj (hi.symm.trans hj)
  | machine hm stage =>
    generalize hsource : DumpSource.machine _ stage = source at hj
    cases hj with
    | machine hm' stage' =>
      obtain ⟨hmachine, rfl⟩ := DumpSource.machine.inj hsource
      rw [List.inj_on_of_nodup_map hnodup hm hm' hmachine]
    | _ => cases hsource

end FrameDumps

/-! ## What dumps keep -/

/-- An image that float dumps keep: the ray counts of a pixel are one natural number, in all three components. -/
structure SampledImage.Countable (i : SampledImage) : Prop where
  formed : ∀ kind, (i.part kind).Formed
  counts : ∀ c ∈ i.numSample.pixels, c = .uniform c.r ∧ ∃ n, c.r.IsNatural n

theorem SampledImage.Countable.ofDump_dumpBytes_part {i : SampledImage} (hi : i.Countable) (kind : ImageKind) :
    RgbImage.ofDump kind .fbd ((i.part kind).dumpBytes kind .fbd) = .ok (i.part kind) := by
  have hkept : ∀ c ∈ (i.part kind).pixels, RgbImage.keptColor kind .fbd c = id c := by
    intro c hc
    cases kind with
    | beauty => rfl
    | numSample =>
      obtain ⟨huniform, n, hn⟩ := hi.counts c hc
      exact (congrArg Rgb.uniform (RgbImage.wholeCount_eq hn)).trans huniform.symm
  rw [RgbImage.ofDump_dumpBytes_eq (hi.formed kind)]
  exact congrArg Except.ok ((RgbImage.mapColors_congr hkept).trans (RgbImage.mapColors_id _))

namespace FrameDumps

variable {d : FrameDumps} {n : Nat}

/-- The images of a frame with the machines `0` to `n - 1`, each image of a kind that float dumps keep. -/
structure Complete (d : FrameDumps) (n : Nat) : Prop where
  machines : (d.machines.map (·.machine)).Perm (List.range n)
  merge : d.merge.length = n
  countable : ∀ source i, d.Shows source i → i.Countable

theorem Complete.nodup (hd : d.Complete n) : (d.machines.map (·.machine)).Nodup :=
  hd.machines.nodup_iff.mpr List.nodup_range

theorem perm_inOrder (d : FrameDumps) : d.inOrder.machines.Perm d.machines := List.mergeSort_perm _ _

theorem Complete.machines_inOrder (hd : d.Complete n) : d.inOrder.machines.map (·.machine) = List.range n := by
  have hsorted : d.inOrder.machines.Pairwise fun a b => decide (a.machine ≤ b.machine) = true :=
    List.pairwise_mergeSort
      (fun _ _ _ hab hbc => decide_eq_true ((of_decide_eq_true hab).trans (of_decide_eq_true hbc)))
      (fun a b => by simpa using Nat.le_total a.machine b.machine) _
  have hmachines : (d.inOrder.machines.map (·.machine)).Pairwise (· ≤ ·) :=
    List.pairwise_map.mpr (hsorted.imp of_decide_eq_true)
  have hperm := (d.perm_inOrder.map (·.machine)).trans hd.machines
  exact hperm.eq_of_pairwise (fun _ _ _ _ => Nat.le_antisymm) hmachines List.pairwise_le_range

theorem inOrder_eq_self (h : d.machines.map (·.machine) = List.range n) : d.inOrder = d := by
  have hsorted : d.machines.Pairwise fun a b => decide (a.machine ≤ b.machine) = true := by
    have hrange : (d.machines.map (·.machine)).Pairwise (· ≤ ·) := h ▸ List.pairwise_le_range
    exact (List.pairwise_map.mp hrange).imp decide_eq_true
  unfold inOrder
  rw [List.mergeSort_of_pairwise hsorted]

end FrameDumps

/-! ## Loading -/

section Load

variable {m : Type → Type} [Monad m] [LawfulMonad m] {files : Files} {dir : String} {frame : Nat} {format : DumpFormat}

theorem DumpKey.load_eq {k : DumpKey} {i : RgbImage} (h : k.image (files (k.path dir)) = .ok i) :
    DumpKey.load (m := m) files.read dir k = pure i := by
  unfold DumpKey.load Files.read
  simp [h]

theorem SampledImage.load_eq {source : DumpSource} {i : SampledImage}
    (h : ∀ kind, DumpKey.load (m := m) files.read dir ⟨frame, source, kind, format⟩ = pure (i.part kind)) :
    SampledImage.load (m := m) files.read dir frame format source = pure i := by
  unfold SampledImage.load
  rw [h, pure_bind, h, pure_bind]
  rfl

theorem MachineDumps.load_eq {machine : MachineDumps}
    (h : ∀ stage, SampledImage.load (m := m) files.read dir frame format (.machine machine.machine stage) =
      pure (machine.image stage)) :
    MachineDumps.load (m := m) files.read dir frame format machine.machine = pure machine := by
  unfold MachineDumps.load
  simp only [h, pure_bind]
  rfl

/-- Actions that give the items of a list one after the other give the list. -/
theorem collectFrom_eq {α : Type} {action : Nat → ExceptT LoadError m α} (as : List α) (first : Nat)
    (h : ∀ k a, as[k]? = some a → action (first + k) = pure a) : collectFrom action as.length first = pure as := by
  induction as generalizing first with
  | nil => rfl
  | cons a as ih =>
    have hfirst : action first = pure a := h 0 a rfl
    have hrest := ih (first + 1) fun k b hb => by
      rw [Nat.add_assoc, Nat.add_comm 1 k]
      exact h (k + 1) b hb
    rw [List.length_cons, collectFrom, hfirst, pure_bind, hrest, pure_bind]

theorem FrameDumps.load_eq {d : FrameDumps} {n : Nat} (hd : d.Complete n) (h : ∀ source i, d.Shows source i →
    SampledImage.load (m := m) files.read dir frame format source = pure i) :
    FrameDumps.load (m := m) files.read dir n frame format = pure d.inOrder := by
  have hmerge := collectFrom_eq (m := m) d.merge 0 fun k i hi => by
    rw [Nat.zero_add]
    exact h (.merge k) i (.merge hi)
  have hmachines := collectFrom_eq (m := m) d.inOrder.machines 0 fun k machine hk => by
    have hnumber : (List.range n)[k]? = some machine.machine := by
      rw [← hd.machines_inOrder, List.getElem?_map, hk, Option.map_some]
    obtain ⟨_, rfl⟩ : ∃ _ : k < n, k = machine.machine := by simpa [List.getElem?_eq_some_iff] using hnumber
    have hmem : machine ∈ d.machines := d.perm_inOrder.mem_iff.mp (List.mem_of_getElem? hk)
    rw [Nat.zero_add]
    exact MachineDumps.load_eq fun stage => h _ _ (.machine hmem stage)
  have hlength : d.inOrder.machines.length = n := by
    rw [← List.length_map (·.machine), hd.machines_inOrder, List.length_range]
  rw [hd.merge] at hmerge
  rw [hlength] at hmachines
  unfold FrameDumps.load
  rw [h .mergeAll d.mergeAll .mergeAll, pure_bind, hmerge, pure_bind, hmachines, pure_bind]
  rfl

/-- After the dumps of a frame and others have been written, the file of each dump of the frame holds it, so each image
of the frame is loaded as it was. -/
theorem FrameDumps.Complete.load_source {d : FrameDumps} {n : Nat} {ws others : List DumpWrite} (hd : d.Complete n)
    (hws : ws.Perm (d.dumps frame .fbd ++ others))
    (hothers : ∀ w ∈ others, w.key ∉ (d.dumps frame .fbd).map (·.key)) {source : DumpSource} {i : SampledImage}
    (hshows : d.Shows source i) :
    SampledImage.load (m := m) (files.writeAll dir ws).read dir frame .fbd source = pure i := by
  refine SampledImage.load_eq fun kind => DumpKey.load_eq ?_
  let w : DumpWrite := ⟨⟨frame, source, kind, .fbd⟩, i.part kind⟩
  have hw : w ∈ d.dumps frame .fbd := mem_dumps_iff.mpr ⟨source, i, kind, hshows, rfl⟩
  have hsame : ∀ v ∈ ws, v.key = w.key → v = w := by
    intro v hv hkey
    rcases List.mem_append.mp (hws.mem_iff.mp hv) with hv | hv
    · obtain ⟨source', i', kind', hshows', rfl⟩ := mem_dumps_iff.mp hv
      cases hkey
      rw [hshows'.unique hd.nodup hshows]
    · exact absurd (List.mem_map.mpr ⟨w, hw, hkey.symm⟩) (hothers v hv)
  have hfile : files.writeAll dir ws (w.key.path dir) = some w.bytes :=
    Files.writeAll_path (hws.mem_iff.mpr (List.mem_append_left _ hw)) hsame
  rw [hfile]
  exact (hd.countable source i hshows).ofDump_dumpBytes_part kind

end Load

/-- Dumps are loaded again as they were. The images of a frame with the machines `0` to `n - 1` are written to a
directory as float dumps, in any order and mixed with any dumps that are not theirs. No two dumps share a file, so
loading the frame gives these images, with the machines in order, and a verification of the files comes out as one of
the images. -/
theorem FrameDumps.load_writeAll {m : Type → Type} [Monad m] [LawfulMonad m] (files : Files) (dir : String)
    {d : FrameDumps} {n frame : Nat} {ws others : List DumpWrite} (hd : d.Complete n)
    (hws : ws.Perm (d.dumps frame .fbd ++ others))
    (hothers : ∀ w ∈ others, w.key ∉ (d.dumps frame .fbd).map (·.key)) :
    let read : String → m (Option ByteArray) := (files.writeAll dir ws).read
    (Function.Injective fun k : DumpKey => k.path dir) ∧
    FrameDumps.load read dir n frame .fbd = pure d.inOrder ∧
    (∀ json, VerifyRequest.run ⟨dir, n, frame, .fbd, json⟩ read = pure ((d.inOrder.verify frame).output json)) ∧
    d.inOrder.machines.map (·.machine) = List.range n ∧
    (d.machines.map (·.machine) = List.range n → d.inOrder = d) := by
  intro read
  have hload : FrameDumps.load read dir n frame .fbd = pure d.inOrder :=
    load_eq hd fun source i hshows => hd.load_source hws hothers hshows
  refine ⟨DumpKey.path_injective dir, hload, fun json => ?_, hd.machines_inOrder, inOrder_eq_self⟩
  unfold VerifyRequest.run
  rw [hload, pure_bind]

/-- The dumps of two machines are written backwards, the second machine first, beside dumps of another frame, of another
machine and of another format. Some of the colours are no numbers. -/
theorem FrameDumps.load_writeAll_backwards :
    let a : SampledImage := ⟨⟨1, 1, #[⟨⟨0x7fc00001⟩, ⟨0x80000000⟩, .one⟩]⟩, ⟨1, 1, #[.uniform ⟨0x40400000⟩]⟩⟩
    let b : SampledImage := ⟨⟨1, 1, #[.uniform .one]⟩, ⟨1, 1, #[.uniform .zero]⟩⟩
    let d : FrameDumps := ⟨a, [a, b], [⟨1, a, b, b, a⟩, ⟨0, b, a, a, b⟩]⟩
    let others : List DumpWrite :=
      [⟨⟨13, .mergeAll, .beauty, .fbd⟩, b.beauty⟩, ⟨⟨3, .merge 2, .beauty, .fbd⟩, b.beauty⟩,
        ⟨⟨3, .mergeAll, .beauty, .ppm⟩, b.beauty⟩]
    let files : Files := Files.writeAll (fun _ => none) "dumps" (d.dumps 3 .fbd ++ others).reverse
    (FrameDumps.load (m := Id) files.read "dumps" 2 3 .fbd).run =
      .ok ⟨a, [a, b], [⟨0, b, a, a, b⟩, ⟨1, a, b, b, a⟩]⟩ := by
  intro a b d others files
  have ha : a.Countable := by
    refine ⟨fun kind => ?_, fun c hc => ?_⟩
    · cases kind <;> exact ⟨rfl, by decide, by decide⟩
    · obtain rfl := List.mem_singleton.mp (Array.mem_toList_iff.mpr hc)
      exact ⟨rfl, 3, by decide, by decide, by decide⟩
  have hb : b.Countable := by
    refine ⟨fun kind => ?_, fun c hc => ?_⟩
    · cases kind <;> exact ⟨rfl, by decide, by decide⟩
    · obtain rfl := List.mem_singleton.mp (Array.mem_toList_iff.mpr hc)
      exact ⟨rfl, 0, by decide, by decide, by decide⟩
  have hd : d.Complete 2 := by
    refine ⟨by decide, rfl, fun source i hshows => ?_⟩
    cases hshows with
    | mergeAll => exact ha
    | merge hi =>
      have hmem := List.mem_of_getElem? hi
      simp only [d, List.mem_cons, List.not_mem_nil, or_false] at hmem
      rcases hmem with rfl | rfl
      · exact ha
      · exact hb
    | machine hm stage =>
      simp only [d, List.mem_cons, List.not_mem_nil, or_false] at hm
      rcases hm with rfl | rfl
      · cases stage <;> assumption
      · cases stage <;> assumption
  have hothers : ∀ w ∈ others, w.key ∉ (d.dumps 3 .fbd).map (·.key) := by decide
  obtain ⟨-, hload, -⟩ := FrameDumps.load_writeAll (m := Id) (fun _ => none) "dumps" hd (List.reverse_perm _) hothers
  have hsorted : d.inOrder = ⟨a, [a, b], [⟨0, b, a, a, b⟩, ⟨1, a, b, b, a⟩]⟩ := by
    simp [inOrder, d, List.mergeSort, List.MergeSort.Internal.splitInTwo]
  exact hload.trans (congrArg _ hsorted)

end ProgressiveFrame
