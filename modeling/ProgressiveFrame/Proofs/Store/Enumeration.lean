import ProgressiveFrame.Proofs.Store.Readouts

/-!
# The enumeration of AOVs

AOVs are numbered in the order in which their names are first seen, and a name stays what it is first seen as.

* `AovKind`: what an AOV is, whatever its pixels: a channel with so many values for each of them, or an alias.
* `FrameStore.Sighted`: everything that a step can do to the AOVs. It adds a name that is new at the end, or nothing
  (`sighted_after`).
* `FrameStore.Lists`: the store lists what has been seen, each name once, in order and as it was seen first. Each step
  keeps this (`Lists.after`), and so does every run (`Lists.afterAll`).
* `NameIndex`: an index that is kept beside the names, by one look before each insertion. It always finds what the names
  tell (`NameIndex.Mirrors`).
* `aovs_enumerated`: so the enumeration is stable, and the first sight of a name decides what can be done with it.
-/

namespace ProgressiveFrame

/-- What an AOV is, whatever its pixels. -/
inductive AovKind where
  | owned (numChan : Nat)
  | reference (kind : ReferenceKind)
deriving DecidableEq

/-- The kind of an AOV. -/
def Aov.kind : Aov → AovKind
  | .owned c => .owned c.numChan
  | .reference kind => .reference kind

@[simp] theorem Aov.kind_restart (aov : Aov) (keepsValues : Bool) : (aov.restart keepsValues).kind = aov.kind := by
  cases aov with
  | owned c => cases keepsValues <;> rfl
  | reference kind => rfl

namespace StoreStep

/-- The name that a step sees, with the kind of AOV that it would be. An update sees a name even when it is refused. -/
def sighting? : StoreStep → Option (String × AovKind)
  | .request (.write (.updateAov name u)) => some (name, .owned u.numChan)
  | .request (.write (.reference name kind)) => some (name, .reference kind)
  | .request (.write (.update ..)) | .request (.reset _) | .readout .. => none

/-- The names that a run sees, each as often as it is seen. -/
def sightings (steps : List StoreStep) : List (String × AovKind) := steps.filterMap sighting?

theorem sightings_cons (step : StoreStep) (steps : List StoreStep) :
    sightings (step :: steps) = step.sighting?.toList ++ sightings steps := by
  rw [sightings, List.filterMap_cons]
  cases step.sighting? <;> rfl

end StoreStep

namespace FrameStore

variable {s t : FrameStore} {name : String} {index : Nat} {aov aov' : Aov}

/-- The names of the AOVs with their kinds, in the order of first sight. -/
def aovKinds (s : FrameStore) : Array (String × AovKind) := s.aovs.map fun entry => (entry.1, entry.2.kind)

@[simp] theorem size_aovKinds (s : FrameStore) : s.aovKinds.size = s.aovs.size := Array.size_map

theorem aovNames_eq_map (s : FrameStore) : s.aovNames = s.aovKinds.map (·.1) := by
  rw [aovKinds, Array.map_map]
  rfl

theorem aovNames_of_kinds (h : t.aovKinds = s.aovKinds) : t.aovNames = s.aovNames := by
  rw [aovNames_eq_map, h, aovNames_eq_map]

theorem aovNames_of_kinds_push {x : String × AovKind} (h : t.aovKinds = s.aovKinds.push x) :
    t.aovNames = s.aovNames.push x.1 := by
  rw [aovNames_eq_map, h, Array.map_push, aovNames_eq_map]

theorem getElem?_aovKinds (s : FrameStore) (index : Nat) :
    s.aovKinds[index]? = s.aovs[index]?.map fun entry => (entry.1, entry.2.kind) := Array.getElem?_map

theorem aovName?_eq_map (s : FrameStore) (index : Nat) : s.aovName? index = s.aovKinds[index]?.map (·.1) := by
  rw [getElem?_aovKinds, Option.map_map]
  rfl

theorem map_kind_aovAt? (s : FrameStore) (index : Nat) :
    (s.aovAt? index).map Aov.kind = s.aovKinds[index]?.map (·.2) := by
  rw [getElem?_aovKinds, aovAt?, Option.map_map, Option.map_map]
  rfl

theorem aovName?_eq_getElem? (s : FrameStore) (index : Nat) : s.aovName? index = s.aovNames[index]? :=
  Array.getElem?_map.symm

/-- A name is known when it is one of the names. -/
theorem aovIndex?_eq_none_iff : s.aovIndex? name = none ↔ name ∉ s.aovNames := by
  rw [aovIndex?_eq_findIdx?, Array.findIdx?_eq_none_iff]
  exact ⟨fun h hmem => by simpa using h name hmem,
    fun h other hmem => beq_eq_false_iff_ne.mpr fun heq => h (heq ▸ hmem)⟩

/-! ## What a step can do -/

/-- What a step can do to the AOVs, with what it sees. -/
inductive Sighted (s t : FrameStore) : Option (String × AovKind) → Prop where
  | nothing (kinds : t.aovKinds = s.aovKinds) : Sighted s t none
  /-- A name that is known stays as it is. -/
  | known {x : String × AovKind} (hx : x.1 ∈ s.aovNames) (kinds : t.aovKinds = s.aovKinds) : Sighted s t (some x)
  /-- A new name comes last. -/
  | new {x : String × AovKind} (hx : x.1 ∉ s.aovNames) (kinds : t.aovKinds = s.aovKinds.push x) : Sighted s t (some x)

/-- What becomes of the AOVs in a sight is not touched by what leaves their kinds. -/
theorem Sighted.congr {x? : Option (String × AovKind)} (h : s.Sighted t x?) {u : FrameStore}
    (hu : u.aovKinds = t.aovKinds) : s.Sighted u x? := by
  cases h with
  | nothing kinds => exact .nothing (hu.trans kinds)
  | known hx kinds => exact .known hx (hu.trans kinds)
  | new hx kinds => exact .new hx (hu.trans kinds)

theorem sighted_sightAov (s : FrameStore) (name : String) (aov : Aov) :
    s.Sighted (s.sightAov name aov).1 (some (name, aov.kind)) := by
  cases hi : s.aovIndex? name with
  | some index =>
    rw [sightAov_of_known hi]
    refine .known ?_ rfl
    by_contra hnew
    rw [aovIndex?_eq_none_iff.mpr hnew] at hi
    cases hi
  | none =>
    refine .new (aovIndex?_eq_none_iff.mp hi) ?_
    unfold sightAov
    rw [hi]
    exact Array.map_push

/-- An AOV that is replaced by one of its kind. -/
theorem aovKinds_setAov (hat : s.aovAt? index = some aov) (hk : aov'.kind = aov.kind) :
    (s.setAov index aov').aovKinds = s.aovKinds := by
  apply Array.ext_getElem?
  intro i
  rw [getElem?_aovKinds, getElem?_aovKinds, setAov, Array.getElem?_modify]
  split
  · rename_i heq
    subst heq
    rw [aovAt?, Option.map_eq_some_iff] at hat
    obtain ⟨entry, hentry, rfl⟩ := hat
    simp [hentry, hk]
  · rfl

theorem aovKinds_reset (s : FrameStore) (mode : ResetMode) : (s.reset mode).aovKinds = s.aovKinds := by
  rw [aovKinds, aovs_reset, Array.map_map, aovKinds]
  simp [Function.comp_def]

theorem sighted_mergeAov (s : FrameStore) (name : String) (u : TileUpdate) :
    s.Sighted (s.mergeAov name u).1 (some (name, .owned u.numChan)) := by
  have hsight := s.sighted_sightAov name (.owned (.empty s.layout u.numChan))
  unfold mergeAov
  generalize s.sightAov name (.owned (.empty s.layout u.numChan)) = r at hsight
  simp only
  split
  · rename_i c hat
    split
    · rename_i c' hm
      obtain ⟨-, mask, -, rfl⟩ := Channel.mergeUpdate_ok hm
      exact hsight.congr (aovKinds_setAov hat rfl)
    · exact hsight
  · exact hsight

theorem aovAt?_of_ofAov {i : Nat} {e : FrameError} {c : Channel}
    (h : (match s.aovAt? i with
      | some aov => .ok (.ofAov i aov)
      | none => .error e) = Except.ok (Holder.owned index c)) : s.aovAt? index = some (.owned c) := by
  cases hat : s.aovAt? i with
  | none => rw [hat] at h; cases h
  | some aov =>
    rw [hat] at h
    cases aov with
    | owned c => cases h; exact hat
    | reference kind => cases h

/-- A channel that is no well-known one is held by the AOV that owns it. -/
theorem aovAt?_of_holder {source : ReadoutSource} {c : Channel} (h : s.holder source = .ok (.owned index c)) :
    s.aovAt? index = some (.owned c) := by
  cases source with
  | channel kind => cases h
  | aovIndex i => exact aovAt?_of_ofAov h
  | aovName name =>
    rw [holder] at h
    cases hi : s.aovIndex? name with
    | none => rw [hi] at h; cases h
    | some i => rw [hi] at h; exact aovAt?_of_ofAov h

theorem aovKinds_readout (s : FrameStore) (source : ReadoutSource) (o : Orientation) (roi : Option Viewport)
    (extrapolate : Bool) : (s.readout source o roi extrapolate).1.aovKinds = s.aovKinds := by
  unfold readout
  cases hholder : s.holder source with
  | error e => rfl
  | ok held =>
    cases held with
    | wellKnown kind first last => rfl
    | owned index c =>
      refine aovKinds_setAov (aovAt?_of_holder hholder) ?_
      simp only [Aov.kind, AovKind.owned.injEq]
      split
      · exact Channel.numChan_extrapolate ..
      · rfl

/-- A step adds a name that is new at the end of the AOVs, or nothing. -/
theorem sighted_after (s : FrameStore) (step : StoreStep) : s.Sighted (s.after step) step.sighting? := by
  cases step with
  | readout source o roi extrapolate => exact .nothing (s.aovKinds_readout source o roi extrapolate)
  | request q =>
    cases q with
    | reset mode => exact .nothing (s.aovKinds_reset mode)
    | write w =>
      cases w with
      | update kind u =>
        refine .nothing ?_
        simp only [after, serve, write, mergeUpdate]
        split <;> rfl
      | updateAov name u => exact s.sighted_mergeAov name u
      | reference name kind => exact s.sighted_sightAov name (.reference kind)

/-! ## What has been seen -/

/-- An element at the end is a duplicate of what comes before, or new. -/
theorem eraseDups_concat {names : List String} :
    (names ++ [name]).eraseDups = if name ∈ names then names.eraseDups else names.eraseDups ++ [name] := by
  rw [List.eraseDups_append]
  split <;> rename_i hname <;> simp [List.removeAll, hname, List.eraseDups_cons]

/-- The AOVs are what has been seen: each name once, in the order of first sight, and as it was seen first. -/
structure Lists (s : FrameStore) (seen : List (String × AovKind)) : Prop where
  nodup : s.aovNames.toList.Nodup
  names : s.aovNames.toList = (seen.map (·.1)).eraseDups
  kind : ∀ x ∈ s.aovKinds, seen.lookup x.1 = some x.2

namespace Lists

variable {seen : List (String × AovKind)}

theorem empty (v : Viewport) : (FrameStore.empty v).Lists [] where
  nodup := by simp [aovNames, FrameStore.empty]
  names := by simp [aovNames, FrameStore.empty]
  kind _ hx := absurd hx (by simp [aovKinds, FrameStore.empty])

theorem mem_iff (h : s.Lists seen) : name ∈ s.aovNames ↔ name ∈ seen.map (·.1) := by
  rw [← Array.mem_toList_iff, h.names, List.mem_eraseDups]

theorem lookup_eq_none (h : s.Lists seen) (hname : name ∉ s.aovNames) : seen.lookup name = none := by
  rw [h.mem_iff] at hname
  rw [List.lookup_eq_none_iff]
  intro x hx
  exact bne_iff_ne.mpr fun heq => hname (heq ▸ List.mem_map_of_mem hx)

/-- A step adds what it sees. -/
theorem after (h : s.Lists seen) (step : StoreStep) : (s.after step).Lists (seen ++ step.sighting?.toList) := by
  have hsighted := s.sighted_after step
  generalize s.after step = t, step.sighting? = x? at hsighted
  cases hsighted with
  | nothing kinds =>
    have hnames := aovNames_of_kinds kinds
    rw [Option.toList_none, List.append_nil]
    exact ⟨hnames ▸ h.nodup, hnames ▸ h.names, kinds ▸ h.kind⟩
  | @known x hx kinds =>
    have hnames := aovNames_of_kinds kinds
    refine ⟨hnames ▸ h.nodup, ?_, fun y hy => ?_⟩
    · rw [hnames, h.names, List.map_append]
      exact (eraseDups_concat.trans (if_pos (h.mem_iff.mp hx))).symm
    · rw [List.lookup_append, h.kind y (kinds ▸ hy), Option.some_or]
  | @new x hx kinds =>
    have hnames := aovNames_of_kinds_push kinds
    refine ⟨?_, ?_, fun y hy => ?_⟩
    · rw [hnames, Array.toList_push, List.nodup_append]
      refine ⟨h.nodup, List.pairwise_singleton .., fun a ha b hb heq => hx ?_⟩
      rw [← List.mem_singleton.mp hb, ← heq]
      exact Array.mem_toList_iff.mp ha
    · rw [hnames, Array.toList_push, h.names, List.map_append]
      exact (eraseDups_concat.trans (if_neg (mt h.mem_iff.mpr hx))).symm
    · rw [kinds, Array.mem_push] at hy
      rw [List.lookup_append]
      cases hy with
      | inl hy => rw [h.kind y hy, Option.some_or]
      | inr hy => rw [hy, h.lookup_eq_none hx, Option.none_or, Option.toList_some, List.lookup_cons_self]

theorem afterAll (h : s.Lists seen) (steps : List StoreStep) :
    (s.afterAll steps).Lists (seen ++ StoreStep.sightings steps) := by
  induction steps generalizing s seen with
  | nil => rwa [StoreStep.sightings, List.filterMap_nil, List.append_nil]
  | cons step steps ih =>
    have hrest := ih (h.after step)
    rwa [List.append_assoc, ← StoreStep.sightings_cons] at hrest

/-- The index of a name is the one place where it stands. -/
theorem aovIndex?_eq_some_iff (h : s.Lists seen) :
    s.aovIndex? name = some index ↔ index < s.aovs.size ∧ s.aovName? index = some name := by
  rw [aovIndex?_eq_findIdx?, Array.findIdx?_eq_some_iff_getElem, aovName?_eq_getElem?, Array.getElem?_eq_some_iff]
  constructor
  · rintro ⟨hlt, hname, -⟩
    exact ⟨by rwa [size_aovNames] at hlt, hlt, eq_of_beq hname⟩
  · rintro ⟨-, hlt, hname⟩
    refine ⟨hlt, beq_iff_eq.mpr hname, fun j hj heq => ?_⟩
    have hne := List.pairwise_iff_getElem.mp h.nodup j index (by simpa using Nat.lt_trans hj hlt)
      (by simpa using hlt) hj
    rw [Array.getElem_toList, Array.getElem_toList] at hne
    exact hne ((eq_of_beq heq).trans hname.symm)

theorem map_kind_aov? (h : s.Lists seen) (name : String) : (s.aov? name).map Aov.kind = seen.lookup name := by
  cases hi : s.aovIndex? name with
  | none => rw [h.lookup_eq_none (aovIndex?_eq_none_iff.mp hi), aov?, hi]; rfl
  | some index =>
    obtain ⟨hlt, hname⟩ := h.aovIndex?_eq_some_iff.mp hi
    rw [← aovAt?_of_aovIndex? hi, map_kind_aovAt?]
    rw [aovName?_eq_map] at hname
    obtain ⟨x, hx, rfl⟩ := Option.map_eq_some_iff.mp hname
    rw [hx, h.kind x (Array.mem_of_getElem? hx), Option.map_some]

end Lists

/-! ## What stays -/

/-- The AOVs of the first store stand at their places in the second one, under their names and of their kinds. -/
structure KeepsAovs (s t : FrameStore) : Prop where
  size : s.aovs.size ≤ t.aovs.size
  name : ∀ i < s.aovs.size, t.aovName? i = s.aovName? i
  kind : ∀ i < s.aovs.size, (t.aovAt? i).map Aov.kind = (s.aovAt? i).map Aov.kind

theorem prefix_after (s : FrameStore) (step : StoreStep) : s.aovKinds.toList <+: (s.after step).aovKinds.toList := by
  have hsighted := s.sighted_after step
  generalize s.after step = t, step.sighting? = x? at hsighted
  cases hsighted with
  | nothing kinds => exact kinds ▸ List.prefix_rfl
  | known hx kinds => exact kinds ▸ List.prefix_rfl
  | new hx kinds =>
    rw [kinds, Array.toList_push]
    exact List.prefix_append _ _

/-- What happens to a store adds AOVs behind the ones that there are. -/
theorem prefix_afterAll (s : FrameStore) (steps : List StoreStep) :
    s.aovKinds.toList <+: (s.afterAll steps).aovKinds.toList := by
  induction steps generalizing s with
  | nil => exact List.prefix_rfl
  | cons step steps ih => exact (s.prefix_after step).trans (ih (s.after step))

theorem keepsAovs_of_prefix (h : s.aovKinds.toList <+: t.aovKinds.toList) : s.KeepsAovs t := by
  have hkept (i : Nat) (hi : i < s.aovs.size) : t.aovKinds[i]? = s.aovKinds[i]? := by
    have hentry := List.prefix_iff_getElem?.mp h i (by simpa using hi)
    rw [Array.getElem?_toList] at hentry
    rw [hentry, Array.getElem_toList, Array.getElem?_eq_getElem]
  refine ⟨?_, fun i hi => ?_, fun i hi => ?_⟩
  · simpa using h.length_le
  · rw [aovName?_eq_map, aovName?_eq_map, hkept i hi]
  · rw [map_kind_aovAt?, map_kind_aovAt?, hkept i hi]

end FrameStore

/-! ## An index beside the names -/

/-- Names in the order of first sight, and beside them an index that is not made from them. -/
structure NameIndex where
  names : Array String := #[]
  index : Std.HashMap String Nat := ∅

namespace NameIndex

/-- Looks for a name in the index, and adds it to both when it is not found. -/
def sight (t : NameIndex) (name : String) : NameIndex :=
  match t.index[name]? with
  | some _ => t
  | none => ⟨t.names.push name, t.index.insert name t.names.size⟩

/-- The index after these names have been seen. -/
def ofNames (names : List String) : NameIndex := names.foldl sight {}

/-- The index finds what a search through the AOVs finds. -/
structure Mirrors (t : NameIndex) (s : FrameStore) : Prop where
  names : t.names = s.aovNames
  index : ∀ name, t.index[name]? = s.aovIndex? name

variable {t : NameIndex} {s : FrameStore}

theorem mirrors_empty (v : Viewport) : ({} : NameIndex).Mirrors (.empty v) where
  names := by simp [FrameStore.aovNames, FrameStore.empty]
  index name := by simp [FrameStore.aovIndex?, FrameStore.empty]

theorem Mirrors.congr (h : t.Mirrors s) {s' : FrameStore} (hnames : s'.aovNames = s.aovNames) : t.Mirrors s' where
  names := h.names.trans hnames.symm
  index name := by
    rw [FrameStore.aovIndex?_eq_findIdx?, hnames, ← FrameStore.aovIndex?_eq_findIdx?]
    exact h.index name

/-- A step keeps the index right, when the index is told what the step sees. -/
theorem Mirrors.after (h : t.Mirrors s) (step : StoreStep) :
    ((step.sighting?.toList.map (·.1)).foldl sight t).Mirrors (s.after step) := by
  have hsighted := s.sighted_after step
  generalize s.after step = s', step.sighting? = x? at hsighted
  cases hsighted with
  | nothing kinds => exact h.congr (FrameStore.aovNames_of_kinds kinds)
  | @known x hx kinds =>
    have hsame : t.sight x.1 = t := by
      unfold sight
      split
      · rfl
      · rename_i hnone
        rw [h.index, FrameStore.aovIndex?_eq_none_iff] at hnone
        exact absurd hx hnone
    change (t.sight x.1).Mirrors s'
    rw [hsame]
    exact h.congr (FrameStore.aovNames_of_kinds kinds)
  | @new x hx kinds =>
    have hnames := FrameStore.aovNames_of_kinds_push kinds
    have hnone : t.index[x.1]? = none := (h.index x.1).trans (FrameStore.aovIndex?_eq_none_iff.mpr hx)
    have hadded : t.sight x.1 = ⟨t.names.push x.1, t.index.insert x.1 t.names.size⟩ := by
      unfold sight
      rw [hnone]
    change (t.sight x.1).Mirrors s'
    rw [hadded]
    refine ⟨by rw [h.names, hnames], fun name => ?_⟩
    rw [Std.HashMap.getElem?_insert, h.index, FrameStore.aovIndex?_eq_findIdx?, FrameStore.aovIndex?_eq_findIdx?,
      hnames, Array.findIdx?_push, h.names]
    cases heq : x.1 == name with
    | false => simp
    | true =>
      rw [eq_of_beq heq] at hx
      rw [← FrameStore.aovIndex?_eq_findIdx?, FrameStore.aovIndex?_eq_none_iff.mpr hx]
      rfl

theorem Mirrors.afterAll (h : t.Mirrors s) (steps : List StoreStep) :
    (((StoreStep.sightings steps).map (·.1)).foldl sight t).Mirrors (s.afterAll steps) := by
  induction steps generalizing t s with
  | nil => exact h
  | cons step steps ih =>
    rw [StoreStep.sightings_cons, List.map_append, List.foldl_append]
    exact ih (h.after step)

end NameIndex

/-! ## The enumeration -/

namespace FrameStore

variable {s : FrameStore} {name : String}

/-- A name that has been seen is not made an alias again. -/
theorem registerReference_of_known (hname : name ∈ s.aovNames) (kind : ReferenceKind) :
    s.registerReference name kind = s := by
  cases hi : s.aovIndex? name with
  | none => exact absurd hname (aovIndex?_eq_none_iff.mp hi)
  | some index => rw [registerReference, sightAov_of_known hi]

/-- An AOV keeps the number of its values, and an update with another number leaves no trace. -/
theorem mergeAov_of_numChan_ne {c : Channel} {u : TileUpdate} (hc : s.aov? name = some (.owned c))
    (hn : u.numChan ≠ c.numChan) : ∃ e, s.mergeAov name u = (s, .error e) ∧
      (u.mask.layout = c.layout → e = .dimensionMismatch .channelCount c.numChan u.numChan) := by
  obtain ⟨index, hi, hat⟩ := exists_aovIndex? hc
  obtain ⟨e, he, hlayout⟩ : ∃ e, u.mismatch? c.layout c.numChan = some e ∧
      (u.mask.layout = c.layout → e = .dimensionMismatch .channelCount c.numChan u.numChan) := by
    by_cases hl : u.mask.layout = c.layout
    · exact ⟨_, by rw [TileUpdate.mismatch?, if_neg (not_not_intro hl), if_pos hn], fun _ => rfl⟩
    · exact ⟨_, by rw [TileUpdate.mismatch?, if_pos hl], fun h => absurd h hl⟩
  refine ⟨e, ?_, hlayout⟩
  rw [mergeAov, sightAov_of_known hi]
  simp only [hat, Channel.mergeUpdate, he]

/-- The AOVs of the store are enumerated as their names have been seen. -/
structure Enumerates (s : FrameStore) (seen : List (String × AovKind)) : Prop where
  nodup : s.aovNames.toList.Nodup
  order : s.aovNames.toList = (seen.map (·.1)).eraseDups
  index : ∀ name i, s.aovIndex? name = some i ↔ i < s.aovs.size ∧ s.aovName? i = some name
  /-- An index of its own, made by looking and then inserting, finds the same. -/
  mirrored : (NameIndex.ofNames (seen.map (·.1))).Mirrors s
  /-- The kind is that of the first sight. -/
  kind : ∀ name, (s.aov? name).map Aov.kind = seen.lookup name

/-- What an AOV was first seen as decides what is refused from then on. What is refused leaves the store as it is. -/
structure Settles (s : FrameStore) (seen : List (String × AovKind)) : Prop where
  known : ∀ name kind, name ∈ seen.map (·.1) → s.registerReference name kind = s
  reference : ∀ name kind u, seen.lookup name = some (.reference kind) →
    s.mergeAov name u = (s, .error (.referenceAov name))
  owned : ∀ name n u, seen.lookup name = some (.owned n) → u.numChan ≠ n → ∃ e, s.mergeAov name u = (s, .error e) ∧
    (u.mask.layout = s.layout → e = .dimensionMismatch .channelCount n u.numChan)

theorem Lists.settles {seen : List (String × AovKind)} (h : s.Lists seen) (hf : s.Formed) : s.Settles seen where
  known name kind hname := registerReference_of_known (h.mem_iff.mpr hname) kind
  reference name kind u hfirst := by
    rw [← h.map_kind_aov?, Option.map_eq_some_iff] at hfirst
    obtain ⟨aov, ha, hkind⟩ := hfirst
    cases aov with
    | owned c => cases hkind
    | reference kind => exact mergeAov_reference ha
  owned name n u hfirst hn := by
    rw [← h.map_kind_aov?, Option.map_eq_some_iff] at hfirst
    obtain ⟨aov, ha, hkind⟩ := hfirst
    cases aov with
    | reference kind => cases hkind
    | owned c =>
      cases hkind
      obtain ⟨index, -, hat⟩ := exists_aovIndex? ha
      have hshape := hf.alike.aov index
      rw [hat] at hshape
      cases hshape with
      | some hshape =>
        cases hshape with
        | owned sized _ => exact sized.layout_eq ▸ mergeAov_of_numChan_ne ha hn

/-- The enumeration of AOVs is stable. After any run, the names are distinct and stand in the order in which they were
first seen; a name has the index at which it stands, and its kind is that of its first sight. Whatever happens then,
each index keeps its name and its kind. The first sight decides: a known name is not made an alias, and an update of an
alias, or with another number of values, is refused and changes nothing. -/
theorem aovs_enumerated (v : Viewport) (past later : List StoreStep) :
    let s := (FrameStore.empty v).afterAll past
    let seen := StoreStep.sightings past
    s.Enumerates seen ∧ s.KeepsAovs (s.afterAll later) ∧ s.Settles seen := by
  intro s seen
  have h : s.Lists seen := (Lists.empty v).afterAll past
  refine ⟨?_, keepsAovs_of_prefix (s.prefix_afterAll later), h.settles ((formed_empty v).afterAll past)⟩
  exact ⟨h.nodup, h.names, fun _ _ => h.aovIndex?_eq_some_iff, (NameIndex.mirrors_empty v).afterAll past,
    h.map_kind_aov?⟩

/-- An alias, an AOV of one value, and an AOV whose first update does not fit and which stays all the same. They are
seen again, and another one comes. -/
theorem aovs_enumerated_three :
    let past : List StoreStep := [.request (.write (.reference "mask" .alpha)),
      .request (.write (.updateAov "depth" (.onePixel ⟨2, 1⟩ 1 0 #[⟨5⟩]))),
      .request (.write (.updateAov "late" (.onePixel ⟨8, 8⟩ 1 0 #[⟨6⟩, ⟨7⟩]))),
      .request (.write (.updateAov "mask" (.onePixel ⟨2, 1⟩ 0 0 #[⟨8⟩]))), .request (.reset .full),
      .request (.write (.reference "depth" .weight)), .readout (.aovName "late") .topDown none true]
    let s := (FrameStore.empty ⟨0, 0, 1, 0⟩).afterAll past
    let t := s.afterAll [.request (.write (.reference "more" .beauty))]
    s.aovNames = #["mask", "depth", "late"] ∧ s.aovIndex? "late" = some 2 ∧
      (s.aov? "late").map Aov.kind = some (.owned 2) ∧ t.aovs.size = 4 ∧ t.aovName? 2 = some "late" ∧
      s.registerReference "depth" .weight = s ∧
      s.mergeAov "mask" (.onePixel ⟨2, 1⟩ 0 0 #[⟨8⟩]) = (s, .error (.referenceAov "mask")) ∧
      s.mergeAov "late" (.onePixel ⟨2, 1⟩ 0 0 #[⟨8⟩]) = (s, .error (.dimensionMismatch .channelCount 2 1)) := by
  intro past s t
  obtain ⟨hs, hkeeps, hsettles⟩ :=
    aovs_enumerated ⟨0, 0, 1, 0⟩ past [.request (.write (.reference "more" .beauty))]
  have hnames : s.aovName? 2 = some "late" := by decide +kernel
  refine ⟨by decide +kernel, (hs.index "late" 2).mpr ⟨by decide +kernel, hnames⟩,
    (hs.kind "late").trans (by decide +kernel), by decide +kernel, (hkeeps.name 2 (by decide +kernel)).trans hnames,
    hsettles.known "depth" .weight (by decide +kernel),
    hsettles.reference "mask" .alpha _ (by decide +kernel), ?_⟩
  obtain ⟨e, he, hcause⟩ := hsettles.owned "late" 2 (.onePixel ⟨2, 1⟩ 0 0 #[⟨8⟩]) (by decide +kernel) (by decide)
  rw [he, hcause (by decide +kernel)]
  rfl

end FrameStore

end ProgressiveFrame
