import ProgressiveFrame.Channel.Readout

/-!
# Frame stores

A frame store holds every channel of one viewport: five well-known channels and any number of
arbitrary output variables (AOVs). An AOV either owns a channel or borrows one from a well-known
channel; which of the two is settled when its name is first seen, and its index with it.
-/

namespace ProgressiveFrame

/-- The channels that every frame has. -/
inductive WellKnown where
  | beauty
  | pixelInfo
  | heatMap
  | weight
  | beautyOdd
deriving DecidableEq, Inhabited

namespace WellKnown

/-- The well-known channels in their fixed order. -/
def all : List WellKnown := [.beauty, .pixelInfo, .heatMap, .weight, .beautyOdd]

/-- The names of the channels. -/
def names : List (String × WellKnown) :=
  [("beauty", .beauty), ("pixel-info", .pixelInfo), ("heat-map", .heatMap), ("weight", .weight),
    ("beauty-odd", .beautyOdd)]

/-- The number of values of a pixel. -/
def numChan : WellKnown → Nat
  | .beauty | .beautyOdd => 4
  | .pixelInfo | .heatMap | .weight => 1

/-- Whether the channel shows colour, which a reset may keep on the screen. -/
def isColor : WellKnown → Bool
  | .beauty | .beautyOdd => true
  | .pixelInfo | .heatMap | .weight => false

theorem isColor_iff {kind : WellKnown} : kind.isColor = true ↔ kind = .beauty ∨ kind = .beautyOdd := by
  cases kind <;> decide

end WellKnown

/-- What an AOV without a channel of its own borrows. -/
inductive ReferenceKind where
  | beauty
  | alpha
  | heatMap
  | weight
deriving DecidableEq, Inhabited

/-- The names of what can be borrowed. -/
def ReferenceKind.names : List (String × ReferenceKind) :=
  [("beauty", .beauty), ("alpha", .alpha), ("heat-map", .heatMap), ("weight", .weight)]

/-- The channel that is borrowed from, and the values `first` to `last - 1` of each of its pixels. -/
def ReferenceKind.source : ReferenceKind → WellKnown × Nat × Nat
  | .beauty => (.beauty, 0, 3)
  | .alpha => (.beauty, 3, 4)
  | .heatMap => (.heatMap, 0, 1)
  | .weight => (.weight, 0, 1)

/-- What an AOV stands for. -/
inductive Aov where
  | owned (channel : Channel)
  | reference (kind : ReferenceKind)

/-- How much of the previous frame a new frame wipes. -/
inductive ResetMode where
  /-- Every channel becomes zero. -/
  | full
  /-- Colour channels keep their values and lose their coverage; all others become zero. -/
  | preserveColor
deriving DecidableEq

instance : Inhabited ResetMode := ⟨.preserveColor⟩

/-- One value for each well-known channel. -/
structure PerWellKnown (α : Type) where
  beauty : α
  pixelInfo : α
  heatMap : α
  weight : α
  beautyOdd : α

namespace PerWellKnown

variable {α : Type}

/-- The values that a function gives. -/
def ofFn (f : WellKnown → α) : PerWellKnown α :=
  ⟨f .beauty, f .pixelInfo, f .heatMap, f .weight, f .beautyOdd⟩

/-- The value of a channel. -/
def get (p : PerWellKnown α) : WellKnown → α
  | .beauty => p.beauty
  | .pixelInfo => p.pixelInfo
  | .heatMap => p.heatMap
  | .weight => p.weight
  | .beautyOdd => p.beautyOdd

/-- The values with that of one channel replaced. -/
def set (p : PerWellKnown α) (kind : WellKnown) (v : α) : PerWellKnown α :=
  match kind with
  | .beauty => { p with beauty := v }
  | .pixelInfo => { p with pixelInfo := v }
  | .heatMap => { p with heatMap := v }
  | .weight => { p with weight := v }
  | .beautyOdd => { p with beautyOdd := v }

@[simp] theorem get_ofFn (f : WellKnown → α) (kind : WellKnown) : (ofFn f).get kind = f kind := by
  cases kind <;> rfl

theorem get_set (p : PerWellKnown α) (kind other : WellKnown) (v : α) :
    (p.set kind v).get other = if other = kind then v else p.get other := by
  cases kind <;> cases other <;> rfl

end PerWellKnown

/-- All channels of one viewport. -/
structure FrameStore where
  viewport : Viewport
  channels : PerWellKnown Channel
  /-- The AOVs with their names, in the order of first sight. -/
  aovs : Array (String × Aov)

namespace FrameStore

/-- The store without data. -/
def empty (viewport : Viewport) : FrameStore where
  viewport := viewport
  channels := .ofFn fun kind => .empty ⟨viewport.width, viewport.height⟩ kind.numChan
  aovs := #[]

/-- The tile layout of every channel. -/
def layout (s : FrameStore) : TileLayout := ⟨s.viewport.width, s.viewport.height⟩

/-- A well-known channel. -/
def channel (s : FrameStore) (kind : WellKnown) : Channel := s.channels.get kind

/-- The store with one well-known channel replaced. -/
def setChannel (s : FrameStore) (kind : WellKnown) (c : Channel) : FrameStore :=
  { s with channels := s.channels.set kind c }

@[simp] theorem channel_setChannel (s : FrameStore) (kind other : WellKnown) (c : Channel) :
    (s.setChannel kind c).channel other = if other = kind then c else s.channel other :=
  PerWellKnown.get_set ..

/-! ## AOVs -/

/-- The index of an AOV. -/
def aovIndex? (s : FrameStore) (name : String) : Option Nat := s.aovs.findIdx? (·.1 == name)

/-- The AOV of an index. -/
def aovAt? (s : FrameStore) (index : Nat) : Option Aov := s.aovs[index]?.map (·.2)

/-- The AOV of a name. -/
def aov? (s : FrameStore) (name : String) : Option Aov := s.aovIndex? name >>= s.aovAt?

/-- The name of the AOV of an index. -/
def aovName? (s : FrameStore) (index : Nat) : Option String := s.aovs[index]?.map (·.1)

/-- What the AOV of a name borrows, if it borrows. -/
def aovReference? (s : FrameStore) (name : String) : Option ReferenceKind :=
  match s.aov? name with
  | some (.reference kind) => some kind
  | _ => none

/-- The store with the AOV of an index replaced. -/
def setAov (s : FrameStore) (index : Nat) (aov : Aov) : FrameStore :=
  { s with aovs := s.aovs.modify index fun entry => (entry.1, aov) }

/-- The index of a name, which is appended with the given AOV when it has not been seen before. -/
def sightAov (s : FrameStore) (name : String) (aov : Aov) : FrameStore × Nat :=
  match s.aovIndex? name with
  | some index => (s, index)
  | none => ({ s with aovs := s.aovs.push (name, aov) }, s.aovs.size)

/-! ## Updates -/

/-- Begins a new frame. -/
def reset (s : FrameStore) (mode : ResetMode) : FrameStore :=
  { s with
    channels := .ofFn fun kind =>
      if mode = .preserveColor ∧ kind.isColor then (s.channel kind).resetCoverage else (s.channel kind).reset
    aovs := s.aovs.map fun entry => match entry with
      | (name, .owned c) => (name, .owned c.reset)
      | (name, .reference kind) => (name, .reference kind) }

/-- Merges an update into a well-known channel. -/
def mergeUpdate (s : FrameStore) (kind : WellKnown) (u : TileUpdate) : FrameStore × Except FrameError Unit :=
  match (s.channel kind).mergeUpdate u with
  | .ok c => (s.setChannel kind c, .ok ())
  | .error e => (s, .error e)

/-- Merges an update into an AOV. A name that has not been seen before gets an empty channel with as
many values as the update has, and keeps it even when the update is then refused. -/
def mergeAov (s : FrameStore) (name : String) (u : TileUpdate) : FrameStore × Except FrameError Unit :=
  let (s, index) := s.sightAov name (.owned (.empty s.layout u.numChan))
  match s.aovAt? index with
  | some (.owned c) =>
    match c.mergeUpdate u with
    | .ok c => (s.setAov index (.owned c), .ok ())
    | .error e => (s, .error e)
  | _ => (s, .error (.referenceAov name))

/-- Makes a name that has not been seen before an alias of a well-known channel. -/
def registerReference (s : FrameStore) (name : String) (kind : ReferenceKind) : FrameStore :=
  (s.sightAov name (.reference kind)).1

@[simp] theorem viewport_reset (s : FrameStore) (mode : ResetMode) : (s.reset mode).viewport = s.viewport := rfl

theorem channel_reset (s : FrameStore) (mode : ResetMode) (kind : WellKnown) :
    (s.reset mode).channel kind =
      if mode = .preserveColor ∧ kind.isColor then (s.channel kind).resetCoverage else (s.channel kind).reset :=
  PerWellKnown.get_ofFn ..

/-! ## Views -/

/-- The coverage of a well-known channel. -/
def mask (s : FrameStore) (kind : WellKnown) : PixelMask := (s.channel kind).mask

/-- The values of a pixel of a well-known channel. -/
def pixel? (s : FrameStore) (kind : WellKnown) (x y : Nat) : Option (Array Binary32) := (s.channel kind).pixel? x y

end FrameStore

end ProgressiveFrame
