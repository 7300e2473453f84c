import ProgressiveFrame.Time

/-!
# Message rates

How many messages arrived in a window of time before now, for each second of it. The stamps of
messages that have left the window are dropped, from the oldest one on, when a message arrives.
-/

namespace ProgressiveFrame

/-- The arrival times of recent messages. -/
structure MessageRate where
  window : Duration
  /-- In order of arrival. -/
  stamps : List Instant
deriving DecidableEq, Inhabited

namespace MessageRate

/-- The rate before the first message. -/
def new (window : Duration) : MessageRate := ⟨window, []⟩

/-- Whether a stamp is still in the window. -/
def isRecent (r : MessageRate) (now stamp : Instant) : Bool := (now.since stamp).nanos ≤ r.window.nanos

/-- A message has arrived. -/
def record (r : MessageRate) (now : Instant) : MessageRate :=
  { r with stamps := (r.stamps ++ [now]).dropWhile fun stamp => !r.isRecent now stamp }

/-- The messages in the window for each second of it. -/
def perSecond {α : Type} [Scalar α] (r : MessageRate) (now : Instant) : α :=
  Scalar.ofNat (r.stamps.countP (r.isRecent now)) / r.window.seconds

@[simp] theorem window_record (r : MessageRate) (now : Instant) : (r.record now).window = r.window := rfl

end MessageRate

end ProgressiveFrame
