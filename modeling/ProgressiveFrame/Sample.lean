import ProgressiveFrame.Scalar

/-!
# Accumulated samples

A sample is the mean colour of a pixel together with the number of rays it was averaged over.
Two of them combine by weighting each colour with its share of the rays (`Sample.merge`).
-/

namespace ProgressiveFrame

/-- The three components of a colour. -/
structure Rgb (α : Type) where
  r : α
  g : α
  b : α
deriving DecidableEq, Inhabited

namespace Rgb

/-- The colour with one value in all three components. -/
def uniform {α : Type} (v : α) : Rgb α := ⟨v, v, v⟩

/-- The components in order. -/
def toList {α : Type} (c : Rgb α) : List α := [c.r, c.g, c.b]

/-- A function applied to each component. -/
def map {α β : Type} (f : α → β) (c : Rgb α) : Rgb β := ⟨f c.r, f c.g, f c.b⟩

/-- A function applied to the components of two colours. -/
def zipWith {α β γ : Type} (f : α → β → γ) (c : Rgb α) (d : Rgb β) : Rgb γ := ⟨f c.r d.r, f c.g d.g, f c.b d.b⟩

/-- Whether a test holds of each pair of components. -/
def all₂ {α β : Type} (p : α → β → Bool) (c : Rgb α) (d : Rgb β) : Bool := p c.r d.r && p c.g d.g && p c.b d.b

end Rgb

/-- A colour averaged over `count` rays. -/
structure Sample (α : Type) where
  color : Rgb α
  count : α
deriving DecidableEq, Inhabited

namespace Sample

variable {α : Type} [Scalar α]

/-- The sample of no rays, which is black. -/
def zero : Sample α := ⟨Rgb.uniform Scalar.zero, Scalar.zero⟩

/-- The sample of the rays of both sides. It is `Sample.zero` unless their number is positive. -/
def merge (a b : Sample α) : Sample α :=
  let total := a.count + b.count
  if Scalar.lt Scalar.zero total then
    let wa := a.count / total
    let wb := b.count / total
    ⟨a.color.zipWith (fun va vb => va * wa + vb * wb) b.color, total⟩
  else zero

end Sample

end ProgressiveFrame
