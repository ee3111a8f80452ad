import Stylesheet.Color.Basic

/-!
# Hue, saturation and lightness

* `Hsl.ofColor`, `Hsl.toColor`: the two directions.
-/

namespace Stylesheet

/-- A colour by its hue in degrees, and its saturation and lightness between zero and one. -/
structure Hsl where
  hue : Float
  saturation : Float
  lightness : Float

namespace Hsl

def ofColor (c : Color) : Hsl :=
  let r := Binary.ofInt c.red / 255
  let g := Binary.ofInt c.green / 255
  let b := Binary.ofInt c.blue / 255
  let most := max (max r g) b
  let least := min (min r g) b
  let lightness := (most + least) / 2
  let d := most - least
  if d == 0 then ⟨0, 0, lightness⟩
  else
    let saturation := if 0.5 < lightness then d / (2 - most - least) else d / (most + least)
    let sextant :=
      if most == r then (g - b) / d + (if g < b then 6 else 0)
      else if most == g then (b - r) / d + 2
      else (r - g) / d + 4
    ⟨sextant * 60, saturation, lightness⟩

/-- A number brought between zero and one. -/
def clamp (x : Float) : Float := if x < 0 then 0 else if 1 < x then 1 else x

/-- The part of a colour at a hue between zero and one, as a byte. -/
def channel (p q t : Float) : Nat :=
  let t := Binary.wrap t 1
  let v :=
    if t < 1 / 6 then p + (q - p) * 6 * t
    else if t < 0.5 then q
    else if t < 2 / 3 then p + (q - p) * (2 / 3 - t) * 6
    else p
  Binary.byte (Binary.truncate (Binary.round (v * 255)))

/-- The colour with the given alpha. -/
def toColor (x : Hsl) (alpha : Nat) : Color :=
  let h := Binary.wrap x.hue 360 / 360
  let s := clamp x.saturation
  let l := clamp x.lightness
  let q := if l ≤ 0.5 then l * (1 + s) else l + s - l * s
  let p := 2 * l - q
  ⟨channel p q (h + 1 / 3), channel p q h, channel p q (h - 1 / 3), alpha⟩

end Hsl

end Stylesheet
