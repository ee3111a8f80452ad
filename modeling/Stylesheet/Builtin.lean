import Stylesheet.Color.Hsl
import Stylesheet.Table

/-!
# Built-in functions

* `Builtin`, `Builtin.apply`: the functions. A call with arguments that a function does not handle
  is written back as it was.
* `FunctionTable`: the functions that a compilation knows.
-/

namespace Stylesheet

inductive Builtin where
  | percentage
  | ceil
  | floor
  | round
  | rgba
  | lighten
  | darken
  | saturate
  | desaturate
  | adjustHue
  deriving DecidableEq

namespace Builtin

def all : List Builtin :=
  [percentage, ceil, floor, round, rgba, lighten, darken, saturate, desaturate, adjustHue]

def name : Builtin → String
  | percentage => "percentage"
  | ceil => "ceil"
  | floor => "floor"
  | round => "round"
  | rgba => "rgba"
  | lighten => "lighten"
  | darken => "darken"
  | saturate => "saturate"
  | desaturate => "desaturate"
  | adjustHue => "adjust-hue"

/-- The text of a call. -/
def echo (name : String) (args : List Value) : Value :=
  .literal (name ++ "(" ++ ", ".intercalate (args.map Value.text) ++ ")")

/-- A function of one quantity. -/
def onQuantity (name : String) (f : Quantity → Quantity) : List Value → Value
  | [.quantity q] => .quantity (f q)
  | args => echo name args

/-- The colour that a value stands for. -/
def color? : Value → Option Color
  | .literal s => Color.ofText? s
  | _ => none

/-- A function of a colour and a number, given by what it does to hue, saturation and lightness. -/
def onColor (name : String) (f : Hsl → Float → Hsl) : List Value → Value
  | [v, .quantity amount] =>
    match color? v with
    | some c => .literal ((f (.ofColor c) amount.number).toColor c.alpha).text
    | none => echo name [v, .quantity amount]
  | args => echo name args

/-- A hexadecimal colour with another alpha. -/
def withAlpha (name : String) : List Value → Value
  | [.literal s, .quantity alpha] =>
    match if s.startsWith "#" then Color.ofText? s else none with
    | some c => .literal (c.callText alpha.text)
    | none => echo name [.literal s, .quantity alpha]
  | args => echo name args

/-- The result of a call. -/
def apply (f : Builtin) : List Value → Value :=
  match f with
  | percentage => onQuantity f.name fun q => ⟨q.number * 100, "%"⟩
  | ceil => onQuantity f.name fun q => { q with number := Binary.ceil q.number }
  | floor => onQuantity f.name fun q => { q with number := Binary.floor q.number }
  | round => onQuantity f.name fun q => { q with number := Binary.round q.number }
  | rgba => withAlpha f.name
  | lighten => onColor f.name fun c n => { c with lightness := c.lightness + n / 100 }
  | darken => onColor f.name fun c n => { c with lightness := c.lightness - n / 100 }
  | saturate => onColor f.name fun c n => { c with saturation := c.saturation + n / 100 }
  | desaturate => onColor f.name fun c n => { c with saturation := c.saturation - n / 100 }
  | adjustHue => onColor f.name fun c n => { c with hue := c.hue + n }

end Builtin

/-- The functions that a compilation knows, by name. Any function of values can be among them. -/
abbrev FunctionTable := Table (List Value → Value)

namespace FunctionTable

/-- All built-in functions. -/
def builtins : FunctionTable := Table.empty.insertAll (Builtin.all.map fun f => (f.name, f.apply))

/-- The names in alphabetical order. -/
def names (t : FunctionTable) : List String :=
  t.entries.map Prod.fst

end FunctionTable

end Stylesheet
