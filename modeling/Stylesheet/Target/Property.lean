import Stylesheet.Sheet.Basic
import Stylesheet.Table
import Stylesheet.Target.Browser

/-!
# Properties with vendor copies

Old browsers know some properties under a name with the mark of their vendor only. For them a
declaration is written once more for each vendor, ahead of the declaration itself.

* `PropertyInfo`: up to which versions a property needs copies, and how they are made.
* `PropertyInfo.patches`: the copies of a declaration.
* `PropertyTable.standard`: what is known of commonly marked properties.
-/

namespace Stylesheet

/-- How a copy is made. -/
inductive Patcher where
  /-- The mark goes before the name. -/
  | name
  /-- The mark goes before the name, and before each keyword `transform` in the value. -/
  | nameAndValue
  deriving DecidableEq

/-- The versions of each browser from which on a property needs no copy; zero if it never does. -/
structure Support where
  chrome : Float32 := 0
  edge : Float32 := 0
  firefox : Float32 := 0
  internetExplorer : Float32 := 0
  opera : Float32 := 0
  safari : Float32 := 0

def Support.threshold (s : Support) : BrowserKind → Float32
  | .chrome => s.chrome
  | .edge => s.edge
  | .firefox => s.firefox
  | .internetExplorer => s.internetExplorer
  | .opera => s.opera
  | .safari => s.safari

structure PropertyInfo where
  support : Support
  patcher : Patcher

/-! ## Copies of values -/

mutual

/-- A value with the mark of a vendor before each keyword `transform`, also within lists. -/
def Value.marked (vendor : Vendor) : Value → Value
  | .literal s => .literal (if s = "transform" then vendor.mark ++ s else s)
  | .list items separator => .list (allMarked vendor items) separator
  | v => v

def allMarked (vendor : Vendor) : List Value → List Value
  | [] => []
  | v :: vs => v.marked vendor :: allMarked vendor vs

end

/-! ## Copies of declarations -/

/-- A copy of a declaration for a vendor. -/
structure Patch where
  name : String
  value : Value

namespace PropertyInfo

variable (info : PropertyInfo)

/-- Whether any browser needs copies. -/
def hasPatches : Bool := BrowserKind.all.any fun kind => info.support.threshold kind != 0

/-- Whether a browser needs a copy. -/
def hasPatch (b : Browser) : Bool := decide (b.version < info.support.threshold b.kind)

/-- Whether some of the browsers need a copy. -/
def needsExpansion (targets : List Browser) : Bool :=
  info.hasPatches && targets.any info.hasPatch

def patch (d : Declaration) (vendor : Vendor) : Patch where
  name := vendor.mark ++ d.name
  value := match info.patcher with
    | .name => d.value
    | .nameAndValue => d.value.marked vendor

/-- The vendors that need a copy and are not in `done`, in the order of the targets. -/
def vendorsFrom (done : List Vendor) : List Browser → List Vendor
  | [] => []
  | b :: bs =>
    if b.vendor ∈ done ∨ info.hasPatch b = false then vendorsFrom done bs
    else b.vendor :: vendorsFrom (b.vendor :: done) bs

/-- The copies of a declaration, one a vendor, in the order of the targets. -/
def patches (d : Declaration) (targets : List Browser) : List Patch :=
  if info.hasPatches then (info.vendorsFrom [] targets).map (info.patch d) else []

end PropertyInfo

/-! ## The table -/

/-- What is known of properties, by name. -/
abbrev PropertyTable := Table PropertyInfo

/-- The commonly marked properties. -/
def PropertyTable.standard : PropertyTable :=
  Table.empty.insertAll
    [("transform", ⟨⟨36, 0, 16, 10, 23, 9⟩, .name⟩),
      ("transform-origin", ⟨⟨36, 0, 16, 10, 23, 9⟩, .name⟩),
      ("transition", ⟨⟨26, 0, 16, 0, 12.1, 7⟩, .nameAndValue⟩),
      ("animation", ⟨⟨43, 0, 16, 0, 30, 9⟩, .name⟩),
      ("user-select", ⟨⟨54, 79, 69, 12, 41, 99⟩, .name⟩),
      ("appearance", ⟨⟨84, 84, 80, 0, 70, 15.4⟩, .name⟩),
      ("box-sizing", ⟨⟨10, 0, 29, 0, 0, 5.1⟩, .name⟩),
      ("backface-visibility", ⟨⟨36, 0, 16, 0, 23, 99⟩, .name⟩),
      ("column-count", ⟨⟨50, 0, 52, 0, 37, 9⟩, .name⟩),
      ("filter", ⟨⟨53, 0, 0, 0, 40, 9.1⟩, .name⟩)]

end Stylesheet
