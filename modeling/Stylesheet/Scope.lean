import Stylesheet.Error
import Stylesheet.Sheet.Basic
import Stylesheet.Table

/-!
# Scopes

A scope is a row of frames, the innermost first. A binding that is a variable again is an alias and
is followed from the frame that it was found in.

* `Scope.set`, `Scope.setDefault`, `Scope.assign`: binding in the innermost frame.
* `Scope.lookup`: what a name is bound to, searching outward.
* `Scope.resolve`: the value that a name stands for, aliases followed.
-/

namespace Stylesheet

/-- The bindings of one level. -/
abbrev Frame := Table Value

structure Scope where
  /-- The innermost frame. -/
  locals : Frame := .empty
  /-- The frames around it, from inside outward. -/
  outer : List Frame := []

namespace Scope

instance : Inhabited Scope := ⟨{}⟩

def frames (s : Scope) : List Frame := s.locals :: s.outer

/-- A scope with an empty frame inside of this one. -/
def child (s : Scope) : Scope := { locals := .empty, outer := s.frames }

def set (s : Scope) (name : String) (value : Value) : Scope :=
  { s with locals := s.locals.insert name value }

/-- What a name is bound to; an alias is not followed. -/
def lookup (s : Scope) (name : String) : Option Value := s.frames.findSome? (·.get? name)

/-- Binds a name that has no binding in any frame yet. -/
def setDefault (s : Scope) (name : String) (value : Value) : Scope :=
  if (s.lookup name).isSome then s else s.set name value

def assign (s : Scope) (a : Assignment) : Scope :=
  if a.isDefault then s.setDefault a.name a.value else s.set a.name a.value

/-- Looks a name up in a row of frames and follows aliases. Looking into a frame is a step; past the
last frame the name stands for nothing. -/
def resolveIn : (steps : Nat) → List Frame → String → Except CompileError Value
  | _, [], name => .ok (.undefined name)
  | 0, _ :: _, name => .error (.limitExceeded .resolution ("$" ++ name))
  | steps + 1, frame :: outer, name =>
    match frame.get? name with
    | some (.reference target) =>
      if target = name then .error (.selfReference name)
      else resolveIn steps (frame :: outer) target
    | some value => .ok value
    | none => resolveIn steps outer name

/-- The value that a name stands for. -/
def resolve (s : Scope) (name : String) : Except CompileError Value :=
  resolveIn Limit.resolution.max s.frames name

end Scope

end Stylesheet
