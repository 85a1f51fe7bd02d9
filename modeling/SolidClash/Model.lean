import SolidClash.Mesh.Decode
import Std.Data.HashMap

namespace SolidClash

structure GeometryData where
  id : UInt64
  indices : Option (List UInt8) := none
  vertices : Option (List UInt8) := none

namespace GeometryData

def ofBuffers (id : UInt64) (indices : List UInt32) (coordinates : List Float) : GeometryData :=
  ⟨id, some (Bytes.ofWords indices), some (Bytes.ofFloats coordinates)⟩

def buffers? (d : GeometryData) : Option (List UInt8 × List UInt8) :=
  match d.indices, d.vertices with
  | some is, some vs => if is.isEmpty || vs.isEmpty then none else some (is, vs)
  | _, _ => none

theorem buffers?_eq_some {d : GeometryData} {is vs : List UInt8} : d.buffers? = some (is, vs) ↔
    d.indices = some is ∧ d.vertices = some vs ∧ is ≠ [] ∧ vs ≠ [] := by
  rw [buffers?]
  cases d.indices with
  | none => simp
  | some _ =>
    cases d.vertices with
    | none => simp
    | some _ =>
      simp only [Option.ite_none_left_eq_some, Bool.or_eq_true, List.isEmpty_iff, not_or,
        Option.some.injEq, Prod.mk.injEq]
      grind

def isComplete (d : GeometryData) : Bool := d.buffers?.isSome

def mesh? (d : GeometryData) (place : Option (Placement Float)) (scale : Float) :
    Option (Mesh Float) :=
  d.buffers?.map fun (is, vs) => Mesh.ofBytes is vs place scale

end GeometryData

structure Geometry where
  id : UInt64
  bounds : Box Float
  place : Option (Placement Float) := none
  data : Option GeometryData := none

structure Object where
  id : UInt64
  typeName : String
  properties : Std.HashMap (String × String) String := ∅
  geometry : Option Geometry := none

def Object.setProperty (o : Object) (set name value : String) : Object :=
  { o with properties := o.properties.insert (set, name) value }

structure Model where
  id : UInt64
  name : String := ""
  /-- Metres to a model unit. -/
  multiplier : Float := 1.0
  bounds : Option (Box Float) := none
  objects : List Object := []

namespace Model

def modelBounds (m : Model) : Box Float :=
  m.bounds.getD
    ((m.objects.filterMap Object.geometry).foldl (fun b g => b.union g.bounds) Box.empty)

def boundsInMetres (m : Model) : Box Float :=
  let b := m.modelBounds
  if b.IsEmpty then b else b.scaled m.multiplier

end Model

end SolidClash
