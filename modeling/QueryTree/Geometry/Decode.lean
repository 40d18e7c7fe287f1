import QueryTree.Room
import QueryTree.Value.Scalar

/-!
# Reading geometries

Geometries from mappings of the GeoJSON shape and from geometry objects.

* `Position.decode`, `Line.decode`, `decodeMembers` : the parts
* `Geometry.decodeIn`       : a geometry, in the room that is left for readers
* `Geometry.decode`         : a geometry
* `Geometry.build`          : a geometry of a given class from its fields
* `SpatialPredicate.decode` : an operator with its geometry
-/

namespace QueryTree

open Decoded

/-! ## Parts -/

/-- Two or three coordinates.  As soon as a fourth can be read, nothing is said but that there
    are too many. -/
def Position.decode (v : Value) : Decoded Position :=
  match v.items? with
  | none => fault .notSequence v
  | some vs =>
    let g := gather Number.decode 0 vs
    if 3 < g.items.length then fault (.tooLong 3 vs.length) v
    else
      (g.atLeast 2 v).bind fun cs =>
        match Position.ofList? cs with
        | some p => .done p
        | none => fault (.tooShort 2 cs.length) v

def Line.decode (v : Value) : Decoded Line :=
  (decodeSequence 2 Position.decode v).bind fun ps =>
    match Line.ofList? ps with
    | some l => .done l
    | none => fault (.tooShort 2 ps.length) v

def NonEmpty.decode {α : Type} (read : Value → Decoded α) (v : Value) : Decoded (NonEmpty α) :=
  (decodeSequence 1 read v).bind fun xs =>
    match NonEmpty.ofList? xs with
    | some xs => .done xs
    | none => fault (.tooShort 1 xs.length) v

/-- The coordinates of a geometry of a class; collections have none and are read elsewhere. -/
def Geometry.ofCoordinates? : Shape → Option (Value → Decoded Geometry)
  | .point => some fun v => (Position.decode v).map .point
  | .multiPoint => some fun v => (NonEmpty.decode Position.decode v).map .multiPoint
  | .lineString => some fun v => (Line.decode v).map .lineString
  | .multiLineString => some fun v => (NonEmpty.decode Line.decode v).map .multiLineString
  | .polygon => some fun v => (NonEmpty.decode (NonEmpty.decode Position.decode) v).map .polygon
  | .multiPolygon => some fun v =>
    (NonEmpty.decode (NonEmpty.decode (NonEmpty.decode Position.decode)) v).map .multiPolygon
  | .collection => none

/-! ## Classes -/

/-- The class that a value says it is of, by its tag. -/
def shapeOf (v : Value) : Except Cause Shape :=
  match v.attribute "type" with
  | .noRecord => .error .notRecord
  | .absent => .error (.tagMissing "type")
  | .found tag =>
    match tag.text?.bind Shape.ofName? with
    | some shape => .ok shape
    | none => .error (.tagUnknown "type" tag.plain (Shape.all.map Shape.name))

namespace Geometry

def collect (input : Value) (gs : List Geometry) : Decoded Geometry :=
  match gs with
  | g :: gs => .done (.collection g gs)
  | [] => fault (.tooShort 1 0) input

mutual

/-- A geometry: a mapping or geometry object with the tag of a class and what that class wants. -/
def decodeIn (room : Room) : Value → Decoded Geometry
  | .record m fs =>
    match shapeOf (.record m fs) with
    | .error cause => fault cause (.record m fs)
    | .ok shape =>
      Decoded.under (.tag shape.name) <|
        room.read (.geometry shape) (.record m fs) fun inner =>
          if fitsModel (.geometry shape) m then
            match ofCoordinates? shape with
            | some read => decodeRequired "coordinates" read (.record m fs) fs
            | none => decodeCollection inner (.record m fs) fs
          else fault (.notInstance (.geometry shape)) (.record m fs)
  | v =>
    match shapeOf v with
    | .error cause => fault cause v
    | .ok shape =>
      Decoded.under (.tag shape.name) <|
        room.read (.geometry shape) v fun _ => fault (.notInstance (.geometry shape)) v
termination_by structural v => v

def decodeCollection (room : Room) (whole : Value) : List (String × Value) → Decoded Geometry
  | [] => .faulty ⟨[.field "geometries"], .fieldMissing, whole⟩ []
  | (key, v) :: rest =>
    if key = "geometries" then (decodeMembers room v).under (.field "geometries")
    else decodeCollection room whole rest
termination_by structural fs => fs

def decodeMembers (room : Room) : Value → Decoded Geometry
  | .list vs => ((gatherMembers room 0 vs).atLeast 1 (.list vs)).bind (collect (.list vs))
  | .tuple vs => ((gatherMembers room 0 vs).atLeast 1 (.tuple vs)).bind (collect (.tuple vs))
  | v => fault .notSequence v
termination_by structural v => v

def gatherMembers (room : Room) (i : Nat) : List Value → Gathered Geometry
  | [] => .empty
  | v :: vs => .cons i (decodeIn room v) (gatherMembers room (i + 1) vs)
termination_by structural vs => vs

end

def decode (v : Value) : Decoded Geometry :=
  decodeIn .full v

def build (shape : Shape) (fs : List (String × Value)) : Decoded Geometry :=
  combine (fun _ g => g) (decodeTag "type" shape.name fs) <|
    match ofCoordinates? shape with
    | some read => decodeRequired "coordinates" read (.mapping fs) fs
    | none =>
      decodeRequired "geometries" (decodeMembers (.constructing (.geometry shape))) (.mapping fs) fs

end Geometry

/-! ## Predicates -/

namespace SpatialPredicate

def ofFields (room : Room) (whole : Value) (fs : List (String × Value)) :
    Decoded SpatialPredicate :=
  combine SpatialPredicate.mk (decodeRequired "op" SpatialOperator.decode whole fs)
    (decodeRequired "geom" (Geometry.decodeIn room) whole fs)

def decode (room : Room) : Value → Decoded SpatialPredicate
  | .record m fs =>
    if fitsModel .predicate m then ofFields room (.record m fs) fs
    else fault (.notInstance .predicate) (.record m fs)
  | v => fault (.notInstance .predicate) v

end SpatialPredicate

end QueryTree
