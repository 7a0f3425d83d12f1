/-!
Points and placements in the plane.

A placement moves, turns and scales, in this order; angles are in degrees.  It is the identity when
each of its parts compares equal to the neutral one, so a part that is no number is never neutral
and a negative zero is.
-/

namespace RigidScene

/-- A point, or an offset between points. -/
structure Point where
  x : Float
  y : Float
  deriving Repr, Inhabited

namespace Point

/-- The point both of whose coordinates are zero. -/
def origin : Point :=
  ⟨0, 0⟩

/-- Both coordinates compare equal as numbers. -/
def same (p q : Point) : Bool :=
  p.x == q.x && p.y == q.y

/-- The point moved by an offset. -/
def shift (p offset : Point) : Point :=
  ⟨p.x + offset.x, p.y + offset.y⟩

end Point

/-- A placement of a composite within the one that holds it. -/
structure Transform where
  translate : Point
  /-- In degrees. -/
  rotate : Float
  scale : Float
  deriving Repr, Inhabited

namespace Transform

/-- The placement that leaves everything where it is. -/
def identity : Transform :=
  ⟨.origin, 0, 1⟩

/-- The placement is neutral in each of its parts. -/
def isIdentity (t : Transform) : Bool :=
  t.translate.same .origin && t.rotate == 0 && t.scale == 1

/-- All parts compare equal as numbers. -/
def same (t u : Transform) : Bool :=
  t.translate.same u.translate && t.rotate == u.rotate && t.scale == u.scale

end Transform

/-- The factor between degrees and radians. -/
def radiansPerDegree : Float :=
  Float.ofBits 0x400921FB54442D18 / 180

/-- An angle in radians. -/
def radians (degrees : Float) : Float :=
  degrees * radiansPerDegree

end RigidScene
