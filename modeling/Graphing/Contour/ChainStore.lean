/-
  Graphing.Contour.ChainStore

  Stitching segments into chains. A segment extends an open chain that has an
  end near one of its points, joins two chains, or closes a chain to a loop.
  The ends of the open chains are found through a raster of squares as wide as
  the tolerance. When too many chains are open, the oldest is put out as it is.
-/
import Std.Data.HashMap
import Graphing.Contour.Coordinate

namespace Graphing.Contour

/-! ## Chains and their ends -/

/-- A square of the raster. -/
abbrev Square := Int × Int

/-- An end of an open chain: the number of the chain, and which of its ends. -/
structure ChainEnd where
  chain : Nat
  isLast : Bool
  deriving Repr, DecidableEq, Inhabited

/-- The point at an end of a chain. -/
def endPoint? {α : Type} (points : List (Point α)) (isLast : Bool) : Option (Point α) :=
  if isLast then points.getLast? else points.head?

/-- Chains under construction. -/
structure ChainStore (α : Type) where
  tolerance : α
  /-- How many chains can be open at once. -/
  maxOpen : Int
  /-- The number of the next chain. -/
  next : Nat := 0
  /-- The open chains by number, oldest first. -/
  chains : List (Nat × List (Point α)) := []
  /-- The ends of the open chains by the square of their point. -/
  index : Std.HashMap Square (List ChainEnd) := ∅
  /-- The finished chains. -/
  output : Array (List (Point α)) := #[]
  /-- How many chains were put out because too many were open. -/
  flushes : Nat := 0

namespace ChainStore

variable {α : Type} [Coordinate α]

/-- A store without chains. -/
def empty (tolerance : α) (maxOpen : Int) : ChainStore α := { tolerance, maxOpen }

/-- The points of an open chain. -/
def chain? (s : ChainStore α) (n : Nat) : Option (List (Point α)) := s.chains.lookup n

/-- The point at an end of an open chain. -/
def point? (s : ChainStore α) (e : ChainEnd) : Option (Point α) :=
  (s.chain? e.chain).bind (endPoint? · e.isLast)

/-- Replace the points of an open chain. -/
def setChain (s : ChainStore α) (n : Nat) (points : List (Point α)) : ChainStore α :=
  { s with chains := s.chains.map fun c => if c.1 = n then (n, points) else c }

/-- Take a chain out of the open ones. -/
def dropChain (s : ChainStore α) (n : Nat) : ChainStore α :=
  { s with chains := s.chains.filter fun c => c.1 != n }

/-! ## The raster -/

/-- The square that a point lies in. -/
def square? (s : ChainStore α) (p : Point α) : Except RasterFault Square := do
  let i ← Coordinate.floor? (p.x / s.tolerance)
  let j ← Coordinate.floor? (p.y / s.tolerance)
  return (i, j)

/-- The ends registered in a square. -/
def endsIn (s : ChainStore α) (k : Square) : List ChainEnd := (s.index[k]?).getD []

/-- The squares around a square, itself among them. -/
def around (k : Square) : List Square :=
  [-1, 0, 1].flatMap fun dx => [-1, 0, 1].map fun dy => (k.1 + dx, k.2 + dy)

/-- Put an end into the square of its point. -/
def register (s : ChainStore α) (e : ChainEnd) : ChainStore α :=
  match (s.point? e).map s.square? with
  | some (.ok k) => { s with index := s.index.insert k (s.endsIn k ++ [e]) }
  | _ => s

/-- Take an end out of the square of its point. An empty square is forgotten. -/
def unregister (s : ChainStore α) (e : ChainEnd) : ChainStore α :=
  match (s.point? e).map s.square? with
  | some (.ok k) =>
    match (s.endsIn k).filter (· != e) with
    | [] => { s with index := s.index.erase k }
    | rest => { s with index := s.index.insert k rest }
  | _ => s

/-- Put both ends of a chain into the raster. -/
def registerBoth (s : ChainStore α) (n : Nat) : ChainStore α :=
  (s.register ⟨n, false⟩).register ⟨n, true⟩

/-- Take both ends of a chain out of the raster. -/
def unregisterBoth (s : ChainStore α) (n : Nat) : ChainStore α :=
  (s.unregister ⟨n, false⟩).unregister ⟨n, true⟩

/-- Whether an end is near a point. -/
def isNear (s : ChainStore α) (p : Point α) (e : ChainEnd) : Bool :=
  (s.point? e).any fun q => p.near s.tolerance q

/-- An end near a point that lies in a square, other than the excluded one. -/
def find? (s : ChainStore α) (p : Point α) (k : Square) (excluded : Option ChainEnd) :
    Option ChainEnd :=
  (around k).findSome? fun k =>
    (s.endsIn k).find? fun e => some e != excluded && s.isNear p e

/-! ## Putting chains out -/

/-- Put out a chain if it has two points or more. -/
def emit (s : ChainStore α) (points : List (Point α)) : ChainStore α :=
  if points.length ≥ 2 then { s with output := s.output.push points } else s

/-- Close an open chain and put it out as it is. -/
def retire (s : ChainStore α) (n : Nat) : ChainStore α :=
  match s.chain? n with
  | some points => ((s.unregisterBoth n).dropChain n).emit points
  | none => s

/-- Put out the oldest chain if too many are open. -/
def flush (s : ChainStore α) : ChainStore α :=
  if (s.chains.length : Int) > s.maxOpen then
    match s.chains with
    | (oldest, _) :: _ => { s with flushes := s.flushes + 1 }.retire oldest
    | [] => s
  else s

/-! ## Adding segments -/

/-- Begin a chain. -/
def start (s : ChainStore α) (p q : Point α) : ChainStore α :=
  let s' := { s with next := s.next + 1, chains := s.chains ++ [(s.next, [p, q])] }
  (s'.registerBoth s.next).flush

/-- Extend a chain at one of its ends. -/
def extend (s : ChainStore α) (e : ChainEnd) (p : Point α) : ChainStore α :=
  match s.chain? e.chain with
  | some points =>
    let s := s.unregister e
    let s := s.setChain e.chain (if e.isLast then points ++ [p] else p :: points)
    s.register e
  | none => s

/-- Close a chain to a loop: its first point is repeated at its end. -/
def close (s : ChainStore α) (n : Nat) : ChainStore α :=
  match s.chain? n with
  | some points => ((s.unregisterBoth n).dropChain n).emit (points ++ points.head?.toList)
  | none => s

/-- Join two chains at the given ends. The joined chain has the number of the first. -/
def join (s : ChainStore α) (e f : ChainEnd) : ChainStore α :=
  match s.chain? e.chain, s.chain? f.chain with
  | some first, some second =>
    let s := (s.unregisterBoth e.chain).unregisterBoth f.chain
    let first := if e.isLast then first else first.reverse
    let second := if f.isLast then second.reverse else second
    let s := (s.setChain e.chain (first ++ second)).dropChain f.chain
    s.registerBoth e.chain
  | _, _ => s

/-- Add a segment. One whose points are near each other is left out. -/
def add (s : ChainStore α) (p q : Point α) : Except RasterFault (ChainStore α) :=
  if p.near s.tolerance q then .ok s
  else do
    let kp ← s.square? p
    let atP := s.find? p kp none
    let kq ← s.square? q
    let atQ := s.find? q kq atP
    return match atP, atQ with
      | none, none => s.start p q
      | some e, none => s.extend e q
      | none, some f => s.extend f p
      | some e, some f => if e.chain = f.chain then s.close e.chain else s.join e f

/-- Add segments one after another. -/
def addAll (s : ChainStore α) (segments : List (Point α × Point α)) :
    Except RasterFault (ChainStore α) :=
  segments.foldlM (fun s (p, q) => s.add p q) s

/-- Put out all chains that are still open, oldest first. -/
def finish (s : ChainStore α) : ChainStore α :=
  (s.chains.map Prod.fst).foldl retire s

/-! ## Laws -/

/-- A segment whose points are near each other changes nothing. -/
theorem add_of_near {s : ChainStore α} {p q : Point α} (h : p.near s.tolerance q = true) :
    s.add p q = .ok s := by
  simp [add, h]

end ChainStore
end Graphing.Contour
