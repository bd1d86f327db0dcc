-- Force placement: connected boxes attract and all boxes repel each other for
-- a number of steps, and the centres they end up at are then spread until the
-- boxes stand apart.
import DiagramPress.Layout.Placement

namespace DiagramPress.ForcePlacement

variable {α : Type} [Scalar α]

/-! ## The simulation -/

/-- A centre with its velocity and the acceleration gathered for the next move. -/
structure Particle (α : Type) where
  x : α
  y : α
  vx : α
  vy : α
  ax : α
  ay : α

namespace Particle

def timeStep : α := Scalar.decimal 16 3

/-- One component of a force, no stronger than 100 either way. -/
def bounded (f : α) : α := Scalar.least (Scalar.greatest f (-100)) 100

/-- Adds a force. -/
def push (p : Particle α) (fx fy : α) : Particle α :=
  { p with ax := p.ax + bounded fx * timeStep, ay := p.ay + bounded fy * timeStep }

/-- Moves on by one step; a tenth of the velocity is lost. -/
def move (p : Particle α) : Particle α :=
  let vx := (p.vx + p.ax * timeStep * 3000) * Scalar.decimal 9 1
  let vy := (p.vy + p.ay * timeStep * 3000) * Scalar.decimal 9 1
  ⟨p.x + vx * timeStep, p.y + vy * timeStep, vx, vy, 0, 0⟩

/-- The direction from one particle to another, and their distance. -/
def toward (p q : Particle α) : α × α × α :=
  let dx := q.x - p.x
  let dy := q.y - p.y
  let d := if Scalar.same dx 0 && Scalar.same dy 0 then 1 else Scalar.sqrt (dx * dx + dy * dy)
  (dx / d, dy / d, d)

/-- The force that draws `p` towards a connected `q`. -/
def attraction (p q : Particle α) : α × α :=
  let (dx, dy, d) := p.toward q
  let strength : α := Scalar.decimal 5 2 * d * Scalar.decimal 5 1
  (dx * strength, dy * strength)

/-- The force that drives `p` away from `q`. -/
def repulsion (p q : Particle α) : α × α :=
  let (dx, dy, d) := p.toward q
  let strength : α := -150 * ((10 * 10) / (d * d))
  (dx * strength, dy * strength)

end Particle

/-- Connections without their directions: a pair counts once, as it stands first. -/
def springs (edges : List (Nat × Nat)) : List (Nat × Nat) :=
  edges.foldl (fun kept (a, b) =>
    if a = b || kept.any (fun e => e = (a, b) || e = (b, a)) then kept
    else kept ++ [(a, b)]) []

/-- Those connected with `i`, the latest connection first; connections that
start at `i` come before those that end there. -/
def partners (springs : List (Nat × Nat)) (i : Nat) : List Nat :=
  let latest := springs.reverse
  (latest.filter fun (a, _) => a = i).map (·.2) ++
    (latest.filter fun (_, b) => b = i).map (·.1)

/-- The forces on particle `i`, which then moves at once. What it drives away
is pushed as it is driven. -/
def stepParticle (partners : List Nat) (particles : Array (Particle α)) (i : Nat) :
    Array (Particle α) :=
  match particles[i]? with
  | none => particles
  | some p =>
    let p := partners.foldl (fun (p : Particle α) j =>
      match particles[j]? with
      | some q =>
        let (fx, fy) := p.attraction q
        p.push fx fy
      | none => p) p
    let later := (List.range particles.size).drop (i + 1)
    let (p, particles) := later.foldl (fun ((p : Particle α), (ps : Array (Particle α))) j =>
      match ps[j]? with
      | some q =>
        let (fx, fy) := p.repulsion q
        (p.push fx fy, ps.setIfInBounds j (q.push (-fx) (-fy)))
      | none => (p, ps)) (p, particles)
    particles.setIfInBounds i p.move

/-- One step of all particles, in their order. -/
def step (partners : List (List Nat)) (particles : Array (Particle α)) : Array (Particle α) :=
  partners.zipIdx.foldl (fun ps (around, i) => stepParticle around ps i) particles

def run (partners : List (List Nat)) : Nat → Array (Particle α) → Array (Particle α)
  | 0, particles => particles
  | n + 1, particles => run partners n (step partners particles)

/-- The place of a particle before the first step: all stand on one circle. -/
def startOf (count slot : Nat) : Point α :=
  let radius : α := 100 + 10 * Scalar.ofNat count
  let angle : α := Scalar.turn * Scalar.ofNat slot / Scalar.ofNat count
  ⟨radius * Scalar.cos angle, radius * Scalar.sin angle⟩

/-- The centres after the simulation. One that is lost at infinity is put back
where it started. -/
def simulate (p : Placement α) : List (Point α) :=
  let starts : List (Point α) := (List.range p.count).map (startOf p.count)
  let particles : Array (Particle α) := (starts.map fun s => ⟨s.x, s.y, 0, 0, 0, 0⟩).toArray
  let kept := springs p.edges
  let around := (List.range p.count).map (partners kept)
  let settled := (run around p.iterations particles).toList
  List.zipWith (fun (s : Point α) (q : Particle α) =>
    if Scalar.isFinite q.x && Scalar.isFinite q.y then ⟨q.x, q.y⟩ else s) starts settled

/-! ## Standing apart -/

/-- Two centres are too close to be told apart. -/
def coincide (a b : Point α) : Bool :=
  decide (Scalar.abs (a.x - b.x) < Scalar.decimal 1 3) &&
    decide (Scalar.abs (a.y - b.y) < Scalar.decimal 1 3)

/-- Moves a centre to the right until it coincides with none of the others.
Each of them is in the way for one step at most. -/
def moveAside (others : List (Point α)) : Nat → Point α → Point α
  | 0, c => c
  | fuel + 1, c =>
    if others.any fun o => coincide o c then moveAside others fuel ⟨c.x + 1, c.y⟩ else c

/-- Moves every centre aside that coincides with one before it. -/
def separate (centers : List (Point α)) : List (Point α) :=
  centers.foldl (fun placed c => placed ++ [moveAside placed placed.length c]) []

/-- The factor that brings a distance to what is needed, if any factor does. -/
def factor? (distance needed : α) : Option α :=
  if 0 < distance then some (needed / distance) else none

/-- The factor from which on a pair of boxes stands apart on one of the axes. -/
def pairFactor? (gap : α) (a b : Point α × Size α) : Option α :=
  let across := factor? (Scalar.abs (a.1.x - b.1.x)) ((a.2.width + b.2.width) / 2 + gap)
  let along := factor? (Scalar.abs (a.1.y - b.1.y)) ((a.2.height + b.2.height) / 2 + gap)
  match across, along with
  | some x, some y => some (Scalar.least x y)
  | x, y => (x.or y).filter fun f => !Scalar.isNaN f

/-- All pairs of a list, in order. -/
def pairs {β : Type} : List β → List (β × β)
  | [] => []
  | b :: rest => rest.map (fun c => (b, c)) ++ pairs rest

/-- The smallest factor at which every two boxes stand apart, or 1 if there is
no such factor above zero. -/
def spread (gap : α) (boxes : List (Point α × Size α)) : α :=
  let factors := (pairs boxes).map fun (a, b) => pairFactor? gap a b
  let largest := factors.foldl (fun (largest : Option α) f =>
    match largest, f with
    | some l, some f => some (Scalar.greatest l f)
    | _, _ => none) (some 0)
  match largest with
  | some l => if Scalar.isFinite l && decide (0 < l) then l else 1
  | none => 1

/-- Places boxes around the given centres. -/
def placeAround (centers : List (Point α)) (p : Placement α) : List (Point α) :=
  let centers := separate centers
  let factor := spread p.nodeSpacing (centers.zip p.sizes)
  Placement.normalize (Placement.cornersOf (centers.map fun c => ⟨c.x * factor, c.y * factor⟩) p.sizes)

def place (p : Placement α) : List (Point α) := placeAround (simulate p) p

end DiagramPress.ForcePlacement
