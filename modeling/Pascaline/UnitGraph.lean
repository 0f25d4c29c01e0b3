import Pascaline.Diagnostic

/-!
# The graph of units

Programs and units that use each other, by name. Names are numbered in their order, so that nothing
depends on the order in which files were found or units are listed in a uses clause.
-/

namespace Pascaline

/-- A name in a uses clause. -/
structure UseRef where
  name : String
  span : Span := ⟨0, 0, 0⟩
deriving Repr, DecidableEq, Inhabited

/-- What a source file says about itself; `unknown` if it could not be parsed. -/
inductive SourceKind where
  | unknown | program | unit
deriving Repr, DecidableEq, Inhabited

def SourceKind.number : SourceKind → Nat
  | unknown => 0
  | program => 1
  | unit => 2

/-- A source as the graph sees it. `hash` covers the content and everything used. -/
structure SourceSummary where
  name : String := ""
  display : String := ""
  path : String := ""
  kind : SourceKind := .unknown
  span : Span := ⟨0, 0, 0⟩
  uses : List UseRef := []
  content : Digest := .zero
  hash : Digest := .zero
deriving Repr, Inhabited

/-- A source on its way into the graph. -/
structure GraphNode where
  summary : SourceSummary
  broken : Bool := false
  firstError : Option Diagnostic := none
deriving Inhabited

/-- A name of the graph; `node` is the position of its source among those given, absent when the
name is only used. -/
structure GraphSlot where
  summary : SourceSummary
  node : Option Nat := none
  broken : Bool := false
  firstError : Option Diagnostic := none
deriving Inhabited

def GraphSlot.present (s : GraphSlot) : Bool := s.node.isSome

/-- Names in order, what is known of each, and what each uses, by number. -/
structure UnitGraph where
  names : Array String := #[]
  slots : Array GraphSlot := #[]
  edges : Array (List Nat) := #[]
deriving Inhabited

/-- A name for programs and units: letters of the ASCII alphabet, digits not in front, and
underscores. -/
def isModuleName (s : String) : Bool :=
  let letter := fun (c : Char) => c = '_' || c.isAlpha
  match s.toList with
  | [] => false
  | c :: cs => letter c && cs.all fun c => letter c || c.isDigit

section Sorting

variable {α : Type} [LE α] [DecidableLE α]

/-- Puts a value in front of the first that is not less. -/
def insertSorted (x : α) : List α → List α
  | [] => [x]
  | y :: ys => if x ≤ y then x :: y :: ys else y :: insertSorted x ys

def sorted (xs : List α) : List α := xs.foldr insertSorted []

end Sorting

/-- Sorts and drops repetitions. -/
def sortedNames (names : List String) : List String := (sorted names).eraseDups

namespace UnitGraph

/-- All names that sources have or use, in order. -/
def allNames (sources : List SourceSummary) : List String :=
  sortedNames ((sources.flatMap fun s => s.name :: s.uses.map (·.name)).filter (· ≠ ""))

def indexOf? (g : UnitGraph) (name : String) : Option Nat := g.names.findIdx? (· == name)

def slot (g : UnitGraph) (i : Nat) : GraphSlot := g.slots.getD i default

def isPresent (g : UnitGraph) (i : Nat) : Bool := (g.slot i).present

/-- What a unit uses, in the order of numbers. -/
def out (g : UnitGraph) (i : Nat) : List Nat := g.edges.getD i []

/-- The units used that have a source. -/
def deps (g : UnitGraph) (i : Nat) : List Nat := (g.out i).filter g.isPresent

def indices (g : UnitGraph) : List Nat := List.range g.names.size

/-- Two sources of one name: the second is refused. -/
def duplicateReport (first second : SourceSummary) : Diagnostic :=
  let notes := if first.span = ⟨0, 0, 0⟩ then []
    else [⟨first.span, utf8 (first.display ++ " first declared here")⟩]
  .error ⟨4006⟩ second.span (utf8 ("duplicate module " ++ second.display)) notes

/-- Puts sources into their slots. Reports come with the position of the source they concern. -/
def place (g : UnitGraph) : List (GraphNode × Nat) → UnitGraph × List (Nat × Diagnostic)
  | [] => (g, [])
  | (n, k) :: rest =>
    match (if n.summary.name = "" then none else g.indexOf? n.summary.name) with
    | none => g.place rest
    | some i =>
      if g.isPresent i then
        let (g', reports) := g.place rest
        (g', (k, duplicateReport (g.slot i).summary n.summary) :: reports)
      else
        { g with slots := g.slots.set! i ⟨n.summary, some k, n.broken, n.firstError⟩ }.place rest

/-- The numbers of the units a source uses, without itself. -/
def usesOf (g : UnitGraph) (self : Nat) (uses : List UseRef) : List Nat :=
  sorted (uses.filterMap fun u => (g.indexOf? u.name).filter (· ≠ self)).eraseDups

/-- The graph of sources. -/
def ofNodes (nodes : List GraphNode) : UnitGraph × List (Nat × Diagnostic) :=
  let names := (allNames (nodes.map (·.summary))).toArray
  let empty : UnitGraph :=
    { names, slots := names.map fun name => { summary := { name } } }
  let (g, reports) := empty.place nodes.zipIdx
  ({ g with edges := (g.indices.map fun i => g.usesOf i (g.slot i).summary.uses).toArray }, reports)

/-- How many units use each unit. -/
def indegrees (g : UnitGraph) : Array Nat :=
  (g.indices.filter g.isPresent).foldl
    (fun counts i => (g.deps i).foldl (fun counts k => counts.modify k (· + 1)) counts)
    (Array.replicate g.names.size 0)

end UnitGraph

/-! ## Order -/

/-- Units in layers, users first. `stuck` holds the units on or behind a cycle, which no layer
takes. -/
structure Layering where
  batches : List (List Nat)
  stuck : List Nat
deriving Repr, DecidableEq, Inhabited

namespace Layering

def order (l : Layering) : List Nat := l.batches.flatten

def isCyclic (l : Layering) : Bool := !l.stuck.isEmpty

/-- The layers with what is used first. -/
def waves (l : Layering) : List (List Nat) := l.batches.reverse

/-- The order of initialization: every unit behind what it uses. -/
def initOrder (l : Layering) : List Nat := l.order.reverse

end Layering

namespace UnitGraph

/-- Takes one user away from a unit, which is released when it was the last. -/
def release (state : Array Nat × List Nat) (k : Nat) : Array Nat × List Nat :=
  let left := state.1.getD k 0 - 1
  (state.1.set! k left, if left = 0 then state.2 ++ [k] else state.2)

/-- Takes the units that nobody left uses, again and again. Each round takes at least one, so as
many rounds as there are units do. -/
def layersFrom (g : UnitGraph) : (rounds : Nat) → Array Nat → List Nat → List (List Nat) × Array Nat
  | 0, left, _ => ([], left)
  | _ + 1, left, [] => ([], left)
  | rounds + 1, left, i :: is =>
    let ready := i :: is
    let (left, released) := (ready.flatMap g.deps).foldl release (left, [])
    let (batches, left) := g.layersFrom rounds left (sorted released)
    (ready :: batches, left)

def layering (g : UnitGraph) : Layering :=
  let counts := g.indegrees
  let present := g.indices.filter g.isPresent
  let ready := present.filter fun i => counts.getD i 0 = 0
  let (batches, left) := g.layersFrom (g.names.size + 1) counts ready
  ⟨batches, present.filter fun i => 0 < left.getD i 0⟩

/-- Walks from a unit along what it uses, in order. `path` leads to it, the nearest first; the
result is a cycle, or the units walked through so far. A path has no unit twice, so `depth` may be
the number of units. -/
def walk (g : UnitGraph) :
    (depth : Nat) → (path done : List Nat) → Nat → Except (List Nat) (List Nat)
  | 0, _, done, _ => .ok done
  | depth + 1, path, done, i => do
    let path := i :: path
    let done ← (g.deps i).foldlM (fun done k =>
      if path.contains k then .error (k :: (path.takeWhile (· ≠ k)).reverse ++ [k])
      else if done.contains k then .ok done
      else g.walk depth path done k) done
    return i :: done

/-- The first cycle found; its ends are the same unit. -/
def findCycle (g : UnitGraph) : List Nat :=
  let visit := fun (done : List Nat) (i : Nat) =>
    if done.contains i then .ok done else g.walk (g.names.size + 1) [] done i
  match (g.indices.filter g.isPresent).foldlM visit [] with
  | .ok _ => []
  | .error cycle => cycle

/-! ## Digests -/

/-- The digest of a unit: its content and the digests of what it uses, which come before. -/
def hashStep (g : UnitGraph) (hashes : Array Digest) (i : Nat) : Array Digest :=
  let used := (g.deps i).map fun k => hashes.getD k .zero
  hashes.set! i ((g.slot i).summary.content.combine used)

/-- The digests of all units; without an order there are none. -/
def hashes (g : UnitGraph) (l : Layering) : Array Digest :=
  let start := Array.replicate g.names.size Digest.zero
  if l.isCyclic then start else l.initOrder.foldl g.hashStep start

/-- Enters the digests. -/
def withHashes (g : UnitGraph) (l : Layering) : UnitGraph :=
  let hs := g.hashes l
  { g with slots := g.slots.mapIdx fun i s =>
      { s with summary := { s.summary with hash := hs.getD i .zero } } }

/-! ## Reports -/

/-- Every unit of a cycle is reported at its own name. -/
def cycleReports (g : UnitGraph) (l : Layering) : List (Nat × Diagnostic) :=
  let chain := g.findCycle
  let path := " -> ".intercalate ((if chain.isEmpty then l.stuck else chain).map
    fun i => g.names.getD i "")
  l.stuck.filterMap fun i =>
    (g.slot i).node.map fun k =>
      (k, .error ⟨4001⟩ (g.slot i).summary.span (utf8 ("circular unit reference: " ++ path)))

/-- The report that a used unit has errors. -/
def brokenReport (use : UseRef) (dep : GraphSlot) : Diagnostic :=
  let notes := dep.firstError.toList.map fun d => ⟨d.span, utf8 "first error: " ++ d.message⟩
  .error ⟨4004⟩ use.span (utf8 ("unit " ++ dep.summary.display ++ " has errors")) notes

/-- The first use of each unit in a list. -/
def firstUses (g : UnitGraph) : (seen : List Nat) → List UseRef → List (UseRef × Nat)
  | _, [] => []
  | seen, u :: us =>
    match g.indexOf? u.name with
    | none => g.firstUses seen us
    | some i => if seen.contains i then g.firstUses seen us else (u, i) :: g.firstUses (i :: seen) us

/-- Every unit that uses one with errors is told so, once for each. -/
def brokenReports (g : UnitGraph) : List (Nat × Diagnostic) :=
  g.slots.toList.flatMap fun s =>
    match s.node with
    | none => []
    | some k =>
      (g.firstUses [] s.summary.uses).filterMap fun (u, i) =>
        if (g.slot i).broken then some (k, brokenReport u (g.slot i)) else none

end UnitGraph

end Pascaline
