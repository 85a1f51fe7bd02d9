import SolidClash.Detection.Tally
import SolidClash.Octree.Walk

namespace SolidClash.Detection

abbrev Index := Octree Float Item

abbrev Entry := Octree.Entry Float Item

inductive Step where
  | poll
  | examine (anchor candidate : Entry)
  | finish (anchor : Entry)

namespace Step

def candidates (s : Setting) (t : Index) (path : Octree.Path) (anchor : Entry) : List Entry :=
  (t.walkUpDown path fun n => .when (n.bounds.Clashes anchor.bounds)).flatMap fun n =>
    n.entries.filter fun e => s.isCandidate e.value

def ofAnchor (s : Setting) (t : Index) (path : Octree.Path) (anchor : Entry) : List Step :=
  let compared := (candidates s t path anchor).flatMap fun c => [examine anchor c, poll]
  poll :: compared ++ [finish anchor]

def anchors (s : Setting) (t : Index) : List (Octree.Path × Entry) :=
  (t.entries.filter fun e => s.isAnchor e.2.value).map fun (n, e) => (n.path, e)

def schedule (s : Setting) (t : Index) : List Step :=
  (anchors s t).flatMap fun (p, e) => ofAnchor s t p e

end Step

structure Progress where
  tally : Tally
  monitor : Monitor

namespace Progress

def step (s : Setting) (signals : Signals) (p : Progress) : Step → Progress
  | .poll =>
    let m := p.tally.results.metrics
    { p with monitor := p.monitor.poll signals m.checkedCombinations m.totalCombinations }
  | .examine a b => { p with tally := p.tally.examine s a b }
  | .finish a => { p with tally := p.tally.finish s a }

def run (s : Setting) (signals : Signals) : List Step → Progress → Progress
  | [], p => p
  | st :: sts, p =>
    let p := p.step s signals st
    if p.monitor.cancelled then p else run s signals sts p

end Progress

end SolidClash.Detection
