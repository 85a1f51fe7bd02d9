import SolidClash.Decimal.Reader
import SolidClash.Octree
import SolidClash.Progress

namespace SolidClash

inductive Strategy where
  | bruteForce
  | triangleOctree
deriving DecidableEq, Repr

namespace Strategy

def isBlank (c : Char) : Bool :=
  let n := c.toNat
  (9 ≤ n ∧ n ≤ 13) ∨ n = 0x20 ∨ n = 0x85 ∨ n = 0xA0 ∨ n = 0x1680 ∨ (0x2000 ≤ n ∧ n ≤ 0x200A) ∨
    n = 0x2028 ∨ n = 0x2029 ∨ n = 0x202F ∨ n = 0x205F ∨ n = 0x3000

def trimBlanks (s : String) : String :=
  String.ofList (((s.toList.dropWhile isBlank).reverse.dropWhile isBlank).reverse)

structure Unknown where
  name : String
deriving DecidableEq, Repr

def Unknown.message (u : Unknown) : String := "unknown clash strategy '" ++ u.name ++ "'"

def ofText (s : String) : Except Unknown Strategy :=
  let name := (trimBlanks s).map Char.toLower
  if name ∈ ["brute", "bruteforce", "brute-force"] then .ok .bruteForce
  else if name ∈ ["octree", "triangle-octree"] then .ok .triangleOctree
  else .error ⟨name⟩

def text : Strategy → String
  | bruteForce => "brute"
  | triangleOctree => "octree"

theorem ofText_text (s : Strategy) : (ofText s.text).toOption = some s := by
  cases s <;> decide +kernel

end Strategy

structure Options where
  strategy : Strategy := .triangleOctree
  progressInterval : Nat := defaultProgressInterval
  maxOctreeDepth : Nat := Octree.defaultMaxDepth
  reportWeldEpsilon : Float := 1e-4
deriving Repr, BEq

namespace Options

def ofSettings (setting : String → Option String) : Options :=
  let d : Options := {}
  { strategy :=
      ((setting "CLASH_STRATEGY").bind fun s => (Strategy.ofText s).toOption).getD d.strategy
    progressInterval :=
      ((setting "CLASH_PROGRESS_INTERVAL_MS").bind (Decimal.readNat? UInt64.size)).getD
        d.progressInterval
    maxOctreeDepth :=
      ((setting "CLASH_OCTREE_MAX_DEPTH").bind (Decimal.readNat? UInt32.size)).getD d.maxOctreeDepth
    reportWeldEpsilon :=
      (((setting "CLASH_REPORT_WELD_EPSILON").bind Decimal.readFloat?).filter
        fun x => x.isFinite && 0 < x).getD d.reportWeldEpsilon }

end Options

end SolidClash
