import SolidClash.Mesh.Watertight
import SolidClash.Proofs.Weld

namespace SolidClash

deriving instance DecidableEq for Vec

namespace Mesh

lemma isEmpty_folded : ((halfEdges [0, 1, 2, 0, 2, 1]).foldl pairUp ∅).isEmpty = true := by
  simp [halfEdges, pairUp, Std.HashSet.size_erase, Std.HashSet.size_insert]

lemma weldedCorners_eq_scanAll {ts : List (Triangle Float)}
    (h : ∀ p ∈ ts.flatMap Triangle.corners, ∀ q ∈ ts.flatMap Triangle.corners,
      (Weld.new (weldTolerance : Float)).Near p q → q = p) :
    weldedCorners ts = (Weld.new weldTolerance).scanAll (ts.flatMap Triangle.corners) := by
  refine (Weld.filed_new _).insertAll_eq_scanAll (Weld.self_mem_around _) fun p hp q hq hnear => ?_
  rw [h p hp q (hq.resolve_left (by simp [Weld.new])) hnear]

lemma closedness_folded {m : Mesh Float} {s t : Triangle Float} (hm : m.triangles = [s, t])
    (hclean : m.undecodable = 0)
    (hapart : ∀ p ∈ [s, t].flatMap Triangle.corners, ∀ q ∈ [s, t].flatMap Triangle.corners,
      (Weld.new (weldTolerance : Float)).Near p q → q = p)
    (hback : (Weld.new weldTolerance).scanAll ([s, t].flatMap Triangle.corners) =
      [0, 1, 2, 0, 2, 1]) : m.closedness = .closed := by
  have hwatertight : isWatertight [s, t] = true := by
    rw [isWatertight, weldedCorners_eq_scanAll hapart, hback, isEmpty_folded]
    rfl
  rw [closedness, hclean, hm, hwatertight]
  rfl

end Mesh

end SolidClash
