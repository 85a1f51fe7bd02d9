import SolidClash.Box.Text
import SolidClash.Octree

namespace SolidClash.OctreeError

def message : OctreeError Float → String
  | outsideRoot value root =>
    "Octree bounds violation: " ++ value.text ++ " does not fit in root " ++ root.text
  | unusableRoot box => "Invalid bounds: " ++ box.text

end SolidClash.OctreeError
