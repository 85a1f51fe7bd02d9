import SolidClash.Box
import SolidClash.Decimal.Shortest

namespace SolidClash

def Vec.text (v : Vec Float) : String :=
  "[" ++ ", ".intercalate (v.toList.map Decimal.text) ++ "]"

def Box.text (b : Box Float) : String := b.min.text ++ "-" ++ b.max.text

end SolidClash
