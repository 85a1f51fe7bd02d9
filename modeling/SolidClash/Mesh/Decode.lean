import SolidClash.Bytes
import SolidClash.Mesh

namespace SolidClash.Mesh

def noPoint : UInt32 := 0xffffffff

def signedIndex (w : UInt32) : UInt32 := if w < 0x80000000 then w else noPoint

def ofBytes (indices coordinates : List UInt8) (place : Option (Placement Float)) (scale : Float) :
    Mesh Float :=
  ofBuffers ((Bytes.words noPoint indices).map signedIndex) (Bytes.floats coordinates) place scale

end SolidClash.Mesh
