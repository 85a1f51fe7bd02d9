namespace SolidClash.Bytes

def ofNat : (width : Nat) → Nat → List UInt8
  | 0, _ => []
  | width + 1, n => UInt8.ofNat n :: ofNat width (n / 256)

def value : List UInt8 → Nat
  | [] => 0
  | b :: bs => b.toNat + 256 * value bs

@[simp] theorem length_ofNat (width n : Nat) : (ofNat width n).length = width := by
  induction width generalizing n with
  | zero => rfl
  | succ width ih => simp [ofNat, ih]

theorem value_ofNat (width n : Nat) (h : n < Nat.pow 256 width) : value (ofNat width n) = n := by
  induction width generalizing n with
  | zero => simp [ofNat, value] at h ⊢; omega
  | succ width ih =>
    have hd : n / 256 < Nat.pow 256 width := by
      rw [Nat.div_lt_iff_lt_mul (by omega)]
      simpa [Nat.pow_succ] using h
    simp [ofNat, value, ih _ hd]
    omega

def words (torn : UInt32) : List UInt8 → List UInt32
  | b₀ :: b₁ :: b₂ :: b₃ :: bs => UInt32.ofNat (value [b₀, b₁, b₂, b₃]) :: words torn bs
  | [] => []
  | _ => [torn]

def floats : List UInt8 → List Float
  | b₀ :: b₁ :: b₂ :: b₃ :: b₄ :: b₅ :: b₆ :: b₇ :: bs =>
    Float.ofBits (UInt64.ofNat (value [b₀, b₁, b₂, b₃, b₄, b₅, b₆, b₇])) :: floats bs
  | _ => []

def ofWords (ws : List UInt32) : List UInt8 := ws.flatMap fun w => ofNat 4 w.toNat

def ofFloats (xs : List Float) : List UInt8 := xs.flatMap fun x => ofNat 8 x.toBits.toNat

end SolidClash.Bytes
