import AgePluginPhone.Library.Cbor

/-!
# P-256 byte formats

The compressed form of a point, the order of the group, and low-S signatures.
-/

namespace AgePluginPhone.Library.P256

def order : ℕ := 0xffffffff00000000ffffffffffffffffbce6faada7179e84f3b9cac2fc632551

/-- The abscissa in an uncompressed point. -/
def abscissa (point : Bytes 65) : Bytes 32 := ⟨(point.1.drop 1).take 32, by simp [point.2]⟩

/-- SEC 1 compression of an uncompressed point. -/
def compress (point : Bytes 65) : Bytes 33 :=
  ⟨(if (point.1.getD 64 0).val % 2 = 0 then 2 else 3) :: (abscissa point).1, by
    simp [(abscissa point).2]⟩

/-- The tags of a compressed point. -/
def IsCompressed (bytes : Bytes 33) : Prop := bytes.1.head? = some 2 ∨ bytes.1.head? = some 3

instance (bytes : Bytes 33) : Decidable (IsCompressed bytes) := inferInstanceAs (Decidable (_ ∨ _))

/-- The second half of a fixed-width signature is at most half the group order. -/
def IsLowS (signature : Bytes 64) : Prop :=
  Cbor.bigEndianValue (signature.1.drop 32) ≤ order / 2

instance (signature : Bytes 64) : Decidable (IsLowS signature) :=
  inferInstanceAs (Decidable (_ ≤ _))

theorem compress_isCompressed (point : Bytes 65) : IsCompressed (compress point) := by
  simp only [IsCompressed, compress]
  split_ifs
  · exact Or.inl rfl
  · exact Or.inr rfl

end AgePluginPhone.Library.P256
