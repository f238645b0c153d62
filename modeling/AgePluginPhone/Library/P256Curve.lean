import AgePluginPhone.Library.P256Point

/-!
# The P-256 curve

The field prime is prime and the curve has no point of ordinate zero. Decompression therefore
finds exactly the points of the curve, and an encoding determines its point.
-/

namespace AgePluginPhone.Library.P256

open Cbor

section Prime

private theorem modPow_eq_one {n a bits k : ℕ} (hn : 1 < n) (h : k < 2 ^ bits) :
    modPow n a bits k = 1 ↔ (a : ZMod n) ^ k = 1 := by
  have hcast : ((1 : ℕ) : ZMod n) = 1 := Nat.cast_one
  rw [modPow_eq n a h, ← hcast, ← Nat.cast_pow, ZMod.natCast_eq_natCast_iff', Nat.mod_eq_of_lt hn]

/-- Lucas's test: an element of order `n - 1` certifies that `n` is prime. -/
theorem prime_of_order {n : ℕ} (a bits : ℕ) (factors : List ℕ) (hfactors : factors.Forall Nat.Prime)
    (hproduct : factors.prod = n - 1) (hn : 1 < n) (hbits : n < 2 ^ bits)
    (hone : modPow n a bits (n - 1) = 1)
    (horder : ∀ q ∈ factors, modPow n a bits ((n - 1) / q) ≠ 1) : n.Prime := by
  apply lucas_primality n (a : ZMod n)
  · exact (modPow_eq_one hn (by omega)).mp hone
  · intro q hq hdvd
    rw [← hproduct] at hdvd
    have hmem : q ∈ factors := by
      obtain ⟨r, hr, hqr⟩ := (Prime.dvd_prod_iff hq.prime).mp hdvd
      have hprime : r.Prime := List.forall_iff_forall_mem.mp hfactors r hr
      rwa [(Nat.prime_dvd_prime_iff_eq hq hprime).mp hqr]
    have hlt : (n - 1) / q < 2 ^ bits := (Nat.div_le_self _ _).trans_lt (by omega)
    exact fun hcontra => horder q hmem ((modPow_eq_one hn hlt).mpr hcontra)

/-- The field prime, by certificates for the factors of each predecessor. -/
theorem fieldPrime_prime : Nat.Prime fieldPrime := by
  have h₁ : Nat.Prime 204061199 := prime_of_order 11 28 [2, 11, 23, 107, 3769]
    ⟨by norm_num, by norm_num, by norm_num, by norm_num, by norm_num⟩
    (by decide +kernel) (by decide) (by decide +kernel) (by decide +kernel) (by decide +kernel)
  have h₂ : Nat.Prime 34282281433 := prime_of_order 17 35 [2, 2, 2, 3, 7, 204061199]
    ⟨by norm_num, by norm_num, by norm_num, by norm_num, by norm_num, h₁⟩
    (by decide +kernel) (by decide) (by decide +kernel) (by decide +kernel) (by decide +kernel)
  have h₃ : Nat.Prime 66417393611 := prime_of_order 6 36 [2, 5, 53, 173, 197, 3677]
    ⟨by norm_num, by norm_num, by norm_num, by norm_num, by norm_num, by norm_num⟩
    (by decide +kernel) (by decide) (by decide +kernel) (by decide +kernel) (by decide +kernel)
  have h₄ : Nat.Prime 11290956913871 := prime_of_order 13 44 [2, 5, 17, 66417393611]
    ⟨by norm_num, by norm_num, by norm_num, h₃⟩
    (by decide +kernel) (by decide) (by decide +kernel) (by decide +kernel) (by decide +kernel)
  have h₅ : Nat.Prime 46076956964474543 := prime_of_order 5 56 [2, 23, 18169, 78283, 704251]
    ⟨by norm_num, by norm_num, by norm_num, by norm_num, by norm_num⟩
    (by decide +kernel) (by decide) (by decide +kernel) (by decide +kernel) (by decide +kernel)
  have h₆ : Nat.Prime 774023187263532362759620327192479577272145303 :=
    prime_of_order 3 150 [2, 3, 3, 2411, 34282281433, 11290956913871, 46076956964474543]
      ⟨by norm_num, by norm_num, by norm_num, by norm_num, h₂, h₄, h₅⟩
      (by decide +kernel) (by decide) (by decide +kernel) (by decide +kernel) (by decide +kernel)
  have h₇ : Nat.Prime 835945042244614951780389953367877943453916927241 :=
    prime_of_order 11 160 [2, 2, 2, 3, 3, 3, 5, 774023187263532362759620327192479577272145303]
      ⟨by norm_num, by norm_num, by norm_num, by norm_num, by norm_num, by norm_num, by norm_num, h₆⟩
      (by decide +kernel) (by decide) (by decide +kernel) (by decide +kernel) (by decide +kernel)
  exact prime_of_order 6 256 [2, 3, 5, 5, 17, 257, 641, 1531, 65537, 490463, 6700417,
      835945042244614951780389953367877943453916927241]
    ⟨by norm_num, by norm_num, by norm_num, by norm_num, by norm_num, by norm_num, by norm_num,
      by norm_num, by norm_num, by norm_num, by norm_num, h₇⟩
    (by decide +kernel) (by decide) (by decide +kernel) (by decide +kernel) (by decide +kernel)

instance : Fact (Nat.Prime fieldPrime) := ⟨fieldPrime_prime⟩

end Prime

section Cubic

/-- A polynomial of degree two at most, constant coefficient first. -/
abbrev Quadratic := ℕ × ℕ × ℕ

namespace Quadratic

/-- The product modulo the cubic of the curve equation. -/
def mul (a b : Quadratic) : Quadratic :=
  let cubic := a.2.1 * b.2.2 + a.2.2 * b.2.1
  let quartic := a.2.2 * b.2.2
  ((a.1 * b.1 + (fieldPrime - curveB) * cubic) % fieldPrime,
    (a.1 * b.2.1 + a.2.1 * b.1 + 3 * cubic + (fieldPrime - curveB) * quartic) % fieldPrime,
    (a.1 * b.2.2 + a.2.1 * b.2.1 + a.2.2 * b.1 + 3 * quartic) % fieldPrime)

/-- A power of the indeterminate modulo the cubic, for exponents of the given number of bits. -/
def power : ℕ → ℕ → Quadratic
  | 0, _ => (1, 0, 0)
  | bits + 1, exponent =>
      let root := power bits (exponent / 2)
      mul (mul root root) (if exponent % 2 = 0 then (1, 0, 0) else (0, 1, 0))

def eval (a : Quadratic) (x : ZMod fieldPrime) : ZMod fieldPrime := a.1 + a.2.1 * x + a.2.2 * x ^ 2

section Root

variable {x : ZMod fieldPrime}

theorem eval_mul (hroot : x ^ 3 = 3 * x - curveB) (a b : Quadratic) :
    (mul a b).eval x = a.eval x * b.eval x := by
  have hb : ((fieldPrime - curveB : ℕ) : ZMod fieldPrime) = -curveB := by
    rw [Nat.cast_sub (by decide), ZMod.natCast_self, zero_sub]
  simp only [mul, eval, ZMod.natCast_mod, Nat.cast_add, Nat.cast_mul, Nat.cast_ofNat, hb]
  linear_combination (-(a.2.1 * b.2.2 + a.2.2 * b.2.1) - a.2.2 * b.2.2 * x : ZMod fieldPrime) * hroot

theorem eval_power (hroot : x ^ 3 = 3 * x - curveB) {bits exponent : ℕ} (h : exponent < 2 ^ bits) :
    (power bits exponent).eval x = x ^ exponent := by
  induction bits generalizing exponent with
  | zero =>
      have hzero : exponent = 0 := by simpa using h
      simp [power, eval, hzero]
  | succ bits ih =>
      have hhalf : exponent / 2 < 2 ^ bits := by omega
      have hsplit : exponent / 2 * 2 + exponent % 2 = exponent := Nat.div_add_mod' exponent 2
      have hbit : (if exponent % 2 = 0 then (1, 0, 0) else (0, 1, 0) : Quadratic).eval x =
          x ^ (exponent % 2) := by
        split_ifs with hparity
        · simp [eval, hparity]
        · simp [eval, Nat.mod_two_ne_zero.mp hparity]
      calc (power (bits + 1) exponent).eval x
          = (power bits (exponent / 2)).eval x * (power bits (exponent / 2)).eval x *
              (if exponent % 2 = 0 then (1, 0, 0) else (0, 1, 0) : Quadratic).eval x := by
            rw [power, eval_mul hroot, eval_mul hroot]
        _ = (x ^ (exponent / 2)) ^ 2 * x ^ (exponent % 2) := by rw [ih hhalf, hbit, sq]
        _ = x ^ exponent := by rw [← pow_mul, ← pow_add, hsplit]

/-- The `p`-th power of a root less the root itself. -/
private def frobenius : Quadratic :=
  let image := power 256 fieldPrime
  (image.1, image.2.1 + (fieldPrime - 1), image.2.2)

/-- The inverse of `frobenius` modulo the cubic. -/
private def frobeniusInverse : Quadratic :=
  (0xa969487079f1744798bf0de6fded091b66e9d328eb0645fe5d979d1339b7f47f,
    0xa4a08891884100c13323460107a8d28eede4387fa3e6e9bfebec9f6d72d0b5cc,
    0x4cde11cf86cb876cd59cf0115813c55af0ecd3cda667d98bb9a347a56aa74a6d)

private theorem frobenius_mul_inverse : mul frobenius frobeniusInverse = (1, 0, 0) := by
  decide +kernel

/-- The cubic has no root: it would be fixed by the `p`-th power. -/
theorem no_root : x ^ 3 ≠ 3 * x - curveB := by
  intro hroot
  have himage : (power 256 fieldPrime).eval x = x := by
    rw [eval_power hroot (by decide), ZMod.pow_card]
  have hone : ((fieldPrime - 1 : ℕ) : ZMod fieldPrime) = -1 := by
    rw [Nat.cast_sub (by decide), ZMod.natCast_self, zero_sub, Nat.cast_one]
  have hfixed : frobenius.eval x = 0 := by
    calc frobenius.eval x = (power 256 fieldPrime).eval x - x := by
          simp only [frobenius, eval, Nat.cast_add, hone]
          ring
      _ = 0 := by rw [himage, sub_self]
  have hcontra : (1 : ZMod fieldPrime) = 0 := by
    calc (1 : ZMod fieldPrime) = (mul frobenius frobeniusInverse).eval x := by
          rw [frobenius_mul_inverse]
          simp [eval]
      _ = 0 := by rw [eval_mul hroot, hfixed, zero_mul]
  exact one_ne_zero hcontra

end Root

end Quadratic

end Cubic

section Curve

/-- The affine points of the curve, by reduced coordinates. -/
def OnCurve (point : Affine) : Prop :=
  point.1 < fieldPrime ∧ point.2 < fieldPrime ∧ point.2 ^ 2 % fieldPrime = equation point.1

instance (point : Affine) : Decidable (OnCurve point) := inferInstanceAs (Decidable (_ ∧ _))

theorem equation_cast (x : ℕ) :
    (equation x : ZMod fieldPrime) = (x : ZMod fieldPrime) ^ 3 - 3 * x + curveB := by
  have hthree : ((fieldPrime - 3 : ℕ) : ZMod fieldPrime) = -3 := by
    rw [Nat.cast_sub (by decide), ZMod.natCast_self, zero_sub, Nat.cast_ofNat]
  simp only [equation, ZMod.natCast_mod, Nat.cast_add, Nat.cast_mul, Nat.cast_pow, hthree]
  ring

theorem equation_lt (x : ℕ) : equation x < fieldPrime := Nat.mod_lt _ (by decide)

theorem equation_ne_zero (x : ℕ) : equation x ≠ 0 := by
  intro hzero
  have hcast := equation_cast x
  rw [hzero, Nat.cast_zero] at hcast
  have hroot : (x : ZMod fieldPrime) ^ 3 = 3 * x - curveB := by linear_combination -hcast
  exact Quadratic.no_root hroot

variable {x y root : ℕ}

private theorem square_cast : y ^ 2 % fieldPrime = equation x ↔
    (y : ZMod fieldPrime) ^ 2 = (equation x : ZMod fieldPrime) := by
  rw [← Nat.cast_pow, ZMod.natCast_eq_natCast_iff', Nat.mod_eq_of_lt (equation_lt x)]

theorem ordinate_pos (h : y ^ 2 % fieldPrime = equation x) : 0 < y := by
  by_contra hzero
  rw [Nat.eq_zero_of_not_pos hzero] at h
  exact equation_ne_zero x h.symm

/-- The square root is one wherever there is one. -/
theorem squareRoot_sq (h : y ^ 2 % fieldPrime = equation x) :
    squareRoot (equation x) ^ 2 % fieldPrime = equation x := by
  rw [square_cast] at h ⊢
  have hroot : (squareRoot (equation x) : ZMod fieldPrime) =
      (y : ZMod fieldPrime) ^ (2 * ((fieldPrime + 1) >>> 2)) := by
    rw [squareRoot, modPow_eq _ _ (by decide), ZMod.natCast_mod, Nat.cast_pow, ← h, pow_mul]
  have hexponent : 2 * ((fieldPrime + 1) >>> 2) * 2 = fieldPrime + 1 := by decide
  rw [hroot, ← pow_mul, hexponent, pow_succ, ZMod.pow_card, ← h, sq]

/-- Two ordinates of one abscissa are equal or opposite. -/
theorem ordinate_unique (hy : y < fieldPrime) (hroot : root < fieldPrime)
    (h : y ^ 2 % fieldPrime = equation x) (hother : root ^ 2 % fieldPrime = equation x) :
    y = root ∨ y + root = fieldPrime := by
  have hsquares : (y : ZMod fieldPrime) ^ 2 = (root : ZMod fieldPrime) ^ 2 := by
    rw [square_cast.mp h, square_cast.mp hother]
  cases sq_eq_sq_iff_eq_or_eq_neg.mp hsquares with
  | inl hsame =>
      rw [ZMod.natCast_eq_natCast_iff', Nat.mod_eq_of_lt hy, Nat.mod_eq_of_lt hroot] at hsame
      exact Or.inl hsame
  | inr hopposite =>
      have hsum : ((y + root : ℕ) : ZMod fieldPrime) = 0 := by
        rw [Nat.cast_add, hopposite, neg_add_cancel]
      have hdvd : fieldPrime ∣ y + root := (ZMod.natCast_eq_zero_iff _ _).mp hsum
      obtain ⟨k, hk⟩ := hdvd
      have hpos := ordinate_pos h
      have hone : k = 1 := by
        have hlow : 0 < k := Nat.pos_of_ne_zero fun hzero => by rw [hzero] at hk; omega
        have hhigh : k < 2 := by
          by_contra hlarge
          have := Nat.mul_le_mul_left fieldPrime (not_lt.mp hlarge)
          omega
        omega
      rw [hone, Nat.mul_one] at hk
      exact Or.inr hk

/-- Of two opposite ordinates the parity tells which is meant. -/
theorem ordinate_of_parity (hy : y < fieldPrime) (h : y ^ 2 % fieldPrime = equation x) :
    (if squareRoot (equation x) % 2 = y % 2 then squareRoot (equation x)
      else fieldPrime - squareRoot (equation x)) = y := by
  have hodd : fieldPrime % 2 = 1 := by decide
  have hroot := squareRoot_sq h
  cases ordinate_unique hy (squareRoot_lt _) h hroot with
  | inl hsame => rw [if_pos (by rw [hsame]), hsame]
  | inr hsum =>
      have hparity : squareRoot (equation x) % 2 ≠ y % 2 := by omega
      rw [if_neg hparity]
      omega

variable {point : Affine} {encoded : Bytes 33}

theorem abscissa_encodeCompressed (h : OnCurve point) :
    bigEndianValue ((encodeCompressed point).1.drop 1) = point.1 := by
  rw [encodeCompressed, List.drop_one, List.tail_cons]
  exact bigEndianValue_bigEndian (h.1.trans (by decide))

theorem tag_encodeCompressed (point : Affine) :
    ((encodeCompressed point).1.headD 0).val % 2 = point.2 % 2 := by
  rw [encodeCompressed, List.headD_cons]
  split_ifs with heven
  · exact heven.symm
  · exact (Nat.mod_two_ne_zero.mp heven).symm

theorem encodeCompressed_isCompressed (point : Affine) : IsCompressed (encodeCompressed point) := by
  rw [← compress_encodeUncompressed]
  exact compress_isCompressed _

/-- Decompression finds every point of the curve. -/
theorem decodeCompressed_encodeCompressed (h : OnCurve point) :
    decodeCompressed (encodeCompressed point) = some point := by
  have hy := ordinate_of_parity h.2.1 h.2.2
  simp only [decodeCompressed, abscissa_encodeCompressed h, tag_encodeCompressed, hy]
  exact if_pos ⟨encodeCompressed_isCompressed point, h.1, squareRoot_sq h.2.2, trivial⟩

/-- Decompression finds only points of the curve. -/
theorem onCurve_of_decodeCompressed (h : decodeCompressed encoded = some point) : OnCurve point := by
  simp only [decodeCompressed, Option.ite_none_right_eq_some, Option.some.injEq] at h
  obtain ⟨⟨-, hx, hroot, -⟩, rfl⟩ := h
  have hpos := ordinate_pos hroot
  have hlt := squareRoot_lt (equation (bigEndianValue (encoded.1.drop 1)))
  refine ⟨hx, ?_, ?_⟩ <;> dsimp only <;> split_ifs with hparity
  · exact hlt
  · omega
  · exact hroot
  · rw [square_cast] at hroot ⊢
    rw [Nat.cast_sub hlt.le, ZMod.natCast_self, zero_sub, neg_sq, hroot]

theorem onCurve_iff : OnCurve point ↔ decodeCompressed (encodeCompressed point) = some point :=
  ⟨decodeCompressed_encodeCompressed, onCurve_of_decodeCompressed⟩

/-- A compressed encoding determines its point. -/
theorem encodeCompressed_injective {other : Affine} (h : OnCurve point) (hother : OnCurve other)
    (hsame : encodeCompressed point = encodeCompressed other) : point = other := by
  have hfound := decodeCompressed_encodeCompressed h
  rw [hsame, decodeCompressed_encodeCompressed hother] at hfound
  exact (Option.some.inj hfound).symm

end Curve

end AgePluginPhone.Library.P256
