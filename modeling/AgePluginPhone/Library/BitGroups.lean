import Mathlib

/-!
# Regrouping of bits

Digits of one power-of-two base rewritten in another, most significant first, through a masked
accumulator. Base64 and Bech32 texts are both built this way.
-/

namespace AgePluginPhone.Library.BitGroups

/-- The number a list of digits stands for, most significant digit first. -/
def value (base : ℕ) (digits : List ℕ) : ℕ := digits.foldl (fun total d => total * base + d) 0

private theorem foldl_start (base start : ℕ) (digits : List ℕ) :
    digits.foldl (fun total d => total * base + d) start =
      start * base ^ digits.length + value base digits := by
  induction digits generalizing start with
  | nil => simp [value]
  | cons d digits ih =>
      rw [value, List.foldl_cons, List.foldl_cons, ih, ih (0 * base + d), List.length_cons, pow_succ]
      ring

theorem value_cons (base d : ℕ) (digits : List ℕ) :
    value base (d :: digits) = d * base ^ digits.length + value base digits := by
  rw [value, List.foldl_cons, foldl_start]
  simp

theorem value_append (base : ℕ) (front back : List ℕ) :
    value base (front ++ back) = value base front * base ^ back.length + value base back := by
  rw [value, List.foldl_append, foldl_start]
  rfl

theorem value_lt {base : ℕ} {digits : List ℕ} (h : ∀ d ∈ digits, d < base) :
    value base digits < base ^ digits.length := by
  induction digits with
  | nil => simp [value]
  | cons d digits ih =>
      obtain ⟨hhead, htail⟩ := List.forall_mem_cons.mp h
      have hrest := ih htail
      have hstep : (d + 1) * base ^ digits.length ≤ base * base ^ digits.length :=
        Nat.mul_le_mul_right _ hhead
      rw [value_cons, List.length_cons, pow_succ, Nat.mul_comm (base ^ digits.length)]
      rw [Nat.add_mul, Nat.one_mul] at hstep
      omega

/-- Digit lists of one length are determined by their value. -/
theorem value_injective {base : ℕ} {a b : List ℕ} (hlen : a.length = b.length)
    (ha : ∀ d ∈ a, d < base) (hb : ∀ d ∈ b, d < base) (h : value base a = value base b) : a = b := by
  induction a generalizing b with
  | nil => exact (List.length_eq_zero_iff.mp hlen.symm).symm
  | cons x a ih =>
      cases b with
      | nil => simp at hlen
      | cons y b =>
          obtain ⟨-, hatail⟩ := List.forall_mem_cons.mp ha
          obtain ⟨-, hbtail⟩ := List.forall_mem_cons.mp hb
          have hlen' : a.length = b.length := by simpa using hlen
          have hva := value_lt hatail
          have hvb := value_lt hbtail
          rw [value_cons, value_cons, hlen'] at h
          rw [hlen'] at hva
          have hpos : 0 < base ^ b.length := by omega
          have hx : x = y := by
            have hdiv := congrArg (· / base ^ b.length) h
            simp only [Nat.mul_comm x, Nat.mul_comm y, Nat.mul_add_div hpos, Nat.div_eq_of_lt hva,
              Nat.div_eq_of_lt hvb, Nat.add_zero] at hdiv
            exact hdiv
          subst hx
          rw [ih hlen' hatail hbtail (by omega)]

/-- One round: shift a digit into the accumulator, then emit every complete output word. -/
def step (fromBits toBits : ℕ) (state : List ℕ × ℕ × ℕ) (digit : ℕ) : List ℕ × ℕ × ℕ :=
  let (output, accumulator, bits) := state
  let accumulator := ((accumulator <<< fromBits) ||| digit) &&& ((1 <<< (fromBits + toBits - 1)) - 1)
  let bits := bits + fromBits
  let words := (List.range (bits / toBits)).map fun i =>
    (accumulator >>> (bits - toBits * (i + 1))) &&& ((1 <<< toBits) - 1)
  (output ++ words, accumulator, bits % toBits)

/-- The complete words, the accumulator and its number of pending bits. -/
def regroup (fromBits toBits : ℕ) (digits : List ℕ) : List ℕ × ℕ × ℕ :=
  digits.foldl (step fromBits toBits) ([], 0, 0)

/-- Regroup with zero bits appended to complete the last word. -/
def padded (fromBits toBits : ℕ) (digits : List ℕ) : List ℕ :=
  let (output, accumulator, bits) := regroup fromBits toBits digits
  if 0 < bits then output ++ [(accumulator <<< (toBits - bits)) &&& ((1 <<< toBits) - 1)] else output

/-- Regroup where the pending bits must be fewer than one input digit, and zero. -/
def exact (fromBits toBits : ℕ) (digits : List ℕ) : Option (List ℕ) :=
  let (output, accumulator, bits) := regroup fromBits toBits digits
  if bits < fromBits ∧ accumulator % 2 ^ bits = 0 then some output else none

section Value

variable {fromBits toBits : ℕ}

private def emitted (toBits accumulator rest : ℕ) : ℕ → List ℕ
  | 0 => []
  | count + 1 => ((accumulator >>> (toBits * count + rest)) &&& ((1 <<< toBits) - 1)) ::
      emitted toBits accumulator rest count

private theorem map_range_eq_emitted (accumulator rest count : ℕ) :
    ((List.range count).map fun i => (accumulator >>> (toBits * count + rest - toBits * (i + 1))) &&&
      ((1 <<< toBits) - 1)) = emitted toBits accumulator rest count := by
  induction count with
  | zero => rfl
  | succ count ih =>
      rw [List.range_succ_eq_map, List.map_cons, List.map_map, emitted]
      congr 1
      · congr 2
        rw [Nat.mul_add]
        omega
      · rw [← ih]
        apply List.map_congr_left
        intro i hi
        simp only [Function.comp_apply]
        congr 2
        have hle : toBits * (i + 1) ≤ toBits * count :=
          Nat.mul_le_mul_left _ (by simpa using List.mem_range.mp hi)
        simp only [Nat.mul_add, Nat.succ_eq_add_one] at *
        omega

private theorem emitted_length (accumulator rest count : ℕ) :
    (emitted toBits accumulator rest count).length = count := by
  induction count with
  | zero => rfl
  | succ count ih => rw [emitted, List.length_cons, ih]

private theorem and_mask (n k : ℕ) : n &&& ((1 <<< k) - 1) = n % 2 ^ k := by
  rw [Nat.one_shiftLeft, Nat.and_two_pow_sub_one_eq_mod]

private theorem emitted_lt (accumulator rest count : ℕ) :
    ∀ d ∈ emitted toBits accumulator rest count, d < 2 ^ toBits := by
  induction count with
  | zero => simp [emitted]
  | succ count ih =>
      rw [emitted]
      refine List.forall_mem_cons.mpr ⟨?_, ih⟩
      rw [and_mask]
      exact Nat.mod_lt _ (Nat.two_pow_pos _)

/-- The emitted words are the pending bits above the last incomplete word. -/
private theorem value_emitted (accumulator rest count : ℕ) :
    value (2 ^ toBits) (emitted toBits accumulator rest count) * 2 ^ rest + accumulator % 2 ^ rest =
      accumulator % 2 ^ (toBits * count + rest) := by
  induction count with
  | zero => simp [emitted, value]
  | succ count ih =>
      have hsplit : accumulator % 2 ^ (toBits * (count + 1) + rest) =
          accumulator % 2 ^ (toBits * count + rest) +
            2 ^ (toBits * count + rest) * (accumulator / 2 ^ (toBits * count + rest) % 2 ^ toBits) := by
        rw [show toBits * (count + 1) + rest = (toBits * count + rest) + toBits by ring, pow_add,
          Nat.mod_mul]
      rw [emitted, value_cons, emitted_length, and_mask, Nat.shiftRight_eq_div_pow, hsplit, ← ih,
        ← pow_mul]
      ring

/-- What the accumulator, the pending bits and the output hold after a prefix of the digits. -/
structure Holds (fromBits toBits : ℕ) (digits : List ℕ) (state : List ℕ × ℕ × ℕ) : Prop where
  pending : state.2.2 < toBits
  words : ∀ d ∈ state.1, d < 2 ^ toBits
  count : toBits * state.1.length + state.2.2 = fromBits * digits.length
  total : value (2 ^ toBits) state.1 * 2 ^ state.2.2 + state.2.1 % 2 ^ state.2.2 =
    value (2 ^ fromBits) digits

private theorem holds_nil (hto : 0 < toBits) : Holds fromBits toBits [] ([], 0, 0) where
  pending := hto
  words := by simp
  count := by simp
  total := by simp [value]

private theorem holds_step {digits : List ℕ} {state : List ℕ × ℕ × ℕ} {digit : ℕ}
    (hto : 0 < toBits) (hdigit : digit < 2 ^ fromBits) (h : Holds fromBits toBits digits state) :
    Holds fromBits toBits (digits ++ [digit]) (step fromBits toBits state digit) := by
  obtain ⟨output, accumulator, bits⟩ := state
  have hpending : bits < toBits := h.pending
  have hcount : toBits * output.length + bits = fromBits * digits.length := h.count
  have htotal : value (2 ^ toBits) output * 2 ^ bits + accumulator % 2 ^ bits =
      value (2 ^ fromBits) digits := h.total
  have hdiv := Nat.div_add_mod (bits + fromBits) toBits
  have hmap : (List.range ((bits + fromBits) / toBits)).map
      (fun i => ((((accumulator <<< fromBits) ||| digit) &&& ((1 <<< (fromBits + toBits - 1)) - 1)) >>>
        (bits + fromBits - toBits * (i + 1))) &&& ((1 <<< toBits) - 1)) =
      emitted toBits (((accumulator <<< fromBits) ||| digit) &&& ((1 <<< (fromBits + toBits - 1)) - 1))
        ((bits + fromBits) % toBits) ((bits + fromBits) / toBits) := by
    rw [← map_range_eq_emitted, hdiv]
  have hshift : (accumulator <<< fromBits) ||| digit = accumulator * 2 ^ fromBits + digit := by
    rw [← Nat.shiftLeft_add_eq_or_of_lt hdigit, Nat.shiftLeft_eq]
  have hmasked : (((accumulator <<< fromBits) ||| digit) &&& ((1 <<< (fromBits + toBits - 1)) - 1)) %
      2 ^ (bits + fromBits) = accumulator % 2 ^ bits * 2 ^ fromBits + digit := by
    have hdvd : (2 : ℕ) ^ (bits + fromBits) ∣ 2 ^ (fromBits + toBits - 1) :=
      Nat.pow_dvd_pow 2 (by omega)
    rw [and_mask, Nat.mod_mod_of_dvd _ hdvd, hshift, pow_add, Nat.mul_comm (2 ^ bits), Nat.mod_mul,
      Nat.mul_comm accumulator, Nat.mul_add_mod, Nat.mod_eq_of_lt hdigit,
      Nat.mul_add_div (Nat.two_pow_pos _), Nat.div_eq_of_lt hdigit, Nat.add_zero]
    ring
  refine ⟨Nat.mod_lt _ hto, ?_, ?_, ?_⟩
  · intro d hd
    simp only [step, hmap, List.mem_append] at hd
    rcases hd with hd | hd
    · exact h.words d hd
    · exact emitted_lt _ _ _ d hd
  · simp only [step, hmap, List.length_append, emitted_length, List.length_singleton]
    rw [Nat.mul_add, Nat.mul_add]
    omega
  · have hemitted := @value_emitted toBits
      (((accumulator <<< fromBits) ||| digit) &&& ((1 <<< (fromBits + toBits - 1)) - 1))
      ((bits + fromBits) % toBits) ((bits + fromBits) / toBits)
    rw [hdiv, hmasked] at hemitted
    simp only [step, hmap]
    rw [value_append, emitted_length, Nat.add_mul, Nat.add_assoc, hemitted, value_append,
      List.length_singleton, ← htotal, Nat.mul_assoc, ← pow_mul, ← pow_add, hdiv, pow_add]
    simp only [value, List.foldl_cons, List.foldl_nil]
    ring

theorem regroup_holds {digits : List ℕ} (hto : 0 < toBits) (h : ∀ d ∈ digits, d < 2 ^ fromBits) :
    Holds fromBits toBits digits (regroup fromBits toBits digits) := by
  induction digits using List.reverseRecOn with
  | nil => exact holds_nil hto
  | append_singleton digits digit ih =>
      have hstarts := ih fun d hd => h d (List.mem_append_left _ hd)
      rw [regroup, List.foldl_append, List.foldl_cons, List.foldl_nil]
      exact holds_step hto (h digit (by simp)) hstarts

end Value

section RoundTrip

variable {fromBits toBits : ℕ} {digits output : List ℕ}

private theorem length_unique {n a b p q : ℕ} (hp : p < n) (hq : q < n)
    (h : n * a + p = n * b + q) : a = b ∧ p = q := by
  have hpos : 0 < n := by omega
  have hdiv := congrArg (· / n) h
  simp only [Nat.mul_add_div hpos, Nat.div_eq_of_lt hp, Nat.div_eq_of_lt hq, Nat.add_zero] at hdiv
  subst hdiv
  exact ⟨rfl, by omega⟩

theorem padded_lt (hto : 0 < toBits) (h : ∀ d ∈ digits, d < 2 ^ fromBits) :
    ∀ d ∈ padded fromBits toBits digits, d < 2 ^ toBits := by
  have hstate := regroup_holds hto h
  intro d hd
  simp only [padded] at hd
  split_ifs at hd with hbits
  · rcases List.mem_append.mp hd with hd | hd
    · exact hstate.words d hd
    · rw [List.mem_singleton.mp hd, and_mask]
      exact Nat.mod_lt _ (Nat.two_pow_pos _)
  · exact hstate.words d hd

/-- The last word is what is pending, moved to the top of the word. -/
theorem last_word {accumulator bits : ℕ} (h : bits ≤ toBits) :
    (accumulator <<< (toBits - bits)) &&& ((1 <<< toBits) - 1) =
      accumulator % 2 ^ bits * 2 ^ (toBits - bits) := by
  have hpow : (2 : ℕ) ^ toBits = 2 ^ (toBits - bits) * 2 ^ bits := by
    rw [← pow_add]
    congr 1
    omega
  rw [and_mask, Nat.shiftLeft_eq, Nat.mul_comm accumulator, hpow, Nat.mul_mod_mul_left, Nat.mul_comm]

/-- The padded words hold the digits followed by fewer zero bits than one word. -/
theorem padded_value (hto : 0 < toBits) (h : ∀ d ∈ digits, d < 2 ^ fromBits) :
    ∃ pad < toBits, toBits * (padded fromBits toBits digits).length = fromBits * digits.length + pad ∧
      value (2 ^ toBits) (padded fromBits toBits digits) = value (2 ^ fromBits) digits * 2 ^ pad := by
  have hstate := regroup_holds hto h
  simp only [padded]
  generalize regroup fromBits toBits digits = state at hstate
  obtain ⟨words, accumulator, bits⟩ := state
  have hpending : bits < toBits := hstate.pending
  have hcount : toBits * words.length + bits = fromBits * digits.length := hstate.count
  have htotal : value (2 ^ toBits) words * 2 ^ bits + accumulator % 2 ^ bits =
      value (2 ^ fromBits) digits := hstate.total
  by_cases hbits : 0 < bits
  · simp only [if_pos hbits]
    have hlast := @last_word toBits accumulator bits (le_of_lt hpending)
    have hpow : (2 : ℕ) ^ toBits = 2 ^ bits * 2 ^ (toBits - bits) := by
      rw [← pow_add]
      congr 1
      omega
    refine ⟨toBits - bits, Nat.sub_lt hto hbits, ?_, ?_⟩
    · rw [List.length_append, List.length_singleton, Nat.mul_add]
      omega
    · rw [value_append, List.length_singleton, hlast, ← htotal, pow_one, Nat.add_mul]
      simp only [value, List.foldl_cons, List.foldl_nil, Nat.zero_mul, Nat.zero_add]
      rw [hpow]
      ring
  · have hzero : bits = 0 := by omega
    subst hzero
    simp only [Nat.lt_irrefl, if_false]
    refine ⟨0, hto, hcount, ?_⟩
    simpa [Nat.mod_one] using htotal

/-- Exact regrouping succeeds when the digits are the output followed by fewer zero bits than one
digit. -/
theorem exact_eq_some (hto : 0 < toBits) (hle : fromBits ≤ toBits)
    (h : ∀ d ∈ digits, d < 2 ^ fromBits) :
    exact fromBits toBits digits = some output ↔ (∀ d ∈ output, d < 2 ^ toBits) ∧
      ∃ pad < fromBits, fromBits * digits.length = toBits * output.length + pad ∧
        value (2 ^ fromBits) digits = value (2 ^ toBits) output * 2 ^ pad := by
  have hstate := regroup_holds hto h
  simp only [exact]
  generalize regroup fromBits toBits digits = state at hstate
  obtain ⟨words, accumulator, bits⟩ := state
  have hpending : bits < toBits := hstate.pending
  have hcount : toBits * words.length + bits = fromBits * digits.length := hstate.count
  have htotal : value (2 ^ toBits) words * 2 ^ bits + accumulator % 2 ^ bits =
      value (2 ^ fromBits) digits := hstate.total
  constructor
  · intro hexact
    split_ifs at hexact with hbits
    obtain rfl : words = output := Option.some.inj hexact
    refine ⟨hstate.words, bits, hbits.1, hcount.symm, ?_⟩
    rw [← htotal, hbits.2, Nat.add_zero]
  · intro hparts
    obtain ⟨hwords, pad, hpad, hlen, hvalue⟩ := hparts
    obtain ⟨hlength, hbits⟩ := length_unique hpending (lt_of_lt_of_le hpad hle) (hcount.trans hlen)
    subst hbits
    rw [hvalue, Nat.mul_comm (value (2 ^ toBits) words), Nat.mul_comm (value (2 ^ toBits) output)]
      at htotal
    have hmod : accumulator % 2 ^ bits = 0 := by
      have hboth := congrArg (· % 2 ^ bits) htotal
      simpa only [Nat.mul_add_mod, Nat.mod_mod, Nat.mul_mod_right] using hboth
    rw [hmod, Nat.add_zero] at htotal
    have hsame := Nat.eq_of_mul_eq_mul_left (Nat.two_pow_pos _) htotal
    rw [if_pos ⟨hpad, hmod⟩, value_injective hlength hstate.words hwords hsame]

/-- Exact regrouping undoes padding. -/
theorem exact_padded (hfrom : 0 < fromBits) (hle : fromBits ≤ toBits)
    (h : ∀ d ∈ output, d < 2 ^ toBits) :
    exact fromBits toBits (padded toBits fromBits output) = some output := by
  obtain ⟨pad, hpad, hlen, hvalue⟩ := padded_value hfrom h
  exact (exact_eq_some (by omega) hle (padded_lt hfrom h)).mpr ⟨h, pad, hpad, hlen, hvalue⟩

/-- Only the padding of the output is regrouped exactly to it. -/
theorem padded_of_exact (hfrom : 0 < fromBits) (hle : fromBits ≤ toBits)
    (hdigits : ∀ d ∈ digits, d < 2 ^ fromBits) (h : exact fromBits toBits digits = some output) :
    padded toBits fromBits output = digits := by
  obtain ⟨hwords, pad, hpad, hlen, hvalue⟩ := (exact_eq_some (by omega) hle hdigits).mp h
  obtain ⟨pad', hpad', hlen', hvalue'⟩ := padded_value hfrom hwords
  have hcount : fromBits * (padded toBits fromBits output).length + pad =
      fromBits * digits.length + pad' := by omega
  obtain ⟨hlength, hpads⟩ := length_unique hpad hpad' hcount
  apply value_injective hlength (padded_lt hfrom hwords) hdigits
  rw [hvalue', hvalue, hpads]

theorem padded_length (hto : 0 < toBits) (h : ∀ d ∈ digits, d < 2 ^ fromBits) :
    (padded fromBits toBits digits).length = (fromBits * digits.length + (toBits - 1)) / toBits := by
  obtain ⟨pad, hpad, hlen, -⟩ := padded_value hto h
  symm
  apply Nat.div_eq_of_lt_le
  · rw [Nat.mul_comm]
    omega
  · rw [Nat.succ_mul, Nat.mul_comm _ toBits]
    omega

end RoundTrip

end AgePluginPhone.Library.BitGroups
