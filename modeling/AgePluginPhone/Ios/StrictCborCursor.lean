import AgePluginPhone.Library.Cursor
import AgePluginPhone.Ios.StrictCbor

/-!
# The cursor of strict CBOR on iOS

`StrictCBOR` moves an `Int` offset through the data. The arithmetic of `Int`, its conversions and
the subscripts of `Data` end the process outside their ranges; here each of them is explicit.
-/

namespace AgePluginPhone.Ios.StrictCborCursor

open Library Cbor

inductive Stop
  | thrown (error : StrictCborError)
  | trap
  deriving DecidableEq

/-- A result of `Int` arithmetic, or a number converted to `Int`. -/
def toInt (n : ℤ) : Except Stop ℤ :=
  if -9223372036854775808 ≤ n ∧ n < 9223372036854775808 then .ok n else .error .trap

def toUInt64 (n : ℤ) : Except Stop ℕ :=
  if 0 ≤ n ∧ n < 18446744073709551616 then .ok n.toNat else .error .trap

/-- `data[offset]`. -/
def subscript (data : List Byte) (offset : ℤ) : Except Stop Byte :=
  if 0 ≤ offset then okOr data[offset.toNat]? .trap else .error .trap

/-- `data[start..<stop]`. -/
def slice (data : List Byte) (start stop : ℤ) : Except Stop (List Byte) :=
  if 0 ≤ start ∧ start ≤ stop ∧ stop ≤ data.length then
    .ok ((data.drop start.toNat).take (stop - start).toNat)
  else .error .trap

/-- `read` of an unsigned integer of the given number of bytes. -/
def read (data : List Byte) (count : ℕ) (offset : ℤ) : Except Stop (ℕ × ℤ) := do
  let stop ← toInt (offset + count)
  ensure (stop ≤ data.length) (.thrown .malformed)
  let bytes ← slice data offset stop
  let value := bytes.foldl (fun value byte => value <<< 8 % 256 ^ count ||| byte.val) 0
  return (value, stop)

def readFixed (data : List Byte) (count floor : ℕ) (offset : ℤ) : Except Stop (ℕ × ℤ) := do
  let (value, offset) ← read data count offset
  ensure (floor < value) (.thrown .nonCanonical)
  return (value, offset)

def readLength (data : List Byte) (additional : ℕ) (offset : ℤ) : Except Stop (ℕ × ℤ) :=
  if additional < 24 then .ok (additional, offset)
  else if additional = 24 then readFixed data 1 23 offset
  else if additional = 25 then readFixed data 2 0xff offset
  else if additional = 26 then readFixed data 4 0xffff offset
  else if additional = 27 then readFixed data 8 0xffffffff offset
  else .error (.thrown .unsupported)

/-- The content of a byte string or a text. -/
def takeContent (data : List Byte) (length : ℕ) (offset : ℤ) : Except Stop (List Byte × ℤ) := do
  let left ← toInt (data.length - offset) >>= toUInt64
  ensure (length ≤ left) (.thrown .malformed)
  let stop ← toInt (offset + (← toInt length))
  let content ← slice data offset stop
  return (content, stop)

def parseMany (parseItem : ℤ → Except Stop (Item × ℤ)) : ℕ → ℤ → Except Stop (List Item × ℤ)
  | 0, offset => .ok ([], offset)
  | count + 1, offset => do
      let (item, offset) ← parseItem offset
      let (items, offset) ← parseMany parseItem count offset
      return (item :: items, offset)

/-- `parse` with the number of levels left of its depth limit. -/
def parse (data : List Byte) (maximumArrayElements : ℤ) : ℕ → ℤ → Except Stop (Item × ℤ)
  | 0, _ => .error (.thrown .limit)
  | levels + 1, offset => do
      ensure (offset < data.length) (.thrown .limit)
      let initial ← subscript data offset
      let offset ← toInt (offset + 1)
      let major := initial.val / 32
      let additional := initial.val % 32
      if major = 7 ∧ additional = 22 then return (.null, offset)
      ensure (major ≤ 4) (.thrown .unsupported)
      let (length, offset) ← readLength data additional offset
      match major with
      | 0 => return (.unsigned length, offset)
      | 2 =>
          let (content, offset) ← takeContent data length offset
          return (.bytes content, offset)
      | 3 =>
          let (content, offset) ← takeContent data length offset
          let text ← okOr (fromUtf8 content) (.thrown .malformed)
          ensure (utf8 text = content) (.thrown .malformed)
          return (.text text, offset)
      | 4 =>
          ensure (length ≤ (← toUInt64 maximumArrayElements)) (.thrown .limit)
          let _ ← toInt length
          let (items, offset) ← parseMany (parse data maximumArrayElements levels) length offset
          return (.array items, offset)
      | _ => .error (.thrown .unsupported)

def decode (data : List Byte) (maximumBytes maximumArrayElements : ℤ) : Except Stop Item := do
  ensure (data ≠ [] ∧ data.length ≤ maximumBytes ∧ 0 < maximumArrayElements) (.thrown .limit)
  let (value, offset) ← parse data maximumArrayElements (StrictCbor.maximumDepth + 1) 0
  ensure (offset = data.length ∧ value.encode = data) (.thrown .nonCanonical)
  return value

section Agreement

variable {data rest : List Byte} {offset : ℤ}

private theorem toInt_eq_ok {n : ℤ} (hlow : 0 ≤ n) (hhigh : n < 9223372036854775808) :
    toInt n = .ok n :=
  if_pos ⟨by omega, hhigh⟩

private theorem slice_take (hat : At data offset rest) {n : ℕ} (hn : n ≤ rest.length) :
    slice data offset (offset + n) = .ok (rest.take n) := by
  have hlow := hat.nonneg
  have hlength := hat.add_length
  have hcount : (offset + n - offset).toNat = n := by omega
  rw [slice, if_pos ⟨hlow, by omega, by omega⟩, hat.drop, hcount]

private theorem read_fold {width : ℕ} (bytes : List Byte) (hwidth : bytes.length ≤ width) :
    bytes.foldl (fun value byte => value <<< 8 % 256 ^ width ||| byte.val) 0 =
      bigEndianValue bytes := by
  induction bytes using List.reverseRecOn with
  | nil => rfl
  | append_singleton bytes b ih =>
      rw [List.length_append, List.length_singleton] at hwidth
      have hlt := bigEndianValue_lt bytes
      have hle : 256 ^ (bytes.length + 1) ≤ 256 ^ width := Nat.pow_le_pow_right (by decide) hwidth
      have hmod : bigEndianValue bytes <<< 8 % 256 ^ width = bigEndianValue bytes <<< 8 := by
        rw [Nat.shiftLeft_eq]
        refine Nat.mod_eq_of_lt (lt_of_lt_of_le ?_ hle)
        rw [pow_succ]
        exact Nat.mul_lt_mul_of_pos_right hlt (by decide)
      rw [List.foldl_append, List.foldl_cons, List.foldl_nil, ih (by omega), hmod,
        ← Nat.shiftLeft_add_eq_or_of_lt b.isLt, Nat.shiftLeft_eq, bigEndianValue, bigEndianValue,
        List.foldl_append]
      rfl

private theorem read_agrees (hsize : data.length + 8 < 9223372036854775808) {count : ℕ}
    (hcount : count ≤ 8) (hat : At data offset rest) :
    Agrees data .thrown (read data count offset) (okOr (takeArgument count rest) .malformed) := by
  have hlow := hat.nonneg
  have hlength := hat.add_length
  rw [read, toInt_eq_ok (by omega) (by omega), ok_bind]
  by_cases hn : count ≤ rest.length
  · have hwidth : (rest.take count).length ≤ count := by simp
    have hvalue := read_fold _ hwidth
    rw [ensure_true _ (by omega), ok_bind, slice_take hat hn, ok_bind, takeArgument, if_pos hn,
      okOr_some, hvalue]
    exact Agrees.ok (hat.take count hn)
  · rw [ensure_false _ (by omega), error_bind, takeArgument, if_neg hn]
    exact Agrees.error _

private theorem readFixed_agrees (hsize : data.length + 8 < 9223372036854775808) {count : ℕ}
    (hcount : count ≤ 8) (floor : ℕ) (hat : At data offset rest) :
    Agrees data .thrown (readFixed data count floor offset) (StrictCbor.readFixed count floor rest) := by
  refine Agrees.bind (read_agrees hsize hcount hat) fun value offset rest hat => ?_
  exact Agrees.ensure _ fun _ => Agrees.ok hat

private theorem readLength_agrees (hsize : data.length + 8 < 9223372036854775808) (additional : ℕ)
    (hat : At data offset rest) :
    Agrees data .thrown (readLength data additional offset)
      (StrictCbor.readLength additional rest) := by
  unfold readLength StrictCbor.readLength
  split_ifs
  · exact Agrees.ok hat
  · exact readFixed_agrees hsize (by decide) _ hat
  · exact readFixed_agrees hsize (by decide) _ hat
  · exact readFixed_agrees hsize (by decide) _ hat
  · exact readFixed_agrees hsize (by decide) _ hat
  · exact Agrees.error _

private theorem takeContent_agrees (hsize : data.length + 8 < 9223372036854775808) (length : ℕ)
    (hat : At data offset rest) :
    Agrees data .thrown (takeContent data length offset) (StrictCbor.takeContent length rest) := by
  have hlow := hat.nonneg
  have hlength := hat.add_length
  have hleft : toInt (data.length - offset) >>= toUInt64 = .ok rest.length := by
    have hrest : (data.length - offset : ℤ) = rest.length := by omega
    rw [hrest, toInt_eq_ok (by omega) (by omega), ok_bind, toUInt64, if_pos (by omega),
      Int.toNat_natCast]
  rw [takeContent, hleft, ok_bind]
  refine Agrees.ensure _ fun hn => ?_
  rw [toInt_eq_ok (by omega) (by omega), ok_bind, toInt_eq_ok (by omega) (by omega), ok_bind,
    slice_take hat hn, ok_bind]
  exact Agrees.ok (hat.take length hn)

private theorem parseMany_agrees {x : ℤ → Except Stop (Item × ℤ)}
    {y : List Byte → Except StrictCborError (Item × List Byte)}
    (h : ∀ offset rest, At data offset rest → Agrees data .thrown (x offset) (y rest)) (count : ℕ)
    (hat : At data offset rest) :
    Agrees data .thrown (parseMany x count offset) (StrictCbor.parseMany y count rest) := by
  induction count generalizing offset rest with
  | zero => exact Agrees.ok hat
  | succ count ih =>
      refine Agrees.bind (h offset rest hat) fun item offset rest hat => ?_
      exact Agrees.bind (ih hat) fun items offset rest hat => Agrees.ok hat

/-- Nothing traps in the parser, and it reads what is left of the data. -/
theorem parse_agrees (hsize : data.length + 8 < 9223372036854775808) {limit : ℕ}
    (hlimit : limit < 9223372036854775808) (levels : ℕ) (hat : At data offset rest) :
    Agrees data .thrown (parse data limit levels offset) (StrictCbor.parse limit levels rest) := by
  induction levels generalizing offset rest with
  | zero => exact Agrees.error _
  | succ levels ih =>
      have hlow := hat.nonneg
      have hlength := hat.add_length
      cases rest with
      | nil =>
          rw [parse, ensure_false _ (by simpa using hlength.symm.le), error_bind]
          exact Agrees.error _
      | cons initial rest =>
          rw [List.length_cons, Nat.cast_succ] at hlength
          have hread : subscript data offset = .ok initial := by
            rw [subscript, if_pos hlow, hat.getElem?]
            rfl
          rw [parse, ensure_true _ (by omega), ok_bind, hread, ok_bind,
            toInt_eq_ok (by omega) (by omega), ok_bind, StrictCbor.parse]
          have hlimit' : toUInt64 limit = .ok limit := by
            rw [toUInt64, if_pos (by omega), Int.toNat_natCast]
          have hnext := hat.cons
          dsimp only
          split_ifs with hnull
          · exact Agrees.ok hnext
          refine Agrees.ensure _ fun _ => ?_
          refine Agrees.bind (readLength_agrees hsize _ hnext) fun length offset rest hat => ?_
          dsimp only
          generalize initial.val / 32 = major
          rcases major with _ | _ | _ | _ | _ | major
          · exact Agrees.ok hat
          · exact Agrees.error _
          · exact Agrees.bind (takeContent_agrees hsize length hat)
              fun content offset rest hat => Agrees.ok hat
          · refine Agrees.bind (takeContent_agrees hsize length hat)
              fun content offset rest hat => ?_
            dsimp only
            cases fromUtf8 content with
            | none => exact Agrees.error _
            | some text => exact Agrees.ensure _ fun _ => Agrees.ok hat
          · rw [hlimit', ok_bind]
            refine Agrees.ensure _ fun hle => ?_
            rw [toInt_eq_ok (by omega) (by omega), ok_bind]
            exact Agrees.bind (parseMany_agrees (fun _ _ hat => ih hat) length hat)
              fun items offset rest hat => Agrees.ok hat
          · exact Agrees.error _

/-- No conversion, sum or subscript of the reader leaves its range. -/
theorem decode_eq {maximumBytes limit : ℕ} (hsize : data.length + 8 < 9223372036854775808)
    (hlimit : limit < 9223372036854775808) :
    decode data maximumBytes limit = (StrictCbor.decode data maximumBytes limit).mapError .thrown := by
  have hparse := parse_agrees hsize hlimit (StrictCbor.maximumDepth + 1) (At.zero data)
  have hguard : (data ≠ [] ∧ (data.length : ℤ) ≤ maximumBytes ∧ (0 : ℤ) < limit) ↔
      (data ≠ [] ∧ data.length ≤ maximumBytes ∧ 0 < limit) := by
    simp only [Nat.cast_le, Nat.cast_pos]
  rw [decode, StrictCbor.decode]
  by_cases hchecked : data ≠ [] ∧ data.length ≤ maximumBytes ∧ 0 < limit
  · rw [ensure_true _ hchecked, ensure_true _ (hguard.mpr hchecked), ok_bind, ok_bind]
    rcases hparse with ⟨failure, hx, hy⟩ | ⟨value, offset, rest, hx, hy, hat⟩
    · rw [hx, hy]
      rfl
    · have hend : (offset = data.length ∧ value.encode = data) ↔ (rest = [] ∧ value.encode = data) := by
        rw [hat.eq_nil_iff]
      rw [hx, hy, ok_bind, ok_bind]
      dsimp only
      by_cases hcanonical : rest = [] ∧ value.encode = data
      · rw [ensure_true _ (hend.mpr hcanonical), ensure_true _ hcanonical]
        rfl
      · rw [ensure_false _ (fun h => hcanonical (hend.mp h)), ensure_false _ hcanonical]
        rfl
  · rw [ensure_false _ hchecked, ensure_false _ (fun h => hchecked (hguard.mp h))]
    rfl

/-- The same within a limit that leaves `Int` some room, where longer data is refused at once. -/
theorem decode_eq_of_limit {maximumBytes limit : ℕ} (hbytes : maximumBytes + 8 < 9223372036854775808)
    (hlimit : limit < 9223372036854775808) :
    decode data maximumBytes limit = (StrictCbor.decode data maximumBytes limit).mapError .thrown := by
  by_cases hsize : data.length ≤ maximumBytes
  · exact decode_eq (by omega) hlimit
  · have hlong : ¬ (data ≠ [] ∧ data.length ≤ maximumBytes ∧ 0 < limit) := fun h => hsize h.2.1
    have hlong' : ¬ (data ≠ [] ∧ (data.length : ℤ) ≤ maximumBytes ∧ (0 : ℤ) < limit) :=
      fun h => hsize (Int.ofNat_le.mp h.2.1)
    rw [decode, StrictCbor.decode, ensure_false _ hlong, ensure_false _ hlong']
    rfl

end Agreement

end AgePluginPhone.Ios.StrictCborCursor
