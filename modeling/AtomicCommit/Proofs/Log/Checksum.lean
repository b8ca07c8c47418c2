import AtomicCommit.Log.Frame
import Mathlib.Algebra.Group.Nat.Even
import Mathlib.Data.List.Basic

/-!
# What a checksum notices

Shifting a bit out of the register is linear in exclusive or, and nothing but an empty register is
shifted to an empty one, since the polynomial has its highest bit set and what is shifted has not.
So two registers that differ go on to differ, whatever is fed to both; and up to four bytes, which
fit the register side by side, leave it different whenever they are.

## Main definitions

* `Altered`: bytes are changed, and only between two offsets.

## Main results

* `Checksum.shifts_injective`, `Checksum.foldl_feed_injective`: no difference is ever lost.
* `Checksum.foldl_feed_eq`: up to four bytes are fed at once, as one number.
* `Checksum.ofBytes_ne_of_altered`: bytes that are changed in four consecutive places at most have
  another checksum.
-/

namespace AtomicCommit

/-! ## Changed bytes -/

/-- The bytes are changed, and only from one offset on and before another. -/
structure Altered (bytes changed : List UInt8) (start stop : ℕ) : Prop where
  /-- There are as many. -/
  length : changed.length = bytes.length
  /-- At least one is another. -/
  differs : changed ≠ bytes
  /-- All others are as they were. -/
  outside : ∀ i, i < start ∨ stop ≤ i → changed[i]? = bytes[i]?

namespace Altered

variable {x y changed : List UInt8} {start stop : ℕ}

/-- A change that begins behind the first part is one of the second. -/
theorem append_left (h : Altered (x ++ y) changed start stop) (behind : x.length ≤ start) :
    ∃ y', changed = x ++ y' ∧ Altered y y' (start - x.length) (stop - x.length) := by
  have first : changed.take x.length = x := by
    apply List.ext_getElem?
    intro i
    by_cases inside : i < x.length
    · rw [List.getElem?_take_of_lt inside, h.outside i (.inl (by omega)),
        List.getElem?_append_left inside]
    · rw [List.getElem?_eq_none (by rw [List.length_take]; omega),
        List.getElem?_eq_none (by omega)]
  have split : changed = x ++ changed.drop x.length := by
    conv_lhs => rw [← List.take_append_drop x.length changed, first]
  refine ⟨_, split, ?_, ?_, ?_⟩
  · rw [List.length_drop, h.length, List.length_append]
    omega
  · intro same
    rw [same] at split
    exact h.differs split
  · intro i away
    have outside := h.outside (x.length + i) (by omega)
    rwa [List.getElem?_append_right (by omega), Nat.add_sub_cancel_left, ← List.getElem?_drop]
      at outside

/-- A change that ends before the second part is one of the first. -/
theorem append_right (h : Altered (x ++ y) changed start stop) (before : stop ≤ x.length) :
    ∃ x', changed = x' ++ y ∧ Altered x x' start stop := by
  have second : changed.drop x.length = y := by
    apply List.ext_getElem?
    intro i
    rw [List.getElem?_drop, h.outside _ (.inr (by omega)), List.getElem?_append_right (by omega),
      Nat.add_sub_cancel_left]
  have split : changed = changed.take x.length ++ y := by
    conv_lhs => rw [← List.take_append_drop x.length changed, second]
  refine ⟨_, split, ?_, ?_, ?_⟩
  · have length := h.length
    rw [List.length_append] at length
    rw [List.length_take]
    omega
  · intro same
    rw [same] at split
    exact h.differs split
  · intro i away
    by_cases inside : i < x.length
    · rw [List.getElem?_take_of_lt inside, h.outside i away, List.getElem?_append_left inside]
    · rw [List.getElem?_eq_none (by rw [List.length_take]; omega),
        List.getElem?_eq_none (by omega)]

end Altered

/-! ## Numbers of bytes -/

namespace Frame

theorem number_lt (bytes : List UInt8) : number bytes < 256 ^ bytes.length := by
  induction bytes with
  | nil => simp [number]
  | cons b bytes ih =>
    have small : b.toNat < 256 := b.toNat_lt
    rw [number, List.length_cons, Nat.pow_succ]
    omega

/-- As many bytes with the same number are the same. -/
theorem eq_of_number_eq {a b : List UInt8} (length : a.length = b.length)
    (same : number a = number b) : a = b := by
  induction a generalizing b with
  | nil => exact (List.length_eq_zero_iff.1 length.symm).symm
  | cons x a ih =>
    cases b with
    | nil => simp at length
    | cons y b =>
      have hx : x.toNat < 256 := x.toNat_lt
      have hy : y.toNat < 256 := y.toNat_lt
      simp only [number] at same
      have first : x = y := UInt8.toNat_inj.1 (by omega)
      rw [first, ih (by simpa using length) (by omega)]

end Frame

namespace Checksum

/-! ## Shifts -/

/-- What a shift adds to the register for the bit that is lost. -/
def carry (register : BitVec 32) : BitVec 32 := if register.getLsbD 0 then polynomial else 0#32

theorem shift_eq (register : BitVec 32) : shift register = register >>> 1 ^^^ carry register := by
  unfold shift carry
  split
  · rfl
  · rw [BitVec.xor_zero]

theorem carry_xor (a b : BitVec 32) : carry (a ^^^ b) = carry a ^^^ carry b := by
  unfold carry
  rw [BitVec.getLsbD_xor]
  cases a.getLsbD 0 <;> cases b.getLsbD 0 <;> simp

theorem shift_xor (a b : BitVec 32) : shift (a ^^^ b) = shift a ^^^ shift b := by
  rw [shift_eq, shift_eq, shift_eq, carry_xor, BitVec.ushiftRight_xor_distrib]
  ac_rfl

theorem shifts_xor (n : ℕ) (a b : BitVec 32) : shifts n (a ^^^ b) = shifts n a ^^^ shifts n b := by
  induction n generalizing a b with
  | zero => rfl
  | succ n ih => rw [shifts, shift_xor, ih, shifts, shifts]

theorem shifts_add (m n : ℕ) (register : BitVec 32) :
    shifts (m + n) register = shifts n (shifts m register) := by
  induction m generalizing register with
  | zero => rw [Nat.zero_add, shifts]
  | succ m ih => rw [Nat.add_right_comm, shifts, ih, shifts]

/-- The highest bit of what is shifted tells the bit that was lost. -/
theorem getLsbD_shift (register : BitVec 32) :
    (shift register).getLsbD 31 = register.getLsbD 0 := by
  rw [shift_eq, BitVec.getLsbD_xor, BitVec.getLsbD_ushiftRight,
    BitVec.getLsbD_of_ge register _ (by decide), Bool.false_xor, carry]
  cases register.getLsbD 0 <;> decide

theorem eq_zero_of_shift_eq_zero {register : BitVec 32} (h : shift register = 0#32) :
    register = 0#32 := by
  have low : register.getLsbD 0 = false := by rw [← getLsbD_shift, h, BitVec.getLsbD_zero]
  have high : register >>> 1 = 0#32 := by
    rw [shift_eq, carry, low] at h
    simpa using h
  apply BitVec.eq_of_getLsbD_eq
  intro i _
  cases i with
  | zero => rw [low, BitVec.getLsbD_zero]
  | succ i =>
    have bit := congrArg (·.getLsbD i) high
    simpa [Nat.add_comm] using bit

theorem shift_injective : Function.Injective shift := by
  intro a b same
  apply BitVec.xor_eq_zero_iff.1
  apply eq_zero_of_shift_eq_zero
  rw [shift_xor, same, BitVec.xor_self]

theorem shifts_injective (n : ℕ) : Function.Injective (shifts n) := by
  induction n with
  | zero => exact Function.injective_id
  | succ n ih => exact ih.comp shift_injective

/-! ## Bytes -/

theorem feed_injective (byte : UInt8) : Function.Injective (feed · byte) := by
  intro a b same
  exact (BitVec.xor_left_inj _).1 (shifts_injective 8 same)

/-- Registers that differ go on to differ, whatever is fed to both. -/
theorem foldl_feed_injective (bytes : List UInt8) : Function.Injective (bytes.foldl feed) := by
  induction bytes with
  | nil => exact Function.injective_id
  | cons b bytes ih => exact ih.comp (feed_injective b)

/-- A number whose lowest bit is not set is halved. -/
theorem shift_ofNat_two_mul {x : ℕ} (small : 2 * x < 2 ^ 32) :
    shift (BitVec.ofNat 32 (2 * x)) = BitVec.ofNat 32 x := by
  have low : (BitVec.ofNat 32 (2 * x)).getLsbD 0 = false := by
    rw [BitVec.getLsbD_ofNat, Nat.testBit_zero, Nat.mul_mod_right]
    rfl
  rw [shift_eq, carry, low, if_neg Bool.false_ne_true, BitVec.xor_zero]
  apply BitVec.eq_of_toNat_eq
  rw [BitVec.toNat_ushiftRight, BitVec.toNat_ofNat, BitVec.toNat_ofNat, Nat.shiftRight_eq_div_pow]
  omega

theorem shifts_ofNat_mul {k x : ℕ} (small : 2 ^ k * x < 2 ^ 32) :
    shifts k (BitVec.ofNat 32 (2 ^ k * x)) = BitVec.ofNat 32 x := by
  induction k with
  | zero => rw [shifts, Nat.pow_zero, Nat.one_mul]
  | succ k ih =>
    have twice : 2 ^ (k + 1) * x = 2 * (2 ^ k * x) := by rw [Nat.pow_succ]; ac_rfl
    rw [twice] at small
    rw [shifts, twice, shift_ofNat_two_mul small, ih (by omega)]

/-- A byte and the number of those above it do not overlap. -/
theorem ofNat_add_mul (byte : UInt8) (x : ℕ) :
    BitVec.ofNat 32 (byte.toNat + 256 * x) =
      byte.toBitVec.setWidth 32 ^^^ BitVec.ofNat 32 (2 ^ 8 * x) := by
  have small : byte.toNat < 2 ^ 8 := byte.toNat_lt
  apply BitVec.eq_of_getLsbD_eq
  intro i inside
  rw [BitVec.getLsbD_xor, BitVec.getLsbD_setWidth, BitVec.getLsbD_ofNat, BitVec.getLsbD_ofNat,
    Nat.add_comm, Nat.testBit_two_pow_mul_add x small, Nat.testBit_two_pow_mul]
  by_cases low : i < 8
  · simp [inside, low, Nat.not_le.2 low, BitVec.getLsbD]
  · simp [inside, low, Nat.le_of_not_lt low]

/-- Up to four bytes are fed at once, as one number. -/
theorem foldl_feed_eq {bytes : List UInt8} (few : bytes.length ≤ 4) (register : BitVec 32) :
    bytes.foldl feed register =
      shifts (8 * bytes.length) (register ^^^ BitVec.ofNat 32 (Frame.number bytes)) := by
  induction bytes generalizing register with
  | nil => simp [shifts, Frame.number]
  | cons b bytes ih =>
    rw [List.length_cons] at few
    have above : 2 ^ 8 * Frame.number bytes < 2 ^ 32 := by
      have bound : 256 ^ bytes.length ≤ 256 ^ 3 := Nat.pow_le_pow_right (by decide) (by omega)
      have := Frame.number_lt bytes
      omega
    -- The bytes above the first wait while it is shifted out, and then take its place.
    have moved : shifts 8 (register ^^^ BitVec.ofNat 32 (Frame.number (b :: bytes))) =
        feed register b ^^^ BitVec.ofNat 32 (Frame.number bytes) := by
      rw [Frame.number, ofNat_add_mul, ← BitVec.xor_assoc, shifts_xor, shifts_ofNat_mul above, feed]
    rw [List.foldl_cons, ih (by omega), ← moved, ← shifts_add, List.length_cons, Nat.mul_succ,
      Nat.add_comm]

/-- Four bytes at most that differ leave the register different, whatever is fed to it after. -/
theorem ofBytes_append_ne {a b : List UInt8} (length : a.length = b.length) (few : a.length ≤ 4)
    (differ : a ≠ b) (before after : List UInt8) :
    ofBytes (before ++ (a ++ after)) ≠ ofBytes (before ++ (b ++ after)) := by
  intro same
  have same := BitVec.not_inj.1 same
  simp only [List.foldl_append] at same
  have same := foldl_feed_injective after same
  generalize before.foldl feed (BitVec.allOnes 32) = register at same
  rw [foldl_feed_eq few, foldl_feed_eq (by omega), ← length] at same
  have same := (BitVec.xor_right_inj _).1 (shifts_injective _ same)
  -- Both numbers fit the register.
  have bound : 256 ^ a.length ≤ 256 ^ 4 := Nat.pow_le_pow_right (by decide) few
  have ha := Frame.number_lt a
  have hb := Frame.number_lt b
  rw [← length] at hb
  have same := congrArg BitVec.toNat same
  rw [BitVec.toNat_ofNat, BitVec.toNat_ofNat, Nat.mod_eq_of_lt (by omega),
    Nat.mod_eq_of_lt (by omega)] at same
  exact differ (Frame.eq_of_number_eq length same)

/-- **A checksum notices every change of four consecutive bytes at most.** -/
theorem ofBytes_ne_of_altered {bytes changed : List UInt8} {start stop : ℕ}
    (h : Altered bytes changed start stop) (inside : stop ≤ bytes.length)
    (few : stop ≤ start + 4) : ofBytes changed ≠ ofBytes bytes := by
  have order : start ≤ stop := by
    by_contra reversed
    exact h.differs (List.ext_getElem? fun i => h.outside i (by omega))
  -- What is before the change, what is changed, and what comes after.
  obtain ⟨x, a, y, rfl, hx, ha⟩ : ∃ x a y, bytes = x ++ (a ++ y) ∧ x.length = start ∧
      a.length = stop - start := by
    refine ⟨bytes.take start, (bytes.drop start).take (stop - start), bytes.drop stop, ?_, ?_, ?_⟩
    · have last : bytes.drop stop = (bytes.drop start).drop (stop - start) := by
        rw [List.drop_drop, Nat.add_sub_cancel' order]
      rw [last, List.take_append_drop, List.take_append_drop]
    · rw [List.length_take]
      omega
    · rw [List.length_take, List.length_drop]
      omega
  obtain ⟨z, rfl, behind⟩ := h.append_left (by omega)
  obtain ⟨b, rfl, middle⟩ := behind.append_right (by omega)
  have length := middle.length
  exact ofBytes_append_ne length (by omega) middle.differs x y

end Checksum

end AtomicCommit
