/-
What is packed into bytes comes out again.

A number is read back from its bits, whatever follows them, and the bits of a packed list
are that list and a few zeros that fill up the last byte.  Both hold bit by bit, since a
number and its half differ by the lowest bit only.
-/
import HeapReel.Gif.Lzw.Expansion
import Mathlib.Algebra.Group.Nat.Defs

namespace HeapReel.Gif.Bits

/-! ### Numbers -/

/-- The lowest bit stands first, and those of the half after it. -/
theorem ofNat_succ (width n : Nat) :
    ofNat (width + 1) n = n.testBit 0 :: ofNat width (n / 2) := by
  rw [ofNat, List.range_succ_eq_map, List.map_cons, List.map_map]
  refine congrArg _ (List.map_congr_left fun i _ => ?_)
  exact Nat.testBit_succ n i

/-- **A number is read back from its bits, whatever follows them.** -/
theorem read?_ofNat_append {width n : Nat} (h : n < 2 ^ width) (rest : List Bool) :
    read? width (ofNat width n ++ rest) = some (n, rest) := by
  induction width generalizing n with
  | zero =>
      have hzero : n = 0 := by simpa using h
      rw [hzero]
      rfl
  | succ width ih =>
      have hhalf : n / 2 < 2 ^ width := by
        rw [Nat.pow_succ] at h
        omega
      have hbit : (n.testBit 0).toNat + 2 * (n / 2) = n := by
        rw [Nat.toNat_testBit, Nat.pow_zero, Nat.div_one]
        exact Nat.mod_add_div n 2
      rw [ofNat_succ, List.cons_append, read?, ih hhalf, Option.map_some]
      exact congrArg (fun m => some (m, rest)) hbit

theorem toNat_lt (bits : List Bool) : toNat bits < 2 ^ bits.length := by
  induction bits with
  | nil => exact Nat.one_pos
  | cons b bits ih =>
      have hb : b.toNat ≤ 1 := Bool.toNat_le b
      rw [toNat, List.length_cons, Nat.pow_succ]
      omega

/-- Bits are those of their number, up to zeros at the end. -/
theorem ofNat_toNat {width : Nat} {bits : List Bool} (h : bits.length ≤ width) :
    ofNat width (toNat bits) = bits ++ List.replicate (width - bits.length) false := by
  induction bits generalizing width with
  | nil =>
      rw [List.nil_append, List.length_nil, Nat.sub_zero, List.eq_replicate_iff]
      simp [ofNat, toNat]
  | cons b bits ih =>
      obtain ⟨width, rfl⟩ : ∃ w, width = w + 1 := Nat.exists_eq_add_one.mpr (by simp at h; omega)
      have hlow : (toNat (b :: bits)).testBit 0 = b := by
        rw [toNat, Nat.testBit_zero]
        cases b <;> simp [Nat.add_mod]
      have hhalf : toNat (b :: bits) / 2 = toNat bits := by
        have hb : b.toNat ≤ 1 := Bool.toNat_le b
        rw [toNat]
        omega
      rw [ofNat_succ, hlow, hhalf, ih (by simpa using h), List.length_cons,
        Nat.add_sub_add_right, List.cons_append]

/-! ### Bytes -/

theorem toNat_toByte {bits : List Bool} (h : bits.length ≤ 8) :
    (toByte bits).toNat = toNat bits := by
  have hlt : toNat bits < 2 ^ 8 :=
    Nat.lt_of_lt_of_le (toNat_lt bits) (Nat.pow_le_pow_right Nat.two_pos h)
  rw [toByte, UInt8.toNat_ofNat']
  exact Nat.mod_eq_of_lt hlt

@[simp] theorem ofBytes_append (a b : List UInt8) : ofBytes (a ++ b) = ofBytes a ++ ofBytes b :=
  List.flatMap_append

/-- One byte holds up to eight bits, and zeros after them. -/
theorem ofBytes_toByte {bits : List Bool} (h : bits.length ≤ 8) :
    ofBytes [toByte bits] = bits ++ List.replicate (8 - bits.length) false := by
  rw [ofBytes, List.flatMap_singleton, toNat_toByte h, ofNat_toNat h]

/-- Packing keeps the bits in their order. -/
theorem ofBytes_pack (done : Array UInt8) (bits : List Bool) :
    ∃ zeros, ofBytes (pack done bits).toList
      = ofBytes done.toList ++ bits ++ List.replicate zeros false := by
  fun_induction pack done bits with
  | case1 done b0 b1 b2 b3 b4 b5 b6 b7 rest ih =>
      obtain ⟨zeros, hzeros⟩ := ih
      refine ⟨zeros, ?_⟩
      have hbyte : ofBytes [toByte [b0, b1, b2, b3, b4, b5, b6, b7]]
          = [b0, b1, b2, b3, b4, b5, b6, b7] ++ List.replicate 0 false :=
        ofBytes_toByte (Nat.le_refl 8)
      rw [hzeros, Array.toList_push, ofBytes_append, hbyte]
      simp
  | case2 done => exact ⟨0, by simp⟩
  | case3 done last hlong _ =>
      -- the pattern leaves one to seven bits
      have hlength : last.length ≤ 8 := by
        rcases last with _ | ⟨_, _ | ⟨_, _ | ⟨_, _ | ⟨_, _ | ⟨_, _ | ⟨_, _ | ⟨_, _ | ⟨_, _⟩⟩⟩⟩⟩⟩⟩⟩
        all_goals first | exact absurd rfl (hlong _ _ _ _ _ _ _ _ _) | simp
      refine ⟨8 - last.length, ?_⟩
      rw [Array.toList_push, ofBytes_append, ofBytes_toByte hlength, List.append_assoc]

/-- **The bits of a packed list are that list, and zeros that fill up the last byte.** -/
theorem ofBytes_toBytes (bits : List Bool) :
    ∃ zeros, ofBytes (toBytes bits) = bits ++ List.replicate zeros false := by
  obtain ⟨zeros, h⟩ := ofBytes_pack #[] bits
  exact ⟨zeros, h⟩

end HeapReel.Gif.Bits
