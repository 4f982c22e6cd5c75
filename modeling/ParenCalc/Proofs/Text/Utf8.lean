import ParenCalc.Proofs.Text.Surrogates
import ParenCalc.Text.Utf8
/-!
# What UTF-8 can carry

Bytes decode to scalar values only, never to a half of a surrogate pair.  A text of ASCII is encoded
with one byte for each of its code points, and decoding the bytes gives it back.
-/
set_option autoImplicit false

namespace ParenCalc

namespace Utf8

/-! ## Scalar values -/

/-- The code point before the rest of a text is decoded to a scalar value. -/
theorem scalar_of_map (n : Nat) (outside : n < 0xD800 ∨ 0xDFFF < n) (rest : Except Refusal Text)
    (later : ∀ t, rest = .ok t → t.Scalar) (t : Text)
    (run : rest.map (CodePoint.ofNat n :: ·) = .ok t) : t.Scalar := by
  cases rest with
  | error refusal => simp [Except.map] at run
  | ok more =>
      rw [← Except.ok.inj run]
      exact Text.scalar_cons _ more (CodePoint.isSurrogate_ofNat n outside) (later more rfl)

theorem scalar_of_decodeFrom (position : Nat) (bytes : List UInt8) :
    ∀ t, decodeFrom position bytes = .ok t → t.Scalar := by
  fun_induction decodeFrom position bytes with
  | case1 position =>
      intro t run
      rw [← Except.ok.inj run]
      exact Text.scalar_nil
  | case2 position a rest ascii ih =>
      intro t run
      exact scalar_of_map _ (by omega) _ ih t run
  | case5 position a _ _ _ b rest follows ih =>
      intro t run
      exact scalar_of_map _ (by omega) _ ih t run
  | case9 position a _ _ _ _ b follows c rest continues ih =>
      intro t run
      refine scalar_of_map _ ?_ _ ih t run
      simp only [followsThree, isContinuation, Bool.and_eq_true, decide_eq_true_eq] at follows
      split at follows
      all_goals simp only [bne_iff_ne, ne_eq] at follows
      all_goals omega
  | case15 position a _ _ _ _ _ b follows c continuesFirst d rest continues ih =>
      intro t run
      refine scalar_of_map _ ?_ _ ih t run
      simp only [followsFour, isContinuation, Bool.and_eq_true, decide_eq_true_eq] at follows
      split at follows
      all_goals simp only [bne_iff_ne, ne_eq] at follows
      all_goals omega
  | _ =>
      intro t run
      simp_all

theorem scalar_of_decode (bytes : List UInt8) (t : Text) (run : decode bytes = .ok t) : t.Scalar :=
  scalar_of_decodeFrom 0 bytes t run

/-! ## ASCII -/

theorem encode_append (t rest : Text) : encode (t ++ rest) = encode t ++ encode rest :=
  List.flatMap_append

theorem encode_of_ascii (t : Text) (ascii : t.Ascii) :
    encode t = t.map fun c => UInt8.ofNat c.val := by
  induction t with
  | nil => rfl
  | cons c rest ih =>
      have low : c.val < 0x80 := ascii c List.mem_cons_self
      have later := ih fun d member => ascii d (List.mem_cons_of_mem c member)
      rw [encode, List.flatMap_cons, ← encode, later, encodeOne, if_pos low]
      rfl

theorem decodeFrom_ascii (position : Nat) (t : Text) (ascii : t.Ascii) :
    decodeFrom position (t.map fun c => UInt8.ofNat c.val) = .ok t := by
  induction t generalizing position with
  | nil => rfl
  | cons c rest ih =>
      have low : c.val < 0x80 := ascii c List.mem_cons_self
      have later := ih (position + 1) fun d member => ascii d (List.mem_cons_of_mem c member)
      have byte : (UInt8.ofNat c.val).toNat = c.val := by
        rw [UInt8.toNat_ofNat']
        omega
      have same : CodePoint.ofNat c.val = c := by
        rw [CodePoint.ofNat, dif_pos c.val_lt]
      rw [List.map_cons]
      unfold decodeFrom
      simp only [byte, later, if_pos low, Except.map, same]

theorem decode_encode_of_ascii (t : Text) (ascii : t.Ascii) : decode (encode t) = .ok t := by
  rw [encode_of_ascii t ascii]
  exact decodeFrom_ascii 0 t ascii

end Utf8

end ParenCalc
