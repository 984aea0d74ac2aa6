import Mathlib
import Pcfg.Proofs.Text.Lines
/-!
# The order of texts is the order of their bytes

Texts are ordered character by character, by code point. UTF-8 keeps that order: a character of
smaller code point is encoded by a smaller byte string, and no character's encoding is a prefix
of another's (`Text.utf8EncodeChar_lt`). So comparing two texts is comparing their UTF-8 bytes
lexicographically (`Text.lt_iff_bytes_lt`): the tags of a grammar, kept in the order of texts,
are in the order of their bytes.
-/

namespace Pcfg

namespace Text

/-! ### One character -/

theorem val_toNat_lt (c : Char) : c.val.toNat < 0x110000 := by
  have := c.valid
  simp only [Nat.isValidChar, UInt32.isValidChar] at this
  omega

-- The bytes of the encoding that `UInt8.ofNat` leaves as they are.
theorem byte_cont (x : ℕ) : (x % 64 + 128) % 2 ^ 8 = x % 64 + 128 := by omega

theorem byte_lead_two (x : ℕ) : (x % 32 + 192) % 2 ^ 8 = x % 32 + 192 := by omega

theorem byte_lead_three (x : ℕ) : (x % 16 + 224) % 2 ^ 8 = x % 16 + 224 := by omega

/-- A character of smaller code point has a smaller encoding, and not one that is a prefix of the
other. -/
theorem utf8EncodeChar_lt {c d : Char} (h : c < d) :
    String.utf8EncodeChar c < String.utf8EncodeChar d ∧
      ¬ String.utf8EncodeChar c <+: String.utf8EncodeChar d := by
  have hc := val_toNat_lt c
  have hd := val_toNat_lt d
  have hcd : c.val.toNat < d.val.toNat := UInt32.lt_iff_toNat_lt.1 h
  -- the six-bit groups of a code point, linked for omega, and the leading byte of four
  have hc1 : c.val.toNat / 64 / 64 = c.val.toNat / 4096 := by omega
  have hc2 : c.val.toNat / 4096 / 64 = c.val.toNat / 262144 := by omega
  have hd1 : d.val.toNat / 64 / 64 = d.val.toNat / 4096 := by omega
  have hd2 : d.val.toNat / 4096 / 64 = d.val.toNat / 262144 := by omega
  have hc4 : (c.val.toNat / 262144 % 8 + 240) % 2 ^ 8 = c.val.toNat / 262144 + 240 := by omega
  have hd4 : (d.val.toNat / 262144 % 8 + 240) % 2 ^ 8 = d.val.toNat / 262144 + 240 := by omega
  unfold String.utf8EncodeChar
  dsimp only
  -- one case for each length of the two encodings, each a comparison of bytes
  split_ifs <;>
    simp only [List.cons_lt_cons_iff, List.nil_lt_cons, List.not_lt_nil, List.cons_prefix_cons,
      List.nil_prefix, List.prefix_nil, ← UInt8.toNat_inj, UInt8.lt_iff_toNat_lt,
      UInt8.toNat_ofNat', reduceCtorEq, byte_cont, byte_lead_two, byte_lead_three, hc4, hd4] <;>
    omega

/-! ### Strings of bytes -/

/-- A list of bytes below another and not a prefix of it stays below it whatever follows
either. -/
theorem append_lt_append_of_diverge {u v : List UInt8} (h : u < v) (hp : ¬ u <+: v)
    (x y : List UInt8) : u ++ x < v ++ y := by
  induction u generalizing v with
  | nil => exact absurd (List.nil_prefix) hp
  | cons a u ih =>
      cases v with
      | nil => exact absurd h (List.not_lt_nil _)
      | cons b v =>
          rcases List.cons_lt_cons_iff.1 h with hab | ⟨rfl, huv⟩
          · exact List.cons_lt_cons_iff.2 (.inl hab)
          · exact List.cons_lt_cons_iff.2
              (.inr ⟨rfl, ih huv fun hpre => hp (List.cons_prefix_cons.2 ⟨rfl, hpre⟩)⟩)

/-- A common prefix does not decide the order. -/
theorem append_lt_append_left_iff (p : List UInt8) {x y : List UInt8} :
    p ++ x < p ++ y ↔ x < y := by
  induction p with
  | nil => rfl
  | cons a p ih => simp [ih]

/-! ### Texts -/

/-- Encoding character by character keeps the order of lists of characters. -/
theorem flatMap_utf8EncodeChar_lt_iff (l l' : List Char) :
    l.flatMap String.utf8EncodeChar < l'.flatMap String.utf8EncodeChar ↔ l < l' := by
  induction l generalizing l' with
  | nil =>
      cases l' with
      | nil => simp [List.lt_irrefl]
      | cons d l' =>
          obtain ⟨b, bs, hb⟩ := List.exists_cons_of_ne_nil (@String.utf8EncodeChar_ne_nil d)
          simp [hb, List.nil_lt_cons]
  | cons c l ih =>
      cases l' with
      | nil => simp [List.not_lt_nil]
      | cons d l' =>
          simp only [List.flatMap_cons]
          rcases lt_trichotomy c d with hcd | rfl | hdc
          · -- the first different characters decide, and so do their first different bytes
            obtain ⟨hlt, hpre⟩ := utf8EncodeChar_lt hcd
            exact iff_of_true (append_lt_append_of_diverge hlt hpre _ _)
              (List.cons_lt_cons_iff.2 (.inl hcd))
          · rw [append_lt_append_left_iff, ih, List.cons_lt_cons_iff]
            simp
          · obtain ⟨hlt, hpre⟩ := utf8EncodeChar_lt hdc
            refine iff_of_false (List.lt_asymm (append_lt_append_of_diverge hlt hpre _ _)) ?_
            rw [List.cons_lt_cons_iff]
            rintro (hcd | ⟨rfl, -⟩)
            · exact lt_asymm hcd hdc
            · exact lt_irrefl _ hdc

/-- Texts are in the order of their UTF-8 bytes. -/
theorem lt_iff_bytes_lt (s t : String) : s < t ↔ s.toByteArray.toList < t.toByteArray.toList := by
  rw [toList_toByteArray, toList_toByteArray, flatMap_utf8EncodeChar_lt_iff]
  rfl

end Text

end Pcfg
