import Mathlib
import Pcfg.Text.Lines
/-!
# Lines of an encoded text

A text made of lines that each end with a line feed, hold no other line feed and do not end with
a carriage return is cut back into the same lines once it is encoded as UTF-8
(`Text.lines_join`). A byte of the encoding of a character is that character when it is ASCII,
and at least `0x80` otherwise (`Text.toNat_of_mem_utf8EncodeChar`), so the line feed and the
carriage return only ever stand for themselves. Hence every line cut from the encoding of any
text is itself valid UTF-8 (`Text.lines_toUTF8`).
-/

namespace Pcfg

namespace Text

/-! ### Bytes of a text -/

theorem toList_loop (bs : ByteArray) (i : Nat) (r : List UInt8) :
    ByteArray.toList.loop bs i r = r.reverse ++ bs.data.toList.drop i := by
  fun_induction ByteArray.toList.loop bs i r with
  | case1 i r hi ih =>
      -- the byte at `i` moves from the rest of the array to the front of the reversed prefix
      have hlen : i < bs.data.toList.length := by simpa using hi
      rw [ih, List.drop_eq_getElem_cons hlen]
      simp [ByteArray.get!, hi]
  | case2 i r hi =>
      have hlen : bs.data.toList.length ≤ i := by simpa using hi
      simp [List.drop_eq_nil_of_le hlen]

theorem toList_byteArray (bs : ByteArray) : bs.toList = bs.data.toList := by
  simp [ByteArray.toList, toList_loop]

/-- The bytes of a text are the encodings of its characters, one after the other. -/
theorem toList_toByteArray (s : String) :
    s.toByteArray.toList = s.toList.flatMap String.utf8EncodeChar := by
  rw [toList_byteArray, ← String.utf8Encode_toList, List.utf8Encode]
  simp

/-- A byte of the encoding of a character is the character itself when it is ASCII, and at
least `0x80` otherwise. -/
theorem toNat_of_mem_utf8EncodeChar {c : Char} {b : UInt8} (hb : b ∈ String.utf8EncodeChar c) :
    (c.toNat ≤ 0x7f ∧ b.toNat = c.toNat) ∨ 0x80 ≤ b.toNat := by
  have hlt : c.toNat < 0x110000 := by
    have := c.valid
    simp only [Nat.isValidChar, UInt32.isValidChar] at this
    rw [Char.toNat]
    omega
  unfold String.utf8EncodeChar at hb
  dsimp only at hb
  simp only [Char.toNat] at hlt ⊢
  split_ifs at hb with h1 h2 h3 <;>
    simp only [List.mem_cons, List.not_mem_nil, or_false] at hb
  · subst hb
    left
    simp only [UInt8.toNat_ofNat']
    omega
  all_goals
    right
    rcases hb with rfl | rfl | rfl | rfl <;> simp only [UInt8.toNat_ofNat'] <;> omega

/-- An ASCII byte of the encoding of a character is that character. -/
theorem toNat_eq_of_mem_utf8EncodeChar {c : Char} {b : UInt8} (hb : b ∈ String.utf8EncodeChar c)
    (hlt : b.toNat < 0x80) : c.toNat = b.toNat := by
  rcases toNat_of_mem_utf8EncodeChar hb with ⟨-, hcn⟩ | hhigh
  · exact hcn.symm
  · omega

/-- The encoding of a text, read back. -/
theorem fromUTF8?_encode (s : String) :
    String.fromUTF8? ⟨(s.toList.flatMap String.utf8EncodeChar).toArray⟩ = some s := by
  have hbytes : (⟨(s.toList.flatMap String.utf8EncodeChar).toArray⟩ : ByteArray) = s.toByteArray := by
    apply ByteArray.ext
    rw [← String.utf8Encode_toList, List.utf8Encode, List.data_toByteArray]
  rw [hbytes, String.fromUTF8?, dif_pos s.isValidUTF8]
  rfl

/-! ### Cutting bytes into lines -/

theorem linesFrom_append_of_not_mem {u : List UInt8} (hu : (10 : UInt8) ∉ u) (v w : List UInt8) :
    linesFrom (u ++ v) w = linesFrom v (u.reverse ++ w) := by
  induction u generalizing w with
  | nil => rfl
  | cons b u ih =>
      have hb : b ≠ 10 := fun h => hu (h ▸ List.mem_cons_self ..)
      simp only [List.cons_append, linesFrom, if_neg hb]
      rw [ih (fun h => hu (List.mem_cons_of_mem _ h))]
      simp

theorem dropReturn_reverse {u : List UInt8} (h : u.getLast? ≠ some 13) : dropReturn u.reverse = u := by
  unfold dropReturn
  split
  · -- the line would end with a carriage return
    rename_i r hr
    exact absurd (by rw [← List.head?_reverse, hr]; rfl) h
  · exact List.reverse_reverse u

/-- Lines that each end with a line feed, hold no other one and do not end with a carriage
return are cut back into the same lines. -/
theorem byteLines_flatMap {us : List (List UInt8)}
    (h : ∀ u ∈ us, (10 : UInt8) ∉ u ∧ u.getLast? ≠ some 13) :
    byteLines (us.flatMap (· ++ [10])) = us := by
  unfold byteLines
  induction us with
  | nil => rfl
  | cons u us ih =>
      obtain ⟨hu, hlast⟩ := h u (by simp)
      rw [List.flatMap_cons, List.append_assoc, linesFrom_append_of_not_mem hu]
      simp only [List.singleton_append, linesFrom, if_pos, List.append_nil, dropReturn_reverse hlast]
      rw [ih fun v hv => h v (List.mem_cons_of_mem _ hv)]

/-! ### Lines of a text -/

/-- A line without a line feed is encoded without the byte `10`, and a line that does not end
with a carriage return is encoded without a last byte `13`. -/
theorem encode_line {l : String} (hn : '\n' ∉ l.toList) (hr : l.toList.getLast? ≠ some '\r') :
    (10 : UInt8) ∉ l.toList.flatMap String.utf8EncodeChar ∧
      (l.toList.flatMap String.utf8EncodeChar).getLast? ≠ some 13 := by
  constructor
  · intro h10
    obtain ⟨c, hc, hb⟩ := List.mem_flatMap.1 h10
    -- an ASCII byte `10` is the line feed itself
    have hlf : c = '\n' := by
      rw [← Char.ofNat_toNat c, toNat_eq_of_mem_utf8EncodeChar hb (by decide)]
      rfl
    exact hn (hlf ▸ hc)
  · obtain ⟨l', c, hl⟩ | hnil : (∃ l' c, l.toList = l' ++ [c]) ∨ l.toList = [] := by
      rcases List.eq_nil_or_concat l.toList with h | ⟨l', c, h⟩
      · exact .inr h
      · exact .inl ⟨l', c, by simpa using h⟩
    · have hc : c ≠ '\r' := by
        rintro rfl
        exact hr (by simp [hl])
      rw [hl, List.flatMap_append, List.flatMap_singleton]
      intro hlast
      have hmem : 13 ∈ String.utf8EncodeChar c := by
        rw [List.getLast?_append_of_ne_nil _ String.utf8EncodeChar_ne_nil] at hlast
        exact List.mem_of_getLast? hlast
      -- an ASCII byte `13` is the carriage return itself
      have hcr : c = '\r' := by
        rw [← Char.ofNat_toNat c, toNat_eq_of_mem_utf8EncodeChar hmem (by decide)]
        rfl
      exact hc hcr
    · simp [hnil]

/-- A text of lines, each ended by a line feed, with no other line feed and no carriage return
at its end, encoded as UTF-8 and cut into lines again, gives back its lines. -/
theorem lines_join {ls : List String}
    (h : ∀ l ∈ ls, '\n' ∉ l.toList ∧ l.toList.getLast? ≠ some '\r') :
    lines (String.join (ls.map (· ++ "\n"))).toUTF8 = ls.map some := by
  have hbytes : (String.join (ls.map (· ++ "\n"))).toUTF8.toList =
      (ls.map fun l => l.toList.flatMap String.utf8EncodeChar).flatMap (· ++ [10]) := by
    rw [String.toUTF8_eq_toByteArray, toList_toByteArray, String.toList_join]
    simp only [List.flatMap_map, List.flatMap_assoc, String.toList_append, List.flatMap_append]
    rfl
  rw [lines, hbytes, byteLines_flatMap, List.map_map]
  · exact List.map_congr_left fun l _ => fromUTF8?_encode l
  · intro u hu
    obtain ⟨l, hl, rfl⟩ := List.mem_map.1 hu
    exact encode_line (h l hl).1 (h l hl).2

/-! ### Every line of a text is text -/

/-- A line cut off before a line feed, from an open line that encodes characters, encodes
characters: the carriage return that `dropReturn` may remove is a whole character. -/
theorem dropReturn_encode {v : List Char} (hv : '\n' ∉ v) :
    ∃ w : List Char, dropReturn (v.flatMap String.utf8EncodeChar).reverse =
      w.flatMap String.utf8EncodeChar := by
  by_cases hr : v.getLast? = some '\r'
  · -- the line ends with a carriage return, encoded as the byte `13` alone
    obtain ⟨v', hv'⟩ : ∃ v', v = v' ++ ['\r'] := ⟨v.dropLast, (List.dropLast_append_getLast? _ hr).symm⟩
    subst hv'
    refine ⟨v', ?_⟩
    have h13 : String.utf8EncodeChar '\r' = [13] := by decide
    simp [List.flatMap_append, h13, dropReturn]
  · refine ⟨v, dropReturn_reverse ?_⟩
    have := (encode_line (l := String.ofList v) (by simpa using hv) (by simpa using hr)).2
    simpa using this

/-- Every line cut from the encoding of a text after an open line of characters encodes
characters. -/
theorem linesFrom_encode (cs : List Char) {v : List Char} (hv : '\n' ∉ v) :
    ∀ u ∈ linesFrom (cs.flatMap String.utf8EncodeChar) (v.flatMap String.utf8EncodeChar).reverse,
      ∃ w : List Char, u = w.flatMap String.utf8EncodeChar := by
  induction cs generalizing v with
  | nil =>
      intro u hu
      simp only [List.flatMap_nil, linesFrom] at hu
      split_ifs at hu
      · simp at hu
      · exact ⟨v, by simpa using hu⟩
  | cons c cs ih =>
      intro u hu
      rw [List.flatMap_cons] at hu
      by_cases hc : c = '\n'
      · -- a line feed ends the open line
        subst hc
        have h10 : String.utf8EncodeChar '\n' = [10] := by decide
        rw [h10, List.singleton_append, linesFrom, if_pos rfl] at hu
        rcases List.mem_cons.1 hu with rfl | hu
        · exact dropReturn_encode hv
        · exact ih (v := []) (by simp) u (by simpa using hu)
      · -- any other character extends it, and none of its bytes is a line feed
        have h10 : (10 : UInt8) ∉ String.utf8EncodeChar c := by
          intro h
          apply hc
          rw [← Char.ofNat_toNat c, toNat_eq_of_mem_utf8EncodeChar h (by decide)]
          rfl
        rw [linesFrom_append_of_not_mem h10] at hu
        have hopen : (String.utf8EncodeChar c).reverse ++ (v.flatMap String.utf8EncodeChar).reverse =
            ((v ++ [c]).flatMap String.utf8EncodeChar).reverse := by simp
        rw [hopen] at hu
        exact ih (v := v ++ [c]) (by simp [hv, Ne.symm hc]) u hu

/-- Every line of a text is valid UTF-8. -/
theorem lines_toUTF8 (s : String) : ∃ ls : List String, lines s.toUTF8 = ls.map some := by
  have hall : ∀ x ∈ lines s.toUTF8, x.isSome := by
    intro x hx
    rw [lines, String.toUTF8_eq_toByteArray, toList_toByteArray] at hx
    obtain ⟨u, hu, rfl⟩ := List.mem_map.1 hx
    obtain ⟨w, rfl⟩ := linesFrom_encode s.toList (v := []) (by simp) u (by simpa [byteLines] using hu)
    have h := fromUTF8?_encode (String.ofList w)
    rw [String.toList_ofList] at h
    rw [h]
    rfl
  refine ⟨(lines s.toUTF8).filterMap id, ?_⟩
  rw [List.map_filterMap_some_eq_filter_map_isSome, List.map_id, List.filter_eq_self.2 hall]

end Text

end Pcfg
