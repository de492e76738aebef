import Mathlib.Tactic.SplitIfs
import QueryBoard.Text.Utf8

/-!
# Texts are read from their bytes

Strict reading gives back a text from its bytes, and reads no other bytes as that text.  What comes
first among bytes is decided by the first of them: the number of bytes that follow it, and the range
of the next one.
-/

set_option autoImplicit false

namespace QueryBoard.Text.Utf8

/-! ## The bytes of a text -/

theorem toList_loop (b : ByteArray) (i : Nat) (acc : List UInt8) :
    ByteArray.toList.loop b i acc = acc.reverse ++ b.data.toList.drop i := by
  induction left : b.size - i generalizing i acc with
  | zero =>
      have outside : ¬ i < b.size := by omega
      rw [ByteArray.toList.loop, if_neg outside, List.drop_eq_nil_of_le (by simp; omega),
        List.append_nil]
  | succ n ih =>
      have inside : i < b.size := by omega
      have member : i < b.data.toList.length := by simpa using inside
      rw [ByteArray.toList.loop, if_pos inside, ih (i + 1) _ (by omega),
        List.drop_eq_getElem_cons member]
      simp [ByteArray.get!, inside]

theorem toList_toUTF8 (s : String) : s.toUTF8.toList = s.toList.flatMap String.utf8EncodeChar := by
  have data : s.toUTF8.data.toList = s.toList.flatMap String.utf8EncodeChar := by
    rw [String.toUTF8_eq_toByteArray, ← String.utf8Encode_toList, List.utf8Encode,
      List.toList_data_toByteArray]
  rw [ByteArray.toList, toList_loop, List.reverse_nil, List.nil_append, List.drop_zero, data]

theorem toNat_ofNat {v : Nat} (valid : v < 0xD800 ∨ 0xDFFF < v ∧ v < 0x110000) :
    (Char.ofNat v).toNat = v := by
  rw [Char.ofNat, dif_pos valid]
  rfl

theorem encode_one {c : Char} (small : c.toNat ≤ 127) :
    String.utf8EncodeChar c = [UInt8.ofNat c.toNat] :=
  if_pos small

theorem encode_two {c : Char} (low : 127 < c.toNat) (high : c.toNat ≤ 2047) :
    String.utf8EncodeChar c =
      [UInt8.ofNat (c.toNat / 64 % 32 + 192), UInt8.ofNat (c.toNat % 64 + 128)] :=
  (if_neg (Nat.not_le.mpr low)).trans (if_pos high)

theorem encode_three {c : Char} (low : 2047 < c.toNat) (high : c.toNat ≤ 65535) :
    String.utf8EncodeChar c =
      [UInt8.ofNat (c.toNat / 4096 % 16 + 224), UInt8.ofNat (c.toNat / 64 % 64 + 128),
        UInt8.ofNat (c.toNat % 64 + 128)] :=
  (if_neg (Nat.not_le.mpr (Nat.lt_trans (by decide) low))).trans <|
    (if_neg (Nat.not_le.mpr low)).trans (if_pos high)

theorem encode_four {c : Char} (low : 65535 < c.toNat) :
    String.utf8EncodeChar c =
      [UInt8.ofNat (c.toNat / 262144 % 8 + 240), UInt8.ofNat (c.toNat / 4096 % 64 + 128),
        UInt8.ofNat (c.toNat / 64 % 64 + 128), UInt8.ofNat (c.toNat % 64 + 128)] :=
  (if_neg (Nat.not_le.mpr (Nat.lt_trans (by decide) low))).trans <|
    (if_neg (Nat.not_le.mpr (Nat.lt_trans (by decide) low))).trans (if_neg (Nat.not_le.mpr low))

/-- The bytes of a character that has several are not those of another. -/
theorem le_of_mem_encode {c : Char} (large : 127 < c.toNat) {b : UInt8}
    (member : b ∈ String.utf8EncodeChar c) : 0x80 ≤ b.toNat := by
  by_cases two : c.toNat ≤ 2047
  · rw [encode_two large two] at member
    simp only [List.mem_cons, List.not_mem_nil, or_false] at member
    obtain rfl | rfl := member <;> rw [UInt8.toNat_ofNat'] <;> omega
  · by_cases three : c.toNat ≤ 65535
    · rw [encode_three (Nat.not_le.mp two) three] at member
      simp only [List.mem_cons, List.not_mem_nil, or_false] at member
      obtain rfl | rfl | rfl := member <;> rw [UInt8.toNat_ofNat'] <;> omega
    · rw [encode_four (Nat.not_le.mp three)] at member
      simp only [List.mem_cons, List.not_mem_nil, or_false] at member
      obtain rfl | rfl | rfl | rfl := member <;> rw [UInt8.toNat_ofNat'] <;> omega

/-- A byte of ASCII is found where its character stands. -/
theorem mem_toUTF8_iff {s : String} {b : UInt8} (ascii : b.toNat ≤ 127) :
    b ∈ s.toUTF8.toList ↔ Char.ofNat b.toNat ∈ s.toList := by
  rw [toList_toUTF8, List.mem_flatMap]
  constructor
  · rintro ⟨c, member, byte⟩
    have small : c.toNat ≤ 127 := Nat.le_of_not_lt fun large =>
      absurd (le_of_mem_encode large byte) (by omega)
    rw [encode_one small, List.mem_singleton] at byte
    rw [byte, UInt8.toNat_ofNat', Nat.mod_eq_of_lt (by omega), Char.ofNat_toNat]
    exact member
  · intro member
    refine ⟨_, member, ?_⟩
    have same := toNat_ofNat (v := b.toNat) (.inl (by omega))
    rw [encode_one (by omega), same, UInt8.ofNat_toNat]
    exact List.mem_cons_self

theorem ofNat_eq {n : Nat} {b : UInt8} (same : n = b.toNat) : UInt8.ofNat n = b := by
  rw [same, UInt8.ofNat_toNat]

/-! ## One character -/

theorem takeTail_zero_iff {low high acc v : Nat} {bytes rest : List UInt8} :
    takeTail 0 low high acc bytes = (some v, rest) ↔ v = acc ∧ bytes = rest := by
  rw [takeTail, Prod.mk.injEq, Option.some.injEq, eq_comm]

theorem takeTail_succ_iff {count low high acc v : Nat} {bytes rest : List UInt8} :
    takeTail (count + 1) low high acc bytes = (some v, rest) ↔ ∃ b bytes', bytes = b :: bytes' ∧
      low ≤ b.toNat ∧ b.toNat ≤ high ∧
        takeTail count 0x80 0xBF (acc * 64 + b.toNat % 64) bytes' = (some v, rest) := by
  cases bytes with
  | nil => simp [takeTail]
  | cons b bytes =>
      rw [takeTail]
      split
      · next inside =>
          refine ⟨fun taken => ⟨b, bytes, rfl, inside.1, inside.2, taken⟩, ?_⟩
          rintro ⟨_, _, same, _, _, taken⟩
          cases same
          exact taken
      · next outside =>
          refine ⟨nofun, ?_⟩
          rintro ⟨_, _, same, low, high, _⟩
          cases same
          exact absurd ⟨low, high⟩ outside

/-- The first byte of two, of three or of four. -/
theorem continuation?_eq_some_iff {n count low high : Nat} :
    continuation? n = some (count, low, high) ↔
      count = 1 ∧ 0xC2 ≤ n ∧ n ≤ 0xDF ∧ low = 0x80 ∧ high = 0xBF ∨
      count = 2 ∧ 0xE0 ≤ n ∧ n ≤ 0xEF ∧ low = (if n = 0xE0 then 0xA0 else 0x80) ∧
        high = (if n = 0xED then 0x9F else 0xBF) ∨
      count = 3 ∧ 0xF0 ≤ n ∧ n ≤ 0xF4 ∧ low = (if n = 0xF0 then 0x90 else 0x80) ∧
        high = (if n = 0xF4 then 0x8F else 0xBF) := by
  unfold continuation?
  split_ifs <;> simp <;> omega

/-- The bytes of a character that has more than one are taken up to what stands behind them. -/
theorem takeTail_encode {c : Char} (large : 127 < c.toNat) (rest : List UInt8) :
    ∃ b tail count low high, String.utf8EncodeChar c = b :: tail ∧ 0x80 ≤ b.toNat ∧
      continuation? b.toNat = some (count, low, high) ∧
        takeTail count low high (leadBits b.toNat count) (tail ++ rest) =
          (some c.toNat, rest) := by
  have valid : c.toNat < 0xD800 ∨ 0xDFFF < c.toNat ∧ c.toNat < 0x110000 := c.valid
  by_cases two : c.toNat ≤ 2047
  · refine ⟨_, _, 1, _, _, encode_two large two, ?_, continuation?_eq_some_iff.mpr
      (.inl ⟨rfl, ?_, ?_, rfl, rfl⟩), takeTail_succ_iff.mpr ⟨_, _, rfl, ?_, ?_,
        takeTail_zero_iff.mpr ⟨?_, rfl⟩⟩⟩
    all_goals simp only [leadBits, UInt8.toNat_ofNat', Nat.pow_eq, Nat.reduceSub, Nat.reducePow]
    all_goals omega
  · by_cases three : c.toNat ≤ 65535
    · refine ⟨_, _, 2, _, _, encode_three (Nat.not_le.mp two) three, ?_,
        continuation?_eq_some_iff.mpr (.inr (.inl ⟨rfl, ?_, ?_, rfl, rfl⟩)),
        takeTail_succ_iff.mpr ⟨_, _, rfl, ?_, ?_, takeTail_succ_iff.mpr ⟨_, _, rfl, ?_, ?_,
          takeTail_zero_iff.mpr ⟨?_, rfl⟩⟩⟩⟩
      all_goals simp only [leadBits, UInt8.toNat_ofNat', Nat.pow_eq, Nat.reduceSub, Nat.reducePow]
      repeat' split
      all_goals omega
    · refine ⟨_, _, 3, _, _, encode_four (Nat.not_le.mp three), ?_,
        continuation?_eq_some_iff.mpr (.inr (.inr ⟨rfl, ?_, ?_, rfl, rfl⟩)),
        takeTail_succ_iff.mpr ⟨_, _, rfl, ?_, ?_, takeTail_succ_iff.mpr ⟨_, _, rfl, ?_, ?_,
          takeTail_succ_iff.mpr ⟨_, _, rfl, ?_, ?_, takeTail_zero_iff.mpr ⟨?_, rfl⟩⟩⟩⟩⟩
      all_goals simp only [leadBits, UInt8.toNat_ofNat', Nat.pow_eq, Nat.reduceSub, Nat.reducePow]
      repeat' split
      all_goals omega

/-- What is taken after a first byte of several is the rest of the bytes of a character. -/
theorem encode_of_takeTail {b : UInt8} {count low high v : Nat} {bytes rest : List UInt8}
    (first : continuation? b.toNat = some (count, low, high))
    (taken : takeTail count low high (leadBits b.toNat count) bytes = (some v, rest)) :
    String.utf8EncodeChar (Char.ofNat v) ++ rest = b :: bytes := by
  obtain ⟨rfl, least, most, rfl, rfl⟩ | ⟨rfl, least, most, rfl, rfl⟩ | ⟨rfl, least, most, rfl, rfl⟩ :=
    continuation?_eq_some_iff.mp first <;>
    simp only [takeTail_succ_iff, takeTail_zero_iff, leadBits, Nat.reducePow, Nat.pow_eq,
      Nat.reduceSub] at taken
  · obtain ⟨c, _, rfl, low, high, value, rfl⟩ := taken
    have same := toNat_ofNat (v := v) (.inl (by omega))
    rw [encode_two (by omega) (by omega), same]
    simp only [List.cons_append, List.nil_append]
    rw [ofNat_eq (b := b) (by omega), ofNat_eq (b := c) (by omega)]
  · obtain ⟨c, _, rfl, low, high, d, _, rfl, low', high', value, rfl⟩ := taken
    -- The range of the second byte leaves out what needs fewer bytes, and surrogates.
    have range : 2047 < v ∧ v ≤ 65535 ∧ (v < 0xD800 ∨ 0xDFFF < v) ∧ 128 ≤ c.toNat ∧
        c.toNat ≤ 191 := by
      split_ifs at low high <;> omega
    have same := toNat_ofNat (v := v) (by omega)
    rw [encode_three (by omega) (by omega), same]
    simp only [List.cons_append, List.nil_append]
    rw [ofNat_eq (b := b) (by omega), ofNat_eq (b := c) (by omega), ofNat_eq (b := d) (by omega)]
  · obtain ⟨c, _, rfl, low, high, d, _, rfl, low', high', e, _, rfl, low'', high'', value, rfl⟩ :=
      taken
    -- Here it leaves out what needs fewer bytes, and what is no character any more.
    have range : 65535 < v ∧ v < 0x110000 ∧ 128 ≤ c.toNat ∧ c.toNat ≤ 191 := by
      split_ifs at low high <;> omega
    have same := toNat_ofNat (v := v) (by omega)
    rw [encode_four (by omega), same]
    simp only [List.cons_append, List.nil_append]
    rw [ofNat_eq (b := b) (by omega), ofNat_eq (b := c) (by omega), ofNat_eq (b := d) (by omega),
      ofNat_eq (b := e) (by omega)]

/-! ## All characters -/

theorem pieces_encode (c : Char) (rest : List UInt8) :
    pieces (String.utf8EncodeChar c ++ rest) = some c :: pieces rest := by
  by_cases small : c.toNat ≤ 127
  · have ascii : (UInt8.ofNat c.toNat).toNat = c.toNat := by
      rw [UInt8.toNat_ofNat']
      omega
    rw [encode_one small, List.singleton_append, pieces, if_pos (by omega), ascii, Char.ofNat_toNat]
  · obtain ⟨b, tail, count, low, high, bytes, large, first, taken⟩ :=
      takeTail_encode (Nat.not_le.mp small) rest
    rw [bytes, List.cons_append, pieces, if_neg (by omega)]
    simp only [first, taken, Option.map_some, Char.ofNat_toNat]

/-- A first piece that is a character has its bytes. -/
theorem encode_of_pieces {bytes : List UInt8} {c : Char} {ps : List (Option Char)}
    (read : pieces bytes = some c :: ps) :
    ∃ rest, bytes = String.utf8EncodeChar c ++ rest ∧ pieces rest = ps := by
  cases bytes with
  | nil => cases (pieces.eq_1).symm.trans read
  | cons b bytes =>
      rw [pieces] at read
      split at read
      · next small =>
          obtain ⟨char, rest⟩ := List.cons.inj read
          have same := toNat_ofNat (v := b.toNat) (.inl (by omega))
          obtain rfl := Option.some.inj char
          refine ⟨bytes, ?_, rest⟩
          rw [encode_one (by omega), same, UInt8.ofNat_toNat, List.singleton_append]
      · split at read
        · cases read
        · next count low high first =>
            obtain ⟨char, rest⟩ := List.cons.inj read
            obtain ⟨v, value, rfl⟩ := Option.map_eq_some_iff.mp char
            exact ⟨_, (encode_of_takeTail first (Prod.ext value rfl)).symm, rest⟩

theorem pieces_eq_map_some_iff {bytes : List UInt8} {cs : List Char} :
    pieces bytes = cs.map some ↔ bytes = cs.flatMap String.utf8EncodeChar := by
  induction cs generalizing bytes with
  | nil =>
      constructor
      · intro read
        cases bytes with
        | nil => rfl
        | cons b bytes =>
            rw [pieces] at read
            split at read
            · cases read
            · split at read <;> cases read
      · rintro rfl
        exact pieces.eq_1
  | cons c cs ih =>
      rw [List.map_cons, List.flatMap_cons]
      constructor
      · intro read
        obtain ⟨left, rfl, others⟩ := encode_of_pieces read
        rw [ih.mp others]
      · rintro rfl
        rw [pieces_encode, ih.mpr rfl]

theorem mapM_id_eq_some_iff {α : Type} {l : List (Option α)} {as : List α} :
    l.mapM id = some as ↔ l = as.map some := by
  induction l generalizing as with
  | nil => cases as <;> simp
  | cons a l ih =>
      rw [List.mapM_cons]
      cases a with
      | none => cases as <;> simp
      | some a =>
          cases as with
          | nil => simp [Option.bind_eq_some_iff]
          | cons b as => simpa [Option.bind_eq_some_iff, ih, and_assoc] using and_comm

/-- Strict reading inverts the writing of a text, from either side. -/
theorem strict?_eq_some_iff {bytes : List UInt8} {s : String} :
    strict? bytes = some s ↔ bytes = s.toUTF8.toList := by
  rw [strict?, Option.map_eq_some_iff, toList_toUTF8, ← pieces_eq_map_some_iff]
  simp only [mapM_id_eq_some_iff]
  constructor
  · rintro ⟨cs, read, rfl⟩
    rw [String.toList_ofList, read]
  · intro read
    exact ⟨s.toList, read, String.ofList_toList⟩

theorem strict?_toUTF8 (s : String) : strict? s.toUTF8.toList = some s := strict?_eq_some_iff.mpr rfl

end QueryBoard.Text.Utf8
