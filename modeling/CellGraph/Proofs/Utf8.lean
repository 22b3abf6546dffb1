import CellGraph.Path.Encoding
import Mathlib.Tactic.SplitIfs

/-!
# Bytes of texts

The bytes of a character are read as this character, whatever follows them (`Text.scan_utf8EncodeChar`), so the bytes of
a text are read as the text (`Text.decodeLossy_encode`). What is read of other bytes has a character beyond ASCII where
they are none of ASCII: a character of ASCII is read of its own byte only (`Text.mem_of_mem_decodeLossy`), and if
nothing else is read, the bytes are those of these characters (`Text.toList_decodeLossy_of_ascii`).
-/

namespace CellGraph.Text

/-! ## Bytes of a character -/

theorem scan_of_lt {b : UInt8} (h : b < 0x80) (bs : Bytes) :
    scan none (b :: bs) = some (Char.ofNat b.toNat) :: scan none bs := by
  simp [scan, h]

theorem scan_stray {b : UInt8} (hb : ¬b < 0x80) (h : following? b = none) (bs : Bytes) :
    scan none (b :: bs) = none :: scan none bs := by
  simp [scan, hb, h]

theorem scan_following {b low high : UInt8} {count : Nat} (hb : ¬b < 0x80) (h : following? b = some (low, high, count))
    (bs : Bytes) : scan none (b :: bs) = scan (some ⟨leadingBits b count, count, low, high⟩) bs := by
  simp [scan, hb, h]

theorem scan_last {begun : Begun} {b : UInt8} (hlow : begun.low ≤ b) (hhigh : b ≤ begun.high) (hleft : begun.left = 1)
    (bs : Bytes) :
    scan (some begun) (b :: bs) = some (Char.ofNat (begun.number * 64 + b.toNat % 64)) :: scan none bs := by
  simp [scan, hlow, hhigh, hleft]

theorem scan_more {begun : Begun} {b : UInt8} (hlow : begun.low ≤ b) (hhigh : b ≤ begun.high) (hleft : begun.left ≠ 1)
    (bs : Bytes) : scan (some begun) (b :: bs) =
      scan (some ⟨begun.number * 64 + b.toNat % 64, begun.left - 1, 0x80, 0xBF⟩) bs := by
  simp [scan, hlow, hhigh, hleft]

/-- A byte that does not go on with a character that has begun is read as if none had. -/
theorem scan_broken {begun : Begun} {b : UInt8} (h : ¬(begun.low ≤ b ∧ b ≤ begun.high)) (bs : Bytes) :
    scan (some begun) (b :: bs) = none :: scan none (b :: bs) := by
  have hbounds : (begun.low ≤ b && b ≤ begun.high) = false := by simpa using h
  simp only [scan, hbounds, Bool.false_eq_true, if_false]
  split
  · rfl
  · cases following? b <;> rfl

theorem following?_eq (b : UInt8) : following? b =
    if 0xC2 ≤ b.toNat ∧ b.toNat ≤ 0xDF then some (0x80, 0xBF, 1)
    else if b.toNat = 0xE0 then some (0xA0, 0xBF, 2)
    else if b.toNat = 0xED then some (0x80, 0x9F, 2)
    else if 0xE1 ≤ b.toNat ∧ b.toNat ≤ 0xEF then some (0x80, 0xBF, 2)
    else if b.toNat = 0xF0 then some (0x90, 0xBF, 3)
    else if b.toNat = 0xF4 then some (0x80, 0x8F, 3)
    else if 0xF1 ≤ b.toNat ∧ b.toNat ≤ 0xF3 then some (0x80, 0xBF, 3)
    else none := by
  simp only [following?, Bool.and_eq_true, decide_eq_true_eq, beq_iff_eq, UInt8.le_iff_toNat_le, ← UInt8.toNat_inj]
  rfl

theorem toNat_ofNat_of_lt {n : Nat} (h : n < 256) : (UInt8.ofNat n).toNat = n := UInt8.toNat_ofNat_of_lt' h

/-- A byte that may follow others, by its number. -/
theorem tail_bounds (n : Nat) : 0x80 ≤ UInt8.ofNat (n % 64 + 128) ∧ UInt8.ofNat (n % 64 + 128) ≤ 0xBF ∧
    (UInt8.ofNat (n % 64 + 128)).toNat % 64 = n % 64 := by
  rw [UInt8.le_iff_toNat_le, UInt8.le_iff_toNat_le, toNat_ofNat_of_lt (by omega)]
  refine ⟨?_, ?_, by omega⟩
  · change 128 ≤ n % 64 + 128
    omega
  · change n % 64 + 128 ≤ 191
    omega

theorem not_lt_of_le {n : Nat} (h : n < 256) (hlow : 0x80 ≤ n) : ¬UInt8.ofNat n < 0x80 := by
  rw [UInt8.lt_iff_toNat_lt, toNat_ofNat_of_lt h]
  exact Nat.not_lt.mpr hlow

/-- The second of three bytes is within the bounds that the first one sets. -/
theorem exists_following_three {v : Nat} (hlow : 0x800 ≤ v) (hhigh : v ≤ 0xFFFF) (hvalid : v < 0xD800 ∨ 0xDFFF < v) :
    ∃ low high, following? (UInt8.ofNat (v / 4096 % 16 + 224)) = some (low, high, 2) ∧
      low ≤ UInt8.ofNat (v / 64 % 64 + 128) ∧ UInt8.ofNat (v / 64 % 64 + 128) ≤ high := by
  obtain ⟨htail, htail', -⟩ := tail_bounds (v / 64)
  simp only [following?_eq, toNat_ofNat_of_lt (show v / 4096 % 16 + 224 < 256 by omega)]
  rw [if_neg (by omega)]
  split
  · refine ⟨_, _, rfl, ?_, htail'⟩
    rw [UInt8.le_iff_toNat_le, toNat_ofNat_of_lt (by omega)]
    change 160 ≤ v / 64 % 64 + 128
    omega
  · split
    · refine ⟨_, _, rfl, htail, ?_⟩
      rw [UInt8.le_iff_toNat_le, toNat_ofNat_of_lt (by omega)]
      change v / 64 % 64 + 128 ≤ 159
      omega
    · rw [if_pos (by omega)]
      exact ⟨_, _, rfl, htail, htail'⟩

/-- The second of four bytes is within the bounds that the first one sets. -/
theorem exists_following_four {v : Nat} (hlow : 0xFFFF < v) (hhigh : v < 0x110000) :
    ∃ low high, following? (UInt8.ofNat (v / 262144 % 8 + 240)) = some (low, high, 3) ∧
      low ≤ UInt8.ofNat (v / 4096 % 64 + 128) ∧ UInt8.ofNat (v / 4096 % 64 + 128) ≤ high := by
  obtain ⟨htail, htail', -⟩ := tail_bounds (v / 4096)
  simp only [following?_eq, toNat_ofNat_of_lt (show v / 262144 % 8 + 240 < 256 by omega)]
  rw [if_neg (by omega), if_neg (by omega), if_neg (by omega), if_neg (by omega)]
  split
  · refine ⟨_, _, rfl, ?_, htail'⟩
    rw [UInt8.le_iff_toNat_le, toNat_ofNat_of_lt (by omega)]
    change 144 ≤ v / 4096 % 64 + 128
    omega
  · split
    · refine ⟨_, _, rfl, htail, ?_⟩
      rw [UInt8.le_iff_toNat_le, toNat_ofNat_of_lt (by omega)]
      change v / 4096 % 64 + 128 ≤ 143
      omega
    · rw [if_pos (by omega)]
      exact ⟨_, _, rfl, htail, htail'⟩

/-- The bytes of a character are read as the character, whatever follows them. -/
theorem scan_utf8EncodeChar (c : Char) (bs : Bytes) :
    scan none (String.utf8EncodeChar c ++ bs) = some c :: scan none bs := by
  have hvalid : c.val.toNat < 0xD800 ∨ 0xDFFF < c.val.toNat ∧ c.val.toNat < 0x110000 := c.valid
  have hchar : Char.ofNat c.val.toNat = c := Char.ofNat_toNat c
  unfold String.utf8EncodeChar
  generalize c.val.toNat = v at hvalid hchar
  have hleading : ∀ {b : UInt8} {count : Nat}, leadingBits b count = b.toNat % Nat.pow 2 (6 - count) := rfl
  obtain ⟨hlow₁, hhigh₁, hbits₁⟩ := tail_bounds v
  obtain ⟨hlow₂, hhigh₂, hbits₂⟩ := tail_bounds (v / 64)
  obtain ⟨-, -, hbits₃⟩ := tail_bounds (v / 4096)
  dsimp only
  split
  · rename_i hone
    have hlt : UInt8.ofNat v < 0x80 := by
      rw [UInt8.lt_iff_toNat_lt, toNat_ofNat_of_lt (by omega)]
      exact Nat.lt_succ_of_le hone
    rw [List.singleton_append, scan_of_lt hlt, toNat_ofNat_of_lt (by omega), hchar]
  · split
    · have hfirst : v / 64 % 32 + 192 < 256 := by omega
      have hfollowing : following? (UInt8.ofNat (v / 64 % 32 + 192)) = some (0x80, 0xBF, 1) := by
        rw [following?_eq, toNat_ofNat_of_lt hfirst, if_pos (by omega)]
      have hnumber : (v / 64 % 32 + 192) % Nat.pow 2 (6 - 1) * 64 + v % 64 = v := by
        change (v / 64 % 32 + 192) % 32 * 64 + v % 64 = v
        omega
      simp only [List.cons_append, List.nil_append]
      rw [scan_following (not_lt_of_le hfirst (by omega)) hfollowing, scan_last hlow₁ hhigh₁ rfl, hleading, hbits₁,
        toNat_ofNat_of_lt hfirst, hnumber, hchar]
    · split
      · have hfirst : v / 4096 % 16 + 224 < 256 := by omega
        obtain ⟨low, high, hfollowing, hlow, hhigh⟩ := @exists_following_three v (by omega) (by omega) (by omega)
        have hnumber : ((v / 4096 % 16 + 224) % Nat.pow 2 (6 - 2) * 64 + v / 64 % 64) * 64 + v % 64 = v := by
          change ((v / 4096 % 16 + 224) % 16 * 64 + v / 64 % 64) * 64 + v % 64 = v
          omega
        simp only [List.cons_append, List.nil_append]
        rw [scan_following (not_lt_of_le hfirst (by omega)) hfollowing, scan_more hlow hhigh (by simp),
          scan_last hlow₁ hhigh₁ rfl, hleading, hbits₁, hbits₂, toNat_ofNat_of_lt hfirst, hnumber, hchar]
      · have hfirst : v / 262144 % 8 + 240 < 256 := by omega
        obtain ⟨low, high, hfollowing, hlow, hhigh⟩ := @exists_following_four v (by omega) (by omega)
        have hnumber : (((v / 262144 % 8 + 240) % Nat.pow 2 (6 - 3) * 64 + v / 4096 % 64) * 64 + v / 64 % 64) * 64 +
            v % 64 = v := by
          change (((v / 262144 % 8 + 240) % 8 * 64 + v / 4096 % 64) * 64 + v / 64 % 64) * 64 + v % 64 = v
          omega
        simp only [List.cons_append, List.nil_append]
        rw [scan_following (not_lt_of_le hfirst (by omega)) hfollowing, scan_more hlow hhigh (by simp),
          scan_more hlow₂ hhigh₂ (by simp), scan_last hlow₁ hhigh₁ rfl, hleading, hbits₁, hbits₂, hbits₃,
          toNat_ofNat_of_lt hfirst, hnumber, hchar]

/-- The bytes of a text are read as its characters. -/
theorem scan_encode (text : String) : scan none (encode text) = text.toList.map some := by
  unfold encode
  induction text.toList with
  | nil => rfl
  | cons c cs ih => rw [List.flatMap_cons, scan_utf8EncodeChar, ih, List.map_cons]

@[simp] theorem decodeLossy_encode (text : String) : decodeLossy (encode text) = text := by
  rw [decodeLossy, scan_encode, List.map_map]
  exact (congrArg String.ofList (List.map_id _)).trans (String.ofList_toList ..)

/-! ## Characters of ASCII -/

/-- The bytes of a character are one of ASCII or several others. -/
theorem utf8EncodeChar_cases (c : Char) :
    c.toNat < 0x80 ∧ String.utf8EncodeChar c = [UInt8.ofNat c.toNat] ∨
      0x80 ≤ c.toNat ∧ String.utf8EncodeChar c ≠ [] ∧ ∀ b ∈ String.utf8EncodeChar c, 0x80 ≤ b.toNat := by
  have hwide : ∀ n : Nat, n < 128 → 0x80 ≤ (UInt8.ofNat (n + 128)).toNat := by
    intro n hn
    rw [toNat_ofNat_of_lt (by omega)]
    omega
  have hvalue : c.toNat = c.val.toNat := rfl
  unfold String.utf8EncodeChar
  rw [hvalue]
  generalize c.val.toNat = v
  dsimp only
  split
  · exact Or.inl ⟨by omega, rfl⟩
  · refine Or.inr ⟨by omega, ?_⟩
    split
    · refine ⟨List.cons_ne_nil _ _, ?_⟩
      simp only [List.forall_mem_cons, List.not_mem_nil, false_implies, implies_true, and_true]
      exact ⟨hwide (v / 64 % 32 + 64) (by omega), hwide (v % 64) (by omega)⟩
    · split
      · refine ⟨List.cons_ne_nil _ _, ?_⟩
        simp only [List.forall_mem_cons, List.not_mem_nil, false_implies, implies_true, and_true]
        exact ⟨hwide (v / 4096 % 16 + 96) (by omega), hwide (v / 64 % 64) (by omega), hwide (v % 64) (by omega)⟩
      · refine ⟨List.cons_ne_nil _ _, ?_⟩
        simp only [List.forall_mem_cons, List.not_mem_nil, false_implies, implies_true, and_true]
        exact ⟨hwide (v / 262144 % 8 + 112) (by omega), hwide (v / 4096 % 64) (by omega),
          hwide (v / 64 % 64) (by omega), hwide (v % 64) (by omega)⟩

theorem toNat_ofNat_of_valid {n : Nat} (h : n.isValidChar) : (Char.ofNat n).toNat = n :=
  congrArg Char.toNat (dif_pos h)

/-- What is the number of no character is read as the first one. -/
theorem toNat_ofNat_cases (n : Nat) : (Char.ofNat n).toNat = n ∨ (Char.ofNat n).toNat = 0 := by
  by_cases hvalid : n.isValidChar
  · exact Or.inl (toNat_ofNat_of_valid hvalid)
  · exact Or.inr (congrArg Char.toNat (dif_neg hvalid))

/-- Whether what was read is a character of ASCII other than the first one. -/
def IsAscii (c? : Option Char) : Prop := ∃ c, c? = some c ∧ 0 < c.toNat ∧ c.toNat < 0x80

/-- Whether a character that has begun is none of ASCII, whatever follows. -/
structure Begun.Wide (begun : Begun) : Prop where
  left : begun.left ≠ 0
  low : 0x80 ≤ begun.low.toNat
  high : begun.high.toNat ≤ 0xBF
  number : 0x80 ≤ (begun.number * 64 + begun.low.toNat % 64) * Nat.pow 64 (begun.left - 1)

/-- A byte that comes first among several begins a character that is none of ASCII. -/
theorem wide_of_following? {b low high : UInt8} {count : Nat} (h : following? b = some (low, high, count)) :
    (Begun.mk (leadingBits b count) count low high).Wide := by
  have hleading : leadingBits b count = b.toNat % Nat.pow 2 (6 - count) := rfl
  have hbyte := b.toNat_lt
  rw [following?_eq] at h
  split_ifs at h <;> cases h <;>
    refine ⟨Nat.succ_ne_zero _, Nat.le_of_ble_eq_true rfl, Nat.le_of_ble_eq_true rfl, ?_⟩ <;>
    dsimp only <;> rw [hleading]
  · change 128 ≤ (b.toNat % 32 * 64 + 0) * 1
    omega
  · change 128 ≤ (b.toNat % 16 * 64 + 32) * 64
    omega
  · change 128 ≤ (b.toNat % 16 * 64 + 0) * 64
    omega
  · change 128 ≤ (b.toNat % 16 * 64 + 0) * 64
    omega
  · change 128 ≤ (b.toNat % 8 * 64 + 16) * 4096
    omega
  · change 128 ≤ (b.toNat % 8 * 64 + 0) * 4096
    omega
  · change 128 ≤ (b.toNat % 8 * 64 + 0) * 4096
    omega

namespace Begun.Wide

variable {begun : Begun} {b : UInt8}

/-- The number that a byte within the bounds goes on to is large enough. -/
theorem number_le (h : begun.Wide) (hlow : begun.low ≤ b) (hhigh : b ≤ begun.high) :
    0x80 ≤ (begun.number * 64 + b.toNat % 64) * Nat.pow 64 (begun.left - 1) := by
  have hlow' := UInt8.le_iff_toNat_le.mp hlow
  have hhigh' := UInt8.le_iff_toNat_le.mp hhigh
  have hbounds := h.low
  have hbounds' := h.high
  have hbits : begun.low.toNat % 64 ≤ b.toNat % 64 := by omega
  exact Nat.le_trans h.number (Nat.mul_le_mul_right _ (Nat.add_le_add_left hbits _))

/-- A character that goes on is none of ASCII either. -/
theorem next (h : begun.Wide) (hlow : begun.low ≤ b) (hhigh : b ≤ begun.high) (hleft : begun.left ≠ 1) :
    (Begun.mk (begun.number * 64 + b.toNat % 64) (begun.left - 1) 0x80 0xBF).Wide := by
  have hpos := h.left
  refine ⟨?_, Nat.le_of_ble_eq_true rfl, Nat.le_of_ble_eq_true rfl, ?_⟩
  · dsimp only
    omega
  · obtain ⟨n, hn⟩ : ∃ n, begun.left - 1 = n + 1 := ⟨begun.left - 2, by omega⟩
    have hnumber := h.number_le hlow hhigh
    have hzero : (0x80 : UInt8).toNat % 64 = 0 := rfl
    have hpow : Nat.pow 64 (n + 1) = Nat.pow 64 n * 64 := rfl
    dsimp only
    rw [hn, hpow] at hnumber
    rw [hn, Nat.add_sub_cancel, hzero, Nat.add_zero, Nat.mul_assoc, Nat.mul_comm 64]
    exact hnumber

/-- Nor is one that ends. -/
theorem not_isAscii_last (h : begun.Wide) (hlow : begun.low ≤ b) (hhigh : b ≤ begun.high) (hleft : begun.left = 1) :
    ¬IsAscii (some (Char.ofNat (begun.number * 64 + b.toNat % 64))) := by
  have hnumber := h.number_le hlow hhigh
  have hpow : Nat.pow 64 (begun.left - 1) = 1 := by rw [hleft]
  rw [hpow, Nat.mul_one] at hnumber
  rintro ⟨c, hc, hpos, hascii⟩
  rw [← Option.some.inj hc] at hpos hascii
  have hcases := toNat_ofNat_cases (begun.number * 64 + b.toNat % 64)
  omega

/-- Whatever follows a character that has begun, something is read that is none of ASCII. -/
theorem exists_not_isAscii (h : begun.Wide) (bs : Bytes) : ∃ c? ∈ scan (some begun) bs, ¬IsAscii c? := by
  have hnone : ¬IsAscii none := by
    rintro ⟨c, hc, -⟩
    cases hc
  induction bs generalizing begun with
  | nil => exact ⟨none, List.mem_singleton.mpr rfl, hnone⟩
  | cons b bs ih =>
    by_cases hbounds : begun.low ≤ b ∧ b ≤ begun.high
    · obtain ⟨hlow, hhigh⟩ := hbounds
      by_cases hleft : begun.left = 1
      · rw [scan_last hlow hhigh hleft]
        exact ⟨_, List.mem_cons_self, h.not_isAscii_last hlow hhigh hleft⟩
      · rw [scan_more hlow hhigh hleft]
        exact ih (h.next hlow hhigh hleft)
    · rw [scan_broken hbounds]
      exact ⟨none, List.mem_cons_self, hnone⟩

end Begun.Wide

/-- A character of ASCII is read of its own byte. -/
theorem exists_of_mem_scan {begun? : Option Begun} (h : ∀ begun ∈ begun?, begun.Wide) {bs : Bytes} {c? : Option Char}
    (hc : c? ∈ scan begun? bs) (hascii : IsAscii c?) : ∃ b ∈ bs, c? = some (Char.ofNat b.toNat) := by
  have hne : c? ≠ none := by
    obtain ⟨c, rfl, -⟩ := hascii
    exact Option.some_ne_none c
  induction bs generalizing begun? with
  | nil => cases begun? <;> simp [scan, hne] at hc
  | cons b bs ih =>
    -- what is read from `b` on with nothing begun
    have hstart : c? ∈ scan none (b :: bs) → ∃ b' ∈ b :: bs, c? = some (Char.ofNat b'.toNat) := by
      intro hc
      by_cases hb : b < 0x80
      · rw [scan_of_lt hb] at hc
        rcases List.mem_cons.mp hc with rfl | hc
        · exact ⟨b, List.mem_cons_self, rfl⟩
        · obtain ⟨b', hb', hc⟩ := ih (by simp) hc
          exact ⟨b', List.mem_cons_of_mem _ hb', hc⟩
      · cases hfollowing : following? b with
        | none =>
          rw [scan_stray hb hfollowing] at hc
          obtain ⟨b', hb', hc⟩ := ih (by simp) ((List.mem_cons.mp hc).resolve_left hne)
          exact ⟨b', List.mem_cons_of_mem _ hb', hc⟩
        | some bounds =>
          obtain ⟨low, high, count⟩ := bounds
          rw [scan_following hb hfollowing] at hc
          obtain ⟨b', hb', hc⟩ := ih (by simpa using wide_of_following? hfollowing) hc
          exact ⟨b', List.mem_cons_of_mem _ hb', hc⟩
    cases begun? with
    | none => exact hstart hc
    | some begun =>
      have hwide := h begun rfl
      by_cases hbounds : begun.low ≤ b ∧ b ≤ begun.high
      · obtain ⟨hlow, hhigh⟩ := hbounds
        by_cases hleft : begun.left = 1
        · rw [scan_last hlow hhigh hleft] at hc
          rcases List.mem_cons.mp hc with rfl | hc
          · exact absurd hascii (hwide.not_isAscii_last hlow hhigh hleft)
          · obtain ⟨b', hb', hc⟩ := ih (by simp) hc
            exact ⟨b', List.mem_cons_of_mem _ hb', hc⟩
        · rw [scan_more hlow hhigh hleft] at hc
          obtain ⟨b', hb', hc⟩ := ih (by simpa using hwide.next hlow hhigh hleft) hc
          exact ⟨b', List.mem_cons_of_mem _ hb', hc⟩
      · rw [scan_broken hbounds] at hc
        exact hstart ((List.mem_cons.mp hc).resolve_left hne)

/-- If nothing but ASCII is read, every byte is read for itself. -/
theorem scan_of_isAscii {bs : Bytes} (h : ∀ c? ∈ scan none bs, IsAscii c?) :
    scan none bs = bs.map fun b => some (Char.ofNat b.toNat) := by
  induction bs with
  | nil => rfl
  | cons b bs ih =>
    by_cases hb : b < 0x80
    · rw [scan_of_lt hb] at h ⊢
      rw [ih fun c? hc => h c? (List.mem_cons_of_mem _ hc), List.map_cons]
    · exfalso
      cases hfollowing : following? b with
      | none =>
        rw [scan_stray hb hfollowing] at h
        obtain ⟨c, hc, -⟩ := h none List.mem_cons_self
        cases hc
      | some bounds =>
        obtain ⟨low, high, count⟩ := bounds
        rw [scan_following hb hfollowing] at h
        obtain ⟨c?, hc, hascii⟩ := (wide_of_following? hfollowing).exists_not_isAscii bs
        exact hascii (h c? hc)

/-- A character of ASCII in what bytes read as is one of the bytes. -/
theorem mem_of_mem_decodeLossy {bs : Bytes} {c : Char} (hpos : 0 < c.toNat) (hascii : c.toNat < 0x80)
    (h : c ∈ (decodeLossy bs).toList) : c ∈ marks bs := by
  rw [decodeLossy, String.toList_ofList] at h
  obtain ⟨c?, hc, hread⟩ := List.mem_map.mp h
  have hsome : c? = some c := by
    cases c? with
    | none =>
      rw [← hread] at hascii
      exact absurd hascii (by decide)
    | some d => exact congrArg some hread
  obtain ⟨b, hb, hbyte⟩ := exists_of_mem_scan (by simp) hc ⟨c, hsome, hpos, hascii⟩
  rw [hsome, Option.some.injEq] at hbyte
  exact List.mem_map.mpr ⟨b, hb, hbyte.symm⟩

/-- Bytes that read as nothing but ASCII are those of its characters. -/
theorem toList_decodeLossy_of_ascii {bs : Bytes}
    (h : ∀ c ∈ (decodeLossy bs).toList, 0 < c.toNat ∧ c.toNat < 0x80) : (decodeLossy bs).toList = marks bs := by
  rw [decodeLossy, String.toList_ofList] at h ⊢
  have hscan : scan none bs = bs.map fun b => some (Char.ofNat b.toNat) := by
    refine scan_of_isAscii fun c? hc => ?_
    have hread := h _ (List.mem_map_of_mem hc)
    cases c? with
    | none => exact absurd hread.2 (by decide)
    | some c => exact ⟨c, rfl, hread⟩
  rw [hscan, List.map_map]
  rfl

end CellGraph.Text
