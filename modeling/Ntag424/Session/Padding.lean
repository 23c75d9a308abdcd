import Mathlib.Data.List.Induction
import Mathlib.Tactic.Common
import Ntag424.Session.FileData

/-!
# Recognising the Padding

`strip_m2_padding` looks for the last byte that is not zero. It does not look where that byte is,
so a marker followed by more than a block of zeros is accepted too, which no sender writes.

## Main results

* `stripM2Padding_exact_iff`: padding is recognised exactly, unless a marker is followed by
  sixteen zeros or more.
* `stripM2Padding_writePadding`, `stripM2Padding_settingsPadding`: what the senders write is
  stripped back to the message.
-/

namespace Ntag424

/-! ### The end of a buffer -/

/-- The number of zeros at the end of a buffer. -/
def trailingZeros (buf : List UInt8) : ℕ := (buf.reverse.takeWhile (· == 0x00)).length

/-- The last byte of a buffer that is not zero. -/
def lastNonzero (buf : List UInt8) : Option UInt8 := (buf.reverse.dropWhile (· == 0x00)).head?

/-- A buffer is zeros behind its last byte that is not zero. -/
theorem zeros_or_marked (buf : List UInt8) :
    (∃ k, buf = List.replicate k 0) ∨
      ∃ front b k, buf = front ++ b :: List.replicate k 0 ∧ b ≠ 0x00 := by
  induction buf using List.reverseRecOn with
  | nil => exact .inl ⟨0, rfl⟩
  | append_singleton buf b ih =>
      by_cases hb : b = 0x00
      · subst hb
        obtain ⟨k, rfl⟩ | ⟨front, c, k, rfl, hc⟩ := ih
        · exact .inl ⟨k + 1, List.replicate_succ'.symm⟩
        · refine .inr ⟨front, c, k + 1, ?_, hc⟩
          rw [List.append_assoc, List.cons_append, ← List.replicate_succ']
      · exact .inr ⟨buf, b, 0, rfl, hb⟩

section Marked

variable (front : List UInt8) {b : UInt8} (k : ℕ)

theorem trailingZeros_marked (hb : b ≠ 0x00) :
    trailingZeros (front ++ b :: List.replicate k 0) = k := by
  rw [trailingZeros, reverse_marked]
  induction k with
  | zero => simp [hb]
  | succ k ih => simpa [List.replicate_succ] using ih

theorem lastNonzero_marked (hb : b ≠ 0x00) :
    lastNonzero (front ++ b :: List.replicate k 0) = some b := by
  rw [lastNonzero, dropWhile_marked front k hb]
  rfl

end Marked

theorem dropWhile_zeros (k : ℕ) :
    (List.replicate k (0 : UInt8)).reverse.dropWhile (· == 0x00) = [] := by
  simp [List.reverse_replicate]

theorem stripM2Padding_zeros (k : ℕ) : stripM2Padding (List.replicate k 0) = none := by
  rw [stripM2Padding, dropWhile_zeros]

theorem lastNonzero_zeros (k : ℕ) : lastNonzero (List.replicate k 0) = none := by
  rw [lastNonzero, dropWhile_zeros]
  rfl

/-- A buffer that is stripped to `n` bytes holds them, the marker and zeros. -/
theorem eq_marked_of_strip {buf : List UInt8} {n : ℕ} (h : stripM2Padding buf = some n) :
    ∃ front k, buf = front ++ 0x80 :: List.replicate k 0 ∧ front.length = n := by
  obtain ⟨k, rfl⟩ | ⟨front, b, k, rfl, hb⟩ := zeros_or_marked buf
  · rw [stripM2Padding_zeros] at h
    cases h
  · rw [stripM2Padding_marked front k hb] at h
    by_cases hmarker : b = 0x80
    · rw [if_pos hmarker] at h
      exact ⟨front, k, by rw [hmarker], Option.some.inj h⟩
    · rw [if_neg hmarker] at h
      cases h

/-! ### Exact recognition -/

/-- A buffer that is the padding of its first bytes is stripped to them. -/
theorem strip_of_eq_m2Pad {buf : List UInt8} {n : ℕ} (h : buf = m2Pad (buf.take n)) :
    stripM2Padding buf = some n := by
  have hstrip : stripM2Padding buf = some (buf.take n).length := by
    rw [h, stripM2Padding_m2Pad, ← h]
  have hlen := congrArg List.length h
  rw [length_m2Pad, List.length_take] at hlen
  rw [hstrip, List.length_take]
  congr 1
  omega

/-- **Padding is recognised exactly**, unless the marker is followed by a block of zeros or
more. -/
theorem stripM2Padding_exact_iff {buf : List UInt8} (h : buf.length % 16 = 0) :
    (∀ n, stripM2Padding buf = some n ↔ buf = m2Pad (buf.take n)) ↔
      lastNonzero buf = some 0x80 → trailingZeros buf < 16 := by
  obtain ⟨k, rfl⟩ | ⟨front, b, k, rfl, hb⟩ := zeros_or_marked buf
  · refine iff_of_true (fun n => ?_) fun hmark => ?_
    · rw [stripM2Padding_zeros]
      refine iff_of_false nofun fun hpad => ?_
      have := strip_of_eq_m2Pad hpad
      rw [stripM2Padding_zeros] at this
      cases this
    · rw [lastNonzero_zeros] at hmark
      cases hmark
  · rw [lastNonzero_marked front k hb, trailingZeros_marked front k hb]
    by_cases hmark : b = 0x80
    · subst hmark
      have hstrip := stripM2Padding_marked front k hb
      rw [if_pos rfl] at hstrip
      simp only [List.length_append, List.length_cons, List.length_replicate] at h
      simp only [hstrip, Option.some.injEq, forall_const]
      constructor
      · -- the padding of the message is the shortest one
        intro hexact
        have hlen := congrArg List.length ((hexact front.length).mp rfl)
        rw [List.take_left' rfl, length_m2Pad] at hlen
        simp only [List.length_append, List.length_cons, List.length_replicate] at hlen
        omega
      · intro hshort n
        constructor
        · rintro rfl
          rw [List.take_left' rfl, m2Pad, show 15 - front.length % 16 = k by omega]
        · intro hpad
          exact Option.some.inj (hstrip.symm.trans (strip_of_eq_m2Pad hpad))
    · have hstrip := stripM2Padding_marked front k hb
      rw [if_neg hmark] at hstrip
      refine iff_of_true (fun n => ?_) fun h => absurd (Option.some.inj h) hmark
      rw [hstrip]
      refine iff_of_false nofun fun hpad => ?_
      have := strip_of_eq_m2Pad hpad
      rw [hstrip] at this
      cases this

/-! ### What the senders write -/

/-- The padding of `write_data_full_one_apdu` and `change_file_settings`: the message and the
marker are copied into a buffer of `cap` zeros, which is cut to whole blocks. -/
def paddedBuffer (cap : ℕ) (data : List UInt8) : List UInt8 :=
  (overlay (overlay (List.replicate cap 0) 0 data) data.length [0x80]).take
    ((data.length + 1 + 15) / 16 * 16)

/-- A buffer that is large enough holds the padding. -/
theorem paddedBuffer_eq {cap : ℕ} {data : List UInt8}
    (h : (data.length + 1 + 15) / 16 * 16 ≤ cap) : paddedBuffer cap data = m2Pad data := by
  have hzeros : overlay (List.replicate cap 0) 0 data =
      data ++ List.replicate (cap - data.length) 0 := by
    rw [overlay_zero, List.drop_replicate]
  have hmarked : overlay (data ++ List.replicate (cap - data.length) 0) data.length [0x80] =
      data ++ 0x80 :: List.replicate (cap - data.length - 1) 0 := by
    rw [overlay, List.take_left' rfl, List.drop_append, List.length_singleton,
      List.drop_of_length_le (by omega), Nat.add_sub_cancel_left, List.drop_replicate]
    simp only [List.nil_append, List.append_assoc, List.singleton_append]
  rw [paddedBuffer, hzeros, hmarked, m2Pad, List.take_append,
    List.take_of_length_le (by omega),
    show (data.length + 1 + 15) / 16 * 16 - data.length = 15 - data.length % 16 + 1 by omega,
    List.take_succ_cons, List.take_replicate]
  congr 3
  omega

/-- The buffer of `write_data_full_one_apdu`. -/
def writePadding (data : List UInt8) : List UInt8 := paddedBuffer 240 data

/-- The buffer of `change_file_settings`. -/
def settingsPadding (raw : List UInt8) : List UInt8 :=
  paddedBuffer (maxChangeFileSettingsLen + 16) raw

/-- Data that fits an APDU is stripped back. -/
theorem stripM2Padding_writePadding {data : List UInt8}
    (h : 7 + (data.length + 1 + 15) / 16 * 16 + macLen ≤ maxApduBody) :
    stripM2Padding (writePadding data) = some data.length := by
  rw [macLen, maxApduBody] at h
  rw [writePadding, paddedBuffer_eq (by omega), stripM2Padding_m2Pad]

/-- Encoded settings are stripped back. -/
theorem stripM2Padding_settingsPadding {raw : List UInt8}
    (h : raw.length ≤ maxChangeFileSettingsLen) :
    stripM2Padding (settingsPadding raw) = some raw.length := by
  rw [settingsPadding, paddedBuffer_eq (by omega), stripM2Padding_m2Pad]

/-- **Recognising the padding**: exact for a buffer of whole blocks unless its marker is followed
by a block of zeros or more, and right for whatever the senders write. -/
theorem padding_recognised_iff (buf : List UInt8) :
    (buf.length % 16 = 0 →
      ((∀ n, stripM2Padding buf = some n ↔ buf = m2Pad (buf.take n)) ↔
        (lastNonzero buf = some 0x80 → trailingZeros buf < 16))) ∧
    (∀ data : List UInt8, 7 + (data.length + 1 + 15) / 16 * 16 + macLen ≤ maxApduBody →
      stripM2Padding (writePadding data) = some data.length) ∧
    ∀ (settings : FileSettingsUpdate) (raw : List UInt8),
      settings.encode maxChangeFileSettingsLen = .ok raw →
      stripM2Padding (settingsPadding raw) = some raw.length :=
  ⟨fun h => stripM2Padding_exact_iff h, fun _ h => stripM2Padding_writePadding h,
    fun _ _ h => stripM2Padding_settingsPadding (FileSettingsUpdate.length_encode_le h)⟩

/-- A marker in front of a block of zeros is accepted. -/
theorem long_padding_accepted :
    ¬ ∀ n, stripM2Padding (0x80 :: List.replicate 31 0) = some n ↔
      0x80 :: List.replicate 31 0 = m2Pad ((0x80 :: List.replicate 31 0).take n) := by
  intro hexact
  have hpad := (hexact 0).mp (by decide)
  exact absurd hpad (by decide)

end Ntag424
