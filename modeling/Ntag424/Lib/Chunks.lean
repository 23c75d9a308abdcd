import Mathlib.Data.Nat.Find
import Mathlib.Tactic.Common
import Ntag424.Lib.Bytes

/-!
# Chunked Transfers

A reader that may ask for a bounded number of items at a time asks again until it has what it
wants or an answer is short. What it receives is a function of what the source answers.

## Main results

* `chunks_induction`: induction along the chunks of a transfer.
* `ReceivedSoFar`: the invariant of the reader, and what an answer does to it.
* `received_slice`: from a source that answers with windows of a list, it receives the window.
* `overlay_chunk`: copying an answer behind what was copied before.
* `ReadSoFar.chunkRead`: what an answer does to a read into a buffer.
* `InBuffer.chunkRead`: the same for a read that is only known to stay within the buffer.
* `chunks_until_far`: induction up to the first chunk that is too far away.
* `tiles_concat`: one more piece of a transfer in the other direction.
-/

/-- What holds at the end and, before a chunk, if it holds behind it, holds everywhere. -/
theorem chunks_induction {motive : ℕ → Prop} {chunk len : ℕ} (hchunk : 0 < chunk)
    (done : motive len)
    (step : ∀ pos, pos < len → motive (pos + min (len - pos) chunk) → motive pos) {pos : ℕ}
    (hpos : pos ≤ len) : motive pos := by
  induction hleft : len - pos using Nat.strong_induction_on generalizing pos with
  | _ left ih =>
      by_cases hlt : pos < len
      · exact step pos hlt (ih _ (by omega) (by omega) rfl)
      · obtain rfl : pos = len := by omega
        exact done

section Reading

variable {α : Type*}

/-- What a reader receives that asks for at most `chunk` items at a time, from an offset on,
until it has all it wants or an answer is short. -/
def received (chunk : ℕ) (read : ℕ → ℕ → List α) (offset left : ℕ) : List α :=
  if 0 < left ∧ 0 < chunk then
    let part := read offset (min left chunk)
    if part.length < min left chunk then part
    else part ++ received chunk read (offset + min left chunk) (left - min left chunk)
  else []
termination_by left
decreasing_by omega

variable {chunk : ℕ} {read : ℕ → ℕ → List α}

@[simp] theorem received_zero (offset : ℕ) : received chunk read offset 0 = [] := by
  rw [received, if_neg (by omega)]

/-- A short answer is the last. -/
theorem received_of_short {offset left : ℕ} (hleft : 0 < left) (hchunk : 0 < chunk)
    (hshort : (read offset (min left chunk)).length < min left chunk) :
    received chunk read offset left = read offset (min left chunk) := by
  rw [received, if_pos ⟨hleft, hchunk⟩, if_pos hshort]

/-- After an answer in full, the reader asks for what is left. -/
theorem received_of_full {offset left : ℕ} (hleft : 0 < left) (hchunk : 0 < chunk)
    (hfull : min left chunk ≤ (read offset (min left chunk)).length) :
    received chunk read offset left = read offset (min left chunk) ++
      received chunk read (offset + min left chunk) (left - min left chunk) := by
  rw [received, if_pos ⟨hleft, hchunk⟩, if_neg (by omega)]

/-- **Windows add up**: from windows of a list, the reader receives the window. -/
theorem received_slice {l : List α} {offset left : ℕ} (hchunk : 0 < chunk)
    (h : offset + left ≤ l.length) :
    received chunk (slice l) offset left = slice l offset left := by
  induction left using Nat.strong_induction_on generalizing offset with
  | _ left ih =>
      by_cases hleft : 0 < left
      · have hlen : (slice l offset (min left chunk)).length = min left chunk :=
          length_slice (by omega)
        rw [received_of_full hleft hchunk hlen.ge, ih _ (by omega) (by omega)]
        rw [slice, slice, slice, ← List.drop_drop, ← List.take_add]
        congr 1
        omega
      · obtain rfl : left = 0 := by omega
        simp [slice]

/-- A reader on its way has received `pre`. -/
structure ReceivedSoFar (chunk : ℕ) (read : ℕ → ℕ → List α) (offset len : ℕ) (pre : List α) :
    Prop where
  le : pre.length ≤ len
  rest : received chunk read offset len =
    pre ++ received chunk read (offset + pre.length) (len - pre.length)

namespace ReceivedSoFar

variable {offset len : ℕ} {pre : List α}

theorem start (chunk : ℕ) (read : ℕ → ℕ → List α) (offset len : ℕ) :
    ReceivedSoFar chunk read offset len [] := ⟨Nat.zero_le _, rfl⟩

/-- It has all it wants. -/
theorem of_done (h : ReceivedSoFar chunk read offset len pre) (hdone : len ≤ pre.length) :
    received chunk read offset len = pre := by
  rw [h.rest, show len - pre.length = 0 by omega, received_zero, List.append_nil]

/-- It gets a short answer. -/
theorem of_short (h : ReceivedSoFar chunk read offset len pre) (hlt : pre.length < len)
    (hchunk : 0 < chunk)
    (hshort : (read (offset + pre.length) (min (len - pre.length) chunk)).length <
      min (len - pre.length) chunk) :
    received chunk read offset len =
      pre ++ read (offset + pre.length) (min (len - pre.length) chunk) := by
  rw [h.rest]
  congr 1
  exact received_of_short (by omega) hchunk hshort

/-- It gets an answer in full. -/
theorem of_full (h : ReceivedSoFar chunk read offset len pre) (hlt : pre.length < len)
    (hchunk : 0 < chunk)
    (hfull : (read (offset + pre.length) (min (len - pre.length) chunk)).length =
      min (len - pre.length) chunk) :
    ReceivedSoFar chunk read offset len
      (pre ++ read (offset + pre.length) (min (len - pre.length) chunk)) := by
  refine ⟨by rw [List.length_append, hfull]; omega, ?_⟩
  rw [h.rest, List.append_assoc, List.length_append, hfull, ← Nat.add_assoc, ← Nat.sub_sub]
  congr 1
  exact received_of_full (by omega) hchunk hfull.ge

end ReceivedSoFar

/-! ### Into a buffer -/

/-- Overwriting behind what was overwritten. -/
theorem overlay_overlay_append {l w w' : List α} {off : ℕ}
    (h : off + w.length + w'.length ≤ l.length) :
    overlay (overlay l off w) (off + w.length) w' = overlay l off (w ++ w') := by
  have hw : off + w.length ≤ l.length := by omega
  apply List.ext_getElem?
  intro i
  rw [getElem?_overlay (by rw [length_overlay hw]; omega), getElem?_overlay hw,
    getElem?_overlay (by rw [List.length_append]; omega), List.length_append]
  by_cases hi : off + w.length ≤ i
  · by_cases hi' : i < off + w.length + w'.length
    · rw [if_pos ⟨hi, hi'⟩, if_pos (by omega), List.getElem?_append_right (by omega)]
      congr 1
      omega
    · rw [if_neg (by omega), if_neg (by omega), if_neg (by omega)]
  · rw [if_neg (by omega)]
    by_cases hi' : off ≤ i
    · rw [if_pos (by omega), if_pos (by omega), List.getElem?_append_left (by omega)]
    · rw [if_neg (by omega), if_neg (by omega)]

/-- Overwriting the front of a window, in the list. -/
theorem overlay_overlay_slice {l d : List α} {off n : ℕ} (h : off + n ≤ l.length)
    (hd : d.length ≤ n) : overlay l off (overlay (slice l off n) 0 d) = overlay l off d := by
  have hslice := length_slice h
  have hlen : (overlay (slice l off n) 0 d).length = n := by
    rw [length_overlay (by omega), hslice]
  apply List.ext_getElem?
  intro i
  rw [getElem?_overlay (by omega), getElem?_overlay (l := l) (w := d) (by omega), hlen]
  by_cases hi : off ≤ i ∧ i < off + n
  · rw [if_pos hi, getElem?_overlay (by omega), getElem?_slice, if_pos (by omega : i - off < n)]
    by_cases hi' : i < off + d.length
    · rw [if_pos (by omega), if_pos (by omega), Nat.sub_zero]
    · rw [if_neg (by omega), if_neg (by omega)]
      congr 1
      omega
  · rw [if_neg hi, if_neg (by omega)]

/-- **Copying a chunk** behind what was copied before. -/
theorem overlay_chunk {l w d : List α} {n : ℕ} (h : w.length + n ≤ l.length) (hd : d.length ≤ n) :
    overlay (overlay l 0 w) w.length (overlay (slice (overlay l 0 w) w.length n) 0 d) =
      overlay l 0 (w ++ d) := by
  have hlen : (overlay l 0 w).length = l.length := length_overlay (by omega)
  rw [overlay_overlay_slice (by omega) hd]
  have happend : overlay (overlay l 0 w) (0 + w.length) d = overlay l 0 (w ++ d) :=
    overlay_overlay_append (by omega)
  rwa [Nat.zero_add] at happend

/-- Overwriting the front. -/
theorem overlay_zero (l w : List α) : overlay l 0 w = w ++ l.drop w.length := by
  rw [overlay, List.take_zero, List.nil_append, Nat.zero_add]

/-- What follows a write at the start of a file is left alone. -/
theorem drop_overlay_zero {l data : List α} {n : ℕ} (h : data.length ≤ n) :
    (overlay l 0 data).drop n = l.drop n := by
  rw [overlay_zero, List.drop_append, List.drop_eq_nil_of_le h, List.nil_append, List.drop_drop,
    Nat.add_sub_cancel' h]

/-- Overwriting the whole front of a list, with what it was overwritten with before. -/
theorem overlay_zero_take {l w : List α} {n : ℕ} (hw : w.length ≤ n)
    (hn : n ≤ l.length) : overlay l 0 (overlay (l.take n) 0 w) = overlay l 0 w := by
  have hlen : (w ++ (l.take n).drop w.length).length = n := by
    simp only [List.length_append, List.length_drop, List.length_take]
    omega
  have hdrop : l.drop n = (l.drop w.length).drop (n - w.length) := by
    rw [List.drop_drop, Nat.add_sub_cancel' hw]
  rw [overlay_zero (l.take n), overlay_zero, overlay_zero, hlen, List.append_assoc,
    List.drop_take, hdrop, List.take_append_drop]

/-! ### Reading loops -/

section Loops

variable {σ W : Type} {J : ℕ → List α → σ → W → Prop} {Q : ℕ × List α → σ → W → Prop}
  {inv : σ → W → Prop} {offset len total : ℕ} {buf buf' : List α} {t t' : σ} {w w' : W}

/-- What a chunk leaves: a short answer ends the loop with `Q`, an answer in full keeps `J`. -/
def ChunkRead (J : ℕ → List α → σ → W → Prop) (Q : ℕ × List α → σ → W → Prop)
    (total chunk : ℕ) (buf : List α) (r : ℕ × List α) (t : σ) (w : W) : Prop :=
  if r.1 < chunk then Q (total + r.1, overlay buf total r.2) t w
  else r.1 = chunk ∧ J (total + chunk) (overlay buf total r.2) t w

/-- A read of `len` items into `buf` that has received `total` of them. -/
def ReadSoFar (chunk : ℕ) (read : ℕ → ℕ → List α) (offset len : ℕ) (buf : List α)
    (inv : σ → W → Prop) (total : ℕ) (buf' : List α) (t : σ) (w : W) : Prop :=
  inv t w ∧ ∃ pre, pre.length = total ∧ buf' = overlay buf 0 pre ∧
    ReceivedSoFar chunk read offset len pre

namespace ReadSoFar

theorem start (h : inv t w) : ReadSoFar chunk read offset len buf inv 0 buf t w :=
  ⟨h, [], rfl, rfl, .start ..⟩

theorem kept (h : ReadSoFar chunk read offset len buf inv total buf' t w) : inv t w := h.1

theorem length_buf (h : ReadSoFar chunk read offset len buf inv total buf' t w)
    (hbuf : len ≤ buf.length) : buf'.length = buf.length := by
  obtain ⟨-, pre, -, rfl, hpre⟩ := h
  have hle := hpre.le
  exact length_overlay (by omega)

/-- It has all it wants. -/
theorem done (h : ReadSoFar chunk read offset len buf inv total buf' t w) (hdone : len ≤ total) :
    (total, buf') = ((received chunk read offset len).length,
      overlay buf 0 (received chunk read offset len)) := by
  obtain ⟨-, pre, rfl, rfl, hpre⟩ := h
  rw [hpre.of_done hdone]

/-- **It gets another answer**, of no more than it asked for. -/
theorem chunkRead (h : ReadSoFar chunk read offset len buf inv total buf' t w)
    (hbuf : len ≤ buf.length) (hchunk : 0 < chunk) (hlt : total < len)
    (hread : (read (offset + total) (min (len - total) chunk)).length ≤ min (len - total) chunk)
    (hinv : inv t' w')
    (hQ : Q ((received chunk read offset len).length,
      overlay buf 0 (received chunk read offset len)) t' w') :
    ChunkRead (ReadSoFar chunk read offset len buf inv) Q total (min (len - total) chunk) buf'
      ((read (offset + total) (min (len - total) chunk)).length,
        overlay (slice buf' total (min (len - total) chunk)) 0
          (read (offset + total) (min (len - total) chunk))) t' w' := by
  obtain ⟨-, pre, rfl, rfl, hpre⟩ := h
  rw [ChunkRead, overlay_chunk (by omega) hread]
  split
  · rename_i hshort
    rw [← List.length_append, ← hpre.of_short hlt hchunk hshort]
    exact hQ
  · have hfull : (read (offset + pre.length) (min (len - pre.length) chunk)).length =
        min (len - pre.length) chunk := by omega
    refine ⟨hfull, hinv, _, ?_, rfl, hpre.of_full hlt hchunk hfull⟩
    rw [List.length_append, hfull]

end ReadSoFar

/-- A transfer that is not done stands in front of a chunk. -/
def AtChunk (chunk target total : ℕ) : Prop := total < target → ∃ k, total = chunk * k

theorem AtChunk.zero (chunk target : ℕ) : AtChunk chunk target 0 := fun _ => ⟨0, rfl⟩

/-- Behind a chunk there is the next, or the end. -/
theorem AtChunk.next {chunk target total : ℕ} (h : AtChunk chunk target total)
    (hlt : total < target) : AtChunk chunk target (total + min (target - total) chunk) := by
  intro hmore
  obtain ⟨k, rfl⟩ := h hlt
  exact ⟨k + 1, by rw [Nat.mul_succ]; omega⟩

/-- A read on its way stands in front of a chunk, and has left the buffer its length. -/
def InBuffer (chunk L target : ℕ) (inv : σ → W → Prop) (total : ℕ) (buf : List α) (t : σ)
    (w : W) : Prop :=
  buf.length = L ∧ AtChunk chunk target total ∧ inv t w

/-- **One more chunk**, within the buffer. -/
theorem InBuffer.next {L target : ℕ} (h : InBuffer chunk L target inv total buf t w)
    (hL : target ≤ L) (hlt : total < target) {part : List α}
    (hpart : part.length = min (target - total) chunk) (hinv : inv t' w') :
    InBuffer chunk L target inv (total + min (target - total) chunk) (overlay buf total part)
      t' w' := by
  obtain ⟨hbuf, hat, -⟩ := h
  exact ⟨by rw [length_overlay (by omega), hbuf], hat.next hlt, hinv⟩

/-- A chunk that was answered with no more than was asked for. -/
theorem InBuffer.chunkRead {L target : ℕ} (h : InBuffer chunk L target inv total buf t w)
    (hL : target ≤ L) (hlt : total < target) {r : ℕ × List α}
    (hcount : r.1 ≤ min (target - total) chunk) (hpart : r.2.length = min (target - total) chunk)
    (hinv : inv t' w') :
    ChunkRead (InBuffer chunk L target inv) (fun _ => inv) total (min (target - total) chunk) buf r
      t' w' := by
  rw [ChunkRead]
  split
  · exact hinv
  · exact ⟨by omega, h.next hL hlt hpart hinv⟩

/-- The part of the buffer that a chunk goes into. -/
theorem InBuffer.length_part {L target : ℕ} (h : InBuffer chunk L target inv total buf t w)
    (hL : target ≤ L) (hlt : total < target) :
    (slice buf total (min (target - total) chunk)).length = min (target - total) chunk :=
  length_slice (by rw [h.1]; omega)

end Loops

end Reading

section Writing

variable {α : Type*}

/-- Where the last chunk of `len` items starts. -/
def lastStart (chunk len : ℕ) : ℕ := chunk * ((len - 1) / chunk)

/-- Chunks start at multiples of their size. -/
theorem le_lastStart {chunk len k : ℕ} (h : chunk * k < len) : chunk * k ≤ lastStart chunk len := by
  rcases Nat.eq_zero_or_pos chunk with rfl | hchunk
  · simp [lastStart]
  · refine Nat.mul_le_mul_left chunk ((Nat.le_div_iff_mul_le hchunk).mpr ?_)
    rw [Nat.mul_comm]
    omega

/-- The last of `k` chunks starts behind the others. -/
theorem lastStart_le {chunk len k : ℕ} (hchunk : 0 < chunk) (h : len ≤ chunk * k) :
    lastStart chunk len ≤ chunk * (k - 1) := by
  refine Nat.mul_le_mul_left chunk ?_
  rcases k with _ | k
  · rw [Nat.mul_zero] at h
    rw [show len - 1 = 0 by omega, Nat.zero_div]
  · rw [Nat.add_sub_cancel, Nat.div_le_iff_le_mul_add_pred hchunk]
    rw [Nat.mul_succ] at h
    omega

theorem lastStart_le_self (chunk len : ℕ) : lastStart chunk len ≤ len := by
  have := Nat.mul_div_le (len - 1) chunk
  rw [lastStart]
  omega

/-- The last chunk starts where the whole ones end. -/
theorem lastStart_mul_add {chunk k n : ℕ} (hn : 0 < n) (hle : n ≤ chunk) :
    lastStart chunk (chunk * k + n) = chunk * k := by
  rw [lastStart, show chunk * k + n - 1 = n - 1 + chunk * k by omega,
    Nat.add_mul_div_left _ _ (by omega), Nat.div_eq_of_lt (by omega), Nat.zero_add]

/-- **The first chunk that is far.** What holds of the first chunk that is too far, and of every
chunk before it if it holds of the next, holds of the first chunk of all. -/
theorem chunks_until_far {motive p : ℕ → Prop} {chunk len : ℕ} (hlen : 0 < len)
    (hfar : p (lastStart chunk len))
    (first : ∀ k, chunk * k < len → p (chunk * k) → (∀ j < k, ¬ p (chunk * j)) →
      motive (chunk * k))
    (step : ∀ k, chunk * (k + 1) < len → ¬ p (chunk * k) → motive (chunk * (k + 1)) →
      motive (chunk * k)) : motive 0 := by
  classical
  have hexists : ∃ k, p (chunk * k) := ⟨_, hfar⟩
  have hwithin : ∀ k ≤ Nat.find hexists, chunk * k < len := by
    intro k hk
    have hlast : chunk * k ≤ lastStart chunk len :=
      Nat.mul_le_mul_left chunk (hk.trans (Nat.find_min' hexists hfar))
    have hself := Nat.mul_div_le (len - 1) chunk
    rw [lastStart] at hlast
    omega
  -- downwards from the first chunk that is far
  have hbefore : ∀ k ≤ Nat.find hexists, motive (chunk * k) := by
    intro k hk
    induction hk using Nat.decreasingInduction with
    | self =>
        exact first _ (hwithin _ le_rfl) (Nat.find_spec hexists) fun _ hj =>
          Nat.find_min hexists hj
    | of_succ k hk ih => exact step k (hwithin _ hk) (Nat.find_min hexists hk) ih
  exact hbefore 0 (Nat.zero_le _)

/-- The pieces lie one behind the other from `offset` on, each with its length, and make up the
list. -/
def Tiles : ℕ → List (ℕ × ℕ × List α) → List α → Prop
  | _, [], l => l = []
  | offset, (o, n, part) :: pieces, l =>
      o = offset ∧ n = part.length ∧ ∃ l', l = part ++ l' ∧ Tiles (offset + n) pieces l'

/-- The last piece makes up the end of the list. -/
theorem tiles_append_singleton {offset o n : ℕ} {pieces : List (ℕ × ℕ × List α)}
    {part l : List α} :
    Tiles offset (pieces ++ [(o, n, part)]) l ↔
      ∃ l', l = l' ++ part ∧ Tiles offset pieces l' ∧ o = offset + l'.length ∧ n = part.length := by
  induction pieces generalizing offset l with
  | nil =>
      constructor
      · rintro ⟨rfl, rfl, l', rfl, rfl⟩
        exact ⟨[], List.append_nil part, rfl, rfl, rfl⟩
      · rintro ⟨l', rfl, rfl, rfl, rfl⟩
        exact ⟨rfl, rfl, [], (List.append_nil part).symm, rfl⟩
  | cons piece pieces ih =>
      obtain ⟨o', n', part'⟩ := piece
      constructor
      · rintro ⟨rfl, rfl, l', rfl, hrest⟩
        obtain ⟨l'', rfl, hpieces, rfl, rfl⟩ := ih.mp hrest
        refine ⟨part' ++ l'', (List.append_assoc ..).symm, ⟨rfl, rfl, l'', rfl, hpieces⟩, ?_, rfl⟩
        rw [List.length_append, Nat.add_assoc]
      · rintro ⟨_, rfl, ⟨rfl, rfl, l', rfl, hpieces⟩, rfl, rfl⟩
        refine ⟨rfl, rfl, l' ++ part, List.append_assoc .., ih.mpr ⟨l', rfl, hpieces, ?_, rfl⟩⟩
        rw [List.length_append, Nat.add_assoc]

/-- One more piece. -/
theorem tiles_concat {offset o n : ℕ} {pieces : List (ℕ × ℕ × List α)} {part l : List α} :
    Tiles offset (pieces ++ [(o, n, part)]) (l ++ part) ↔
      Tiles offset pieces l ∧ o = offset + l.length ∧ n = part.length := by
  rw [tiles_append_singleton]
  constructor
  · rintro ⟨l', hl, h⟩
    obtain rfl := List.append_cancel_right hl
    exact h
  · intro h
    exact ⟨l, rfl, h⟩

end Writing
