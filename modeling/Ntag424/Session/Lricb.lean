import Mathlib.Tactic.Common
import Ntag424.Session.InPlace

/-!
# The LRICB Counter

`lricb_encrypt_in_place` and `lricb_decrypt_in_place` unpack the counter into a scratch buffer of
32 nibbles, increment the nibbles with a carry loop after each block, and pack them again at the
end. The definitions here keep the scratch buffer and its indices. What the caller sees is a
big-endian number that grows by one with each block and wraps at its width.

## Main results

* `lricbScratch_eq`: with the scratch buffer, LRICB is the loop of `lricbInPlace`.
* `lricb_counts`: the counter after the call, the counter of each block, and a buffer processed in
  two parts, for encryption and decryption.
-/

namespace Ntag424

open BlockMode Numerals

/-! ### The scratch buffer -/

/-- The loop of `load_counter` from byte `i` on: byte `i` of the counter goes to the nibbles
`2 * i` and `2 * i + 1`. -/
def loadNibbles (i : ℕ) : List UInt8 → List Nibble → List Nibble
  | [], scratch => scratch
  | b :: bs, scratch =>
      loadNibbles (i + 1) bs
        ((scratch.set (2 * i) (Nibble.fromMasked (b >>> 4))).set (2 * i + 1)
          (Nibble.fromMasked b))

/-- `load_counter` with its scratch buffer, which the caller has set to zero. -/
def loadScratch (counter : List UInt8) : Option (List Nibble) :=
  if counter = [] ∨ lricbCounterMaxBytes < counter.length then none
  else
    let scratch := loadNibbles 0 counter (List.replicate (2 * lricbCounterMaxBytes) (.fromMasked 0))
    some (scratch.take (counter.length * 2))

/-- `store_counter`: byte `i` of the counter from the nibbles `2 * i` and `2 * i + 1`, of which
there are enough. -/
def storeCounter (nibs : List Nibble) (counter : List UInt8) : List UInt8 :=
  counter.mapIdx fun i _ =>
    UInt8.ofNat (nibs.getD (2 * i) (.fromMasked 0)).val <<< 4 |||
      UInt8.ofNat (nibs.getD (2 * i + 1) (.fromMasked 0)).val

/-- `lricb_encrypt_in_place` and `lricb_decrypt_in_place` with the scratch buffer, where `f` is the
block function under the nibbles of the counter: what they return, the counter and the buffer
after the call. -/
def lricbScratch (f : List Nibble → Block → Block) (counter buf : List UInt8) :
    Option Unit × List UInt8 × List UInt8 :=
  if buf = [] ∨ buf.length % 16 ≠ 0 then (none, counter, buf)
  else
    match loadScratch counter with
    | none => (none, counter, buf)
    | some nibs =>
        let loop := chunksMut (fun nibs chunk => (incNibbles nibs, f nibs chunk)) nibs buf
        (some (), storeCounter loop.1 counter, loop.2)

/-- The nibbles in front of the loaded ones stay, those behind them too. -/
theorem loadNibbles_append (bs : List UInt8) (front scratch : List Nibble) {i : ℕ}
    (hfront : front.length = 2 * i) (hroom : 2 * bs.length ≤ scratch.length) :
    loadNibbles i bs (front ++ scratch) =
      front ++ nibbles bs ++ scratch.drop (2 * bs.length) := by
  induction bs generalizing front scratch i with
  | nil => simp only [loadNibbles, nibbles, List.append_nil, List.length_nil, Nat.mul_zero,
      List.drop_zero]
  | cons b bs ih =>
      obtain _ | ⟨hi, _ | ⟨lo, scratch⟩⟩ := scratch
      · simp only [List.length_cons, List.length_nil] at hroom
        omega
      · simp only [List.length_cons, List.length_nil] at hroom
        omega
      · have hset : (((front ++ hi :: lo :: scratch).set (2 * i) (Nibble.fromMasked (b >>> 4))).set
            (2 * i + 1) (Nibble.fromMasked b)) =
            (front ++ [Nibble.fromMasked (b >>> 4), Nibble.fromMasked b]) ++ scratch := by
          rw [← hfront, List.set_append_right _ _ (Nat.le_refl _), Nat.sub_self, List.set_cons_zero,
            List.set_append_right _ _ (Nat.le_add_right _ 1), Nat.add_sub_cancel_left,
            List.set_cons_succ, List.set_cons_zero, List.append_assoc]
          rfl
        have hlen : (front ++ [Nibble.fromMasked (b >>> 4), Nibble.fromMasked b]).length =
            2 * (i + 1) := by
          rw [List.length_append, hfront]
          rfl
        have hrest : 2 * bs.length ≤ scratch.length := by
          simp only [List.length_cons] at hroom
          omega
        rw [loadNibbles, hset, ih _ _ hlen hrest, List.length_cons, Nat.mul_succ, nibbles]
        simp only [List.append_assoc, List.cons_append, List.nil_append, List.drop_succ_cons]

/-- The scratch buffer holds the nibbles of the counter. -/
theorem loadScratch_eq (counter : List UInt8) : loadScratch counter = loadCounter counter := by
  rw [loadScratch, loadCounter]
  split
  · rfl
  · rename_i h
    have hmax : counter.length ≤ 16 := Nat.not_lt.mp fun hlt => h (.inr hlt)
    have hroom : 2 * counter.length ≤
        (List.replicate (2 * lricbCounterMaxBytes) (Nibble.fromMasked 0)).length := by
      rw [List.length_replicate, lricbCounterMaxBytes]
      omega
    have hload := loadNibbles_append counter []
      (List.replicate (2 * lricbCounterMaxBytes) (.fromMasked 0))
      (i := 0) rfl hroom
    rw [List.nil_append, List.nil_append] at hload
    simp only [hload]
    rw [List.take_left' (by rw [length_nibbles, Nat.mul_comm])]

/-- Packing gives the bytes of the nibbles. -/
theorem storeCounter_eq {nibs : List Nibble} {counter : List UInt8}
    (h : nibs.length = 2 * counter.length) : storeCounter nibs counter = ofNibbles nibs := by
  induction counter generalizing nibs with
  | nil =>
      obtain rfl := List.length_eq_zero_iff.mp h
      rfl
  | cons c counter ih =>
      obtain _ | ⟨hi, _ | ⟨lo, nibs⟩⟩ := nibs
      · cases h
      · simp only [List.length_cons, List.length_nil] at h
        omega
      · have hlen : nibs.length = 2 * counter.length := by
          simp only [List.length_cons] at h
          omega
        rw [ofNibbles, ← ih hlen, storeCounter, storeCounter, List.mapIdx_cons]
        rfl

/-- **The scratch buffer does not show.** -/
theorem lricbScratch_eq (f : List Nibble → Block → Block) (counter buf : List UInt8) :
    lricbScratch f counter buf = lricbInPlace f counter buf := by
  rw [lricbScratch, lricbInPlace, loadScratch_eq]
  split
  · rfl
  · rename_i hbuf
    cases hload : loadCounter counter with
    | none => rfl
    | some nibs =>
      have hlen : (incNibbles^[buf.length / 16] nibs).length = 2 * counter.length := by
        rw [loadCounter] at hload
        split at hload
        · cases hload
        · obtain rfl := Option.some.inj hload
          rw [length_iterate_incNibbles, length_nibbles]
      have hblocks : buf.length % 16 = 0 := by omega
      simp only [chunksMut_eq _ _ hblocks, traverse_ctr, ctrMap_snd, length_toBlocks,
        storeCounter_eq hlen]

/-! ### The counter -/

/-- What a caller sees of LRICB on a buffer of whole blocks: block `i` goes through `crypt` under
the bytes of the counter plus `i`, the counter grows by the number of blocks, modulo its width,
and a buffer can be processed in two parts. -/
structure CountsBlocks (run : List UInt8 → List UInt8 → Option Unit × List UInt8 × List UInt8)
    (crypt : List UInt8 → Block → Block) (counter buf : List UInt8) : Prop where
  succeeds : (run counter buf).1 = some ()
  length_counter : (run counter buf).2.1.length = counter.length
  counter_after : ofBe (run counter buf).2.1 =
    (ofBe counter + buf.length / 16) % 256 ^ counter.length
  length_buf : (run counter buf).2.2.length = buf.length
  block : ∀ i, (toBlocks (run counter buf).2.2)[i]? =
    (toBlocks buf)[i]?.map (crypt (beBytes counter.length (ofBe counter + i)))
  append : ∀ rest : List UInt8, rest ≠ [] → rest.length % 16 = 0 →
    run counter (buf ++ rest) =
      let first := run counter buf
      let second := run first.2.1 rest
      (second.1, second.2.1, first.2.2 ++ second.2.2)

/-- What the loop returns on a buffer and a counter it accepts. -/
theorem lricbScratch_of_valid (f : List Nibble → Block → Block) {counter buf : List UInt8}
    (hbuf : buf ≠ []) (hblocks : buf.length % 16 = 0) (hcounter : counter ≠ [])
    (hmax : counter.length ≤ lricbCounterMaxBytes) :
    lricbScratch f counter buf =
      (some (), beBytes counter.length (ofBe counter + buf.length / 16),
        ofBlocks (ctrMap incNibbles f (nibbles counter) (toBlocks buf)).1) := by
  rw [lricbScratch_eq, lricbInPlace_eq, Lrp.lricb_of_valid hbuf hblocks hcounter hmax]

/-- The carried counter has the nibbles that the loop has reached. -/
theorem nibbles_beBytes (counter : List UInt8) (k : ℕ) :
    nibbles (beBytes counter.length (ofBe counter + k)) = incNibbles^[k] (nibbles counter) := by
  rw [← ofNibbles_iterate_incNibbles, nibbles_ofNibbles (k := counter.length)]
  rw [length_iterate_incNibbles, length_nibbles]

/-- LRICB counts blocks, whatever the block function. -/
theorem countsBlocks (f : List Nibble → Block → Block) {counter buf : List UInt8}
    (hbuf : buf ≠ []) (hblocks : buf.length % 16 = 0) (hcounter : counter ≠ [])
    (hmax : counter.length ≤ lricbCounterMaxBytes) :
    CountsBlocks (lricbScratch f) (fun c => f (nibbles c)) counter buf := by
  have hrun := lricbScratch_of_valid f hbuf hblocks hcounter hmax
  refine
    { succeeds := ?_, length_counter := ?_, counter_after := ?_, length_buf := ?_, block := ?_,
      append := ?_ }
  · rw [hrun]
  · rw [hrun, length_beBytes]
  · rw [hrun, ofBe_beBytes]
  · rw [hrun, length_ofBlocks, length_ctrMap, length_toBlocks]
    omega
  · intro i
    rw [hrun, toBlocks_ofBlocks, getElem?_ctrMap, nibbles_beBytes]
  · intro rest hrest hrestBlocks
    have hall : buf ++ rest ≠ [] := List.append_ne_nil_of_left_ne_nil hbuf rest
    have hallBlocks : (buf ++ rest).length % 16 = 0 := by
      rw [List.length_append]
      omega
    have hlen := length_beBytes counter.length (ofBe counter + buf.length / 16)
    have hcarried : beBytes counter.length (ofBe counter + buf.length / 16) ≠ [] := by
      intro hnil
      rw [hnil, List.length_nil] at hlen
      exact hcounter (List.length_eq_zero_iff.mp hlen.symm)
    have hsecond := lricbScratch_of_valid f hrest hrestBlocks hcarried (hlen.trans_le hmax)
    rw [hlen, ofBe_beBytes, nibbles_beBytes] at hsecond
    have hcount : beBytes counter.length
        ((ofBe counter + buf.length / 16) % 256 ^ counter.length + rest.length / 16) =
        beBytes counter.length (ofBe counter + (buf ++ rest).length / 16) := by
      rw [← beBytes_mod, Nat.mod_add_mod, beBytes_mod, List.length_append]
      congr 1
      omega
    rw [lricbScratch_of_valid f hall hallBlocks hcounter hmax]
    simp only [hrun, hsecond, hcount, toBlocks_append hblocks hrestBlocks, ctrMap_append,
      ofBlocks_append, length_toBlocks]

variable (P : Primitives)

/-- The key that `eval_lrp` derives for a block from the bytes of its counter. -/
def Lrp.blockKey (lrp : Lrp) (counter : List UInt8) : Key :=
  evalLrp P lrp.plaintexts lrp.kPrime (nibbles counter) true

/-- **LRICB counts blocks** in both directions: each block is encrypted or decrypted with AES under
the key that belongs to its own counter. -/
theorem lricb_counts (lrp : Lrp) (counter buf : List UInt8) (hcounter : counter ≠ [])
    (hmax : counter.length ≤ lricbCounterMaxBytes) (hbuf : buf ≠ [])
    (hblocks : buf.length % 16 = 0) :
    CountsBlocks
      (lricbScratch fun nibs =>
        P.aesEncrypt (evalLrp P lrp.plaintexts lrp.kPrime nibs true))
      (fun c => P.aesEncrypt (lrp.blockKey P c)) counter buf ∧
    CountsBlocks
      (lricbScratch fun nibs =>
        P.aesDecrypt (evalLrp P lrp.plaintexts lrp.kPrime nibs true))
      (fun c => P.aesDecrypt (lrp.blockKey P c)) counter buf :=
  ⟨countsBlocks _ hbuf hblocks hcounter hmax, countsBlocks _ hbuf hblocks hcounter hmax⟩

/-- A counter of one byte at its end, over two blocks. -/
theorem lricb_counts_wrap :
    CountsBlocks
      (lricbScratch fun nibs => Primitives.standard.aesEncrypt
        (evalLrp .standard (fun _ => Bytes.zeros 16) (Bytes.zeros 16) nibs true))
      (fun c => Primitives.standard.aesEncrypt
        (Lrp.blockKey .standard ⟨fun _ => Bytes.zeros 16, Bytes.zeros 16⟩ c))
      [0xFF] (List.replicate 32 0) :=
  (lricb_counts .standard ⟨fun _ => Bytes.zeros 16, Bytes.zeros 16⟩ [0xFF] (List.replicate 32 0)
    (by decide) (by decide) (by decide) (by decide)).1

end Ntag424
