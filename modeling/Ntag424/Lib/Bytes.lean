import Mathlib.Data.List.TakeDrop
import Mathlib.Data.List.TakeWhile
import Mathlib.Tactic.Ext
import Mathlib.Tactic.Common

/-!
# Fixed-Length Byte Strings and Windows of Byte Buffers

Two small layers that every later module reads its buffers through.

* `Bytes n` is a byte string that carries its length as a field, the counterpart of an
  array `[u8; n]`: a value of the wrong length cannot be built, and conversions from
  slices are either checked (`Bytes.ofList?`) or total by zero filling (`Bytes.fill`).
* `slice l off len` is the window `l[off .. off + len]` of a list, and `overlay l off w`
  overwrites the window of `w` inside `l`. The overlay lemmas say what a later read sees:
  the written bytes inside the window, the old ones in every window disjoint from it.

## Main results

* `Bytes.xor_xor_cancel`: XOR with the same string twice is the identity.
* `slice_overlay_self`, `slice_overlay_of_disjoint`: reading back after an overwrite.
* `slice_overlayAll_of_mem`, `slice_overlayAll_of_disjoint`: the same after several disjoint
  writes.
* `slice_congr`: a window depends only on the positions inside it.
* `touched_overlay`, `touched_overlayAll`: writes change only the positions they cover.
-/

/-! ### Byte strings of a fixed length -/

/-- A byte string of length `n`. -/
structure Bytes (n : ℕ) where
  /-- The bytes, first byte first. -/
  toList : List UInt8
  /-- The length is part of the type. -/
  length_toList : toList.length = n
deriving DecidableEq, Repr

namespace Bytes

variable {m n : ℕ}

attribute [simp] length_toList

@[ext] theorem ext {a b : Bytes n} (h : a.toList = b.toList) : a = b := by
  cases a
  cases b
  simp only [mk.injEq]
  exact h

/-- The string of `n` zero bytes. -/
def zeros (n : ℕ) : Bytes n := ⟨List.replicate n 0, List.length_replicate⟩

/-- A list of exactly `n` bytes as a byte string; `none` for every other length. -/
def ofList? (n : ℕ) (l : List UInt8) : Option (Bytes n) :=
  if h : l.length = n then some ⟨l, h⟩ else none

/-- The first `n` bytes of a list, filled up with zero bytes. -/
def fill (n : ℕ) (l : List UInt8) : Bytes n := ⟨l.takeD n 0, List.takeD_length n l 0⟩

/-- Concatenation. -/
def append (a : Bytes m) (b : Bytes n) : Bytes (m + n) :=
  ⟨a.toList ++ b.toList, by simp⟩

/-- Bytewise exclusive or. -/
def xor (a b : Bytes n) : Bytes n :=
  ⟨List.zipWith (· ^^^ ·) a.toList b.toList, by simp⟩

/-- The byte at an index, zero past the end. -/
def byte (a : Bytes n) (i : ℕ) : UInt8 := a.toList.getD i 0

@[simp] theorem toList_zeros : (zeros n).toList = List.replicate n 0 := rfl

@[simp] theorem toList_append (a : Bytes m) (b : Bytes n) :
    (a.append b).toList = a.toList ++ b.toList := rfl

@[simp] theorem toList_xor (a b : Bytes n) :
    (a.xor b).toList = List.zipWith (· ^^^ ·) a.toList b.toList := rfl

/-- Two bytes are listed by their indices. -/
theorem toList_eq_pair (a : Bytes 2) : a.toList = [a.byte 0, a.byte 1] := by
  obtain ⟨l, hl⟩ := a
  rcases l with _ | ⟨x, _ | ⟨y, _ | ⟨z, l⟩⟩⟩
  · cases hl
  · cases hl
  · rfl
  · cases hl

theorem toList_ne_nil (a : Bytes (n + 1)) : a.toList ≠ [] := by
  intro h
  have := a.length_toList
  rw [h] at this
  cases this

@[simp] theorem ofList?_toList (a : Bytes n) : ofList? n a.toList = some a := by
  simp [ofList?]

/-- A checked conversion succeeds exactly on lists of the right length. -/
theorem ofList?_eq_some_iff {l : List UInt8} {a : Bytes n} :
    ofList? n l = some a ↔ l = a.toList := by
  constructor
  · intro h
    unfold ofList? at h
    split at h
    · cases h
      rfl
    · cases h
  · rintro rfl
    exact ofList?_toList a

/-- Zero filling a list that already has the right length changes nothing. -/
theorem toList_fill_of_length {l : List UInt8} (h : l.length = n) : (fill n l).toList = l := by
  subst h
  simp [fill, List.takeD_eq_take]

@[simp] theorem fill_toList (a : Bytes n) : fill n a.toList = a :=
  ext (toList_fill_of_length a.length_toList)

/-- Filling reads no more than the bytes it needs. -/
@[simp] theorem fill_take (l : List UInt8) : fill n (l.take n) = fill n l := by
  apply ext
  simp only [fill]
  induction n generalizing l with
  | zero => rfl
  | succ n ih =>
      cases l with
      | nil => rfl
      | cons b l => simp [List.takeD_succ, ih]

/-- Zeros at the end of a list are filled in anyway. -/
theorem fill_append_replicate_zero (l : List UInt8) (k : ℕ) :
    fill n (l ++ List.replicate k 0) = fill n l := by
  apply ext
  simp only [fill]
  induction n generalizing l k with
  | zero => rfl
  | succ n ih =>
      cases l with
      | cons b l =>
          simp only [List.cons_append, List.takeD_succ, List.head?_cons, List.tail_cons, ih]
      | nil =>
          cases k with
          | zero => rfl
          | succ k => simpa [List.replicate_succ, List.takeD_nil] using ih [] k

/-- Zero filling a short list appends the missing zero bytes. -/
theorem toList_fill_of_le {l : List UInt8} (h : l.length ≤ n) :
    (fill n l).toList = l ++ List.replicate (n - l.length) 0 := by
  induction l generalizing n with
  | nil => simp [fill, List.takeD_nil]
  | cons b l ih =>
      obtain ⟨n, rfl⟩ : ∃ k, n = k + 1 := ⟨n - 1, by simp at h; omega⟩
      have hl : l.length ≤ n := by simpa using h
      have := ih hl
      simp only [fill] at this ⊢
      simp [List.takeD, this]

/-- XOR with the same string twice gives the first string back. -/
@[simp] theorem xor_xor_cancel (a b : Bytes n) : (a.xor b).xor b = a := by
  apply ext
  obtain ⟨a, ha⟩ := a
  obtain ⟨b, hb⟩ := b
  simp only [toList_xor]
  induction a generalizing b n with
  | nil => simp
  | cons x a ih =>
      cases b with
      | nil => simp only [List.length_nil, List.length_cons] at ha hb; omega
      | cons y b =>
          obtain ⟨k, rfl⟩ : ∃ k, n = k + 1 := ⟨n - 1, by simp at ha; omega⟩
          have hxy : x ^^^ y ^^^ y = x := by
            rw [UInt8.xor_assoc, UInt8.xor_self, UInt8.xor_zero]
          simp only [List.zipWith_cons_cons, hxy, List.cons.injEq, true_and]
          exact ih (by simpa using ha) b (by simpa using hb)

theorem zeros_xor (a : Bytes n) : (zeros n).xor a = a := by
  apply ext
  obtain ⟨a, ha⟩ := a
  simp only [toList_xor, toList_zeros, ← ha]
  clear ha
  induction a with
  | nil => rfl
  | cons x a ih =>
      rw [List.length_cons, List.replicate_succ, List.zipWith_cons_cons, ih, UInt8.zero_xor]

/-- Only equal strings cancel. -/
theorem xor_eq_zeros_iff {a b : Bytes n} : a.xor b = zeros n ↔ a = b := by
  constructor
  · intro h
    rw [← xor_xor_cancel a b, h, zeros_xor]
  · rintro rfl
    calc a.xor a = ((zeros n).xor a).xor a := by rw [zeros_xor]
      _ = zeros n := xor_xor_cancel _ _

theorem xor_comm (a b : Bytes n) : a.xor b = b.xor a := by
  apply ext
  rw [toList_xor, toList_xor, List.zipWith_comm_of_comm UInt8.xor_comm]

/-- Only zeros change nothing. -/
theorem xor_eq_self_iff {a b : Bytes n} : a.xor b = a ↔ b = zeros n := by
  constructor
  · intro h
    rw [← xor_xor_cancel b a, xor_comm b a, h, xor_eq_zeros_iff]
  · rintro rfl
    rw [xor_comm, zeros_xor]

end Bytes

/-! ### Windows of a list -/

section Windows

variable {α : Type*}

/-- The window `l[off .. off + len]`, cut short at the end of the list. -/
def slice (l : List α) (off len : ℕ) : List α := (l.drop off).take len

/-- `l` with the bytes from `off` on overwritten by `w`. -/
def overlay (l : List α) (off : ℕ) (w : List α) : List α :=
  l.take off ++ w ++ l.drop (off + w.length)

theorem length_slice {l : List α} {off len : ℕ} (h : off + len ≤ l.length) :
    (slice l off len).length = len := by
  simp only [slice, List.length_take, List.length_drop]
  omega

theorem getElem?_slice (l : List α) (off len i : ℕ) :
    (slice l off len)[i]? = if i < len then l[off + i]? else none := by
  simp only [slice, List.getElem?_take, List.getElem?_drop]

@[simp] theorem slice_zero_length (l : List α) : slice l 0 l.length = l := by
  simp [slice]

/-- A window depends only on the positions inside it. -/
theorem slice_congr {l l' : List α} {off len : ℕ}
    (h : ∀ i, off ≤ i → i < off + len → l[i]? = l'[i]?) : slice l off len = slice l' off len := by
  apply List.ext_getElem?
  intro i
  rw [getElem?_slice, getElem?_slice]
  split
  · exact h (off + i) (by omega) (by omega)
  · rfl

/-- Equal windows agree at every position inside. -/
theorem getElem?_of_slice_eq {l l' : List α} {off len i : ℕ}
    (h : slice l off len = slice l' off len) (h₁ : off ≤ i) (h₂ : i < off + len) :
    l[i]? = l'[i]? := by
  have := congrArg (·[i - off]?) h
  simp only [getElem?_slice, show i - off < len by omega, if_true] at this
  rwa [show off + (i - off) = i by omega] at this

/-- A window inside a larger window on which two lists agree. -/
theorem slice_eq_of_slice_eq {l l' : List α} {off len off' len' : ℕ}
    (h : slice l off len = slice l' off len) (h₁ : off ≤ off') (h₂ : off' + len' ≤ off + len) :
    slice l off' len' = slice l' off' len' :=
  slice_congr fun _ hi hi' => getElem?_of_slice_eq h (by omega) (by omega)

/-- A window of a concatenation past the first part. -/
theorem slice_append_right (p l : List α) (off len : ℕ) :
    slice (p ++ l) (p.length + off) len = slice l off len := by
  rw [slice, slice, List.drop_append, List.drop_eq_nil_of_le (by omega), List.nil_append,
    Nat.add_sub_cancel_left]

/-- Reading a field back from where it was written. -/
theorem Bytes.fill_slice {n : ℕ} {l p t : List UInt8} {b : Bytes n} {m : ℕ}
    (hl : l = p ++ (b.toList ++ t)) (hm : p.length = m) : Bytes.fill n (slice l m n) = b := by
  rw [hl, slice, List.drop_left' hm, List.take_left' b.length_toList, Bytes.fill_toList]

theorem length_overlay {l w : List α} {off : ℕ} (h : off + w.length ≤ l.length) :
    (overlay l off w).length = l.length := by
  simp only [overlay, List.length_append, List.length_take, List.length_drop]
  omega

theorem getElem?_overlay {l w : List α} {off : ℕ} (h : off + w.length ≤ l.length) (i : ℕ) :
    (overlay l off w)[i]? =
      if off ≤ i ∧ i < off + w.length then w[i - off]? else l[i]? := by
  have hoff : (l.take off).length = off := by simp; omega
  unfold overlay
  rcases Nat.lt_or_ge i off with hi | hi
  · rw [List.append_assoc, List.getElem?_append_left (by omega), List.getElem?_take,
      if_pos hi, if_neg (by omega)]
  · rcases Nat.lt_or_ge i (off + w.length) with hi' | hi'
    · rw [List.getElem?_append_left (by simp; omega), List.getElem?_append_right (by omega), hoff,
        if_pos ⟨hi, hi'⟩]
    · rw [List.getElem?_append_right (by simp; omega), List.getElem?_drop, if_neg (by omega)]
      congr 1
      simp only [List.length_append, hoff]
      omega

/-- Reading the overwritten window gives the written bytes. -/
theorem slice_overlay_self {l w : List α} {off : ℕ} (h : off + w.length ≤ l.length) :
    slice (overlay l off w) off w.length = w := by
  apply List.ext_getElem?
  intro i
  rw [getElem?_slice, getElem?_overlay h]
  split
  · rw [if_pos (by omega), show off + i - off = i by omega]
  · rw [List.getElem?_eq_none (by omega)]

/-- Reading a window disjoint from the overwritten one gives the old bytes. -/
theorem slice_overlay_of_disjoint {l w : List α} {off off' len : ℕ}
    (h : off + w.length ≤ l.length) (hd : off' + len ≤ off ∨ off + w.length ≤ off') :
    slice (overlay l off w) off' len = slice l off' len :=
  slice_congr fun i hi hi' => by rw [getElem?_overlay h, if_neg (by omega)]

/-- Overwrite several windows, one after the other. -/
def overlayAll (l : List α) (ws : List (ℕ × List α)) : List α :=
  ws.foldl (fun l w => overlay l w.1 w.2) l

theorem length_overlayAll {l : List α} {ws : List (ℕ × List α)}
    (h : ∀ w ∈ ws, w.1 + w.2.length ≤ l.length) : (overlayAll l ws).length = l.length := by
  induction ws generalizing l with
  | nil => rfl
  | cons w ws ih =>
      have hw := length_overlay (h w List.mem_cons_self)
      have := ih (l := overlay l w.1 w.2) fun w' hw' => by
        rw [hw]
        exact h w' (List.mem_cons_of_mem w hw')
      rw [overlayAll, List.foldl_cons]
      exact this.trans hw

/-- A window that no write touches reads as before. -/
theorem slice_overlayAll_of_disjoint {l : List α} {ws : List (ℕ × List α)} {off len : ℕ}
    (h : ∀ w ∈ ws, w.1 + w.2.length ≤ l.length)
    (hd : ∀ w ∈ ws, off + len ≤ w.1 ∨ w.1 + w.2.length ≤ off) :
    slice (overlayAll l ws) off len = slice l off len := by
  induction ws generalizing l with
  | nil => rfl
  | cons w ws ih =>
      have hw := h w List.mem_cons_self
      rw [overlayAll, List.foldl_cons]
      have hrest := ih (l := overlay l w.1 w.2)
        (fun w' hw' => by
          rw [length_overlay hw]
          exact h w' (List.mem_cons_of_mem w hw'))
        fun w' hw' => hd w' (List.mem_cons_of_mem w hw')
      exact hrest.trans (slice_overlay_of_disjoint hw (hd w List.mem_cons_self))

/-- After disjoint writes every window reads as written. -/
theorem slice_overlayAll_of_mem {l : List α} {ws : List (ℕ × List α)} {w : ℕ × List α}
    (hw : w ∈ ws) (h : ∀ w ∈ ws, w.1 + w.2.length ≤ l.length)
    (hd : ws.Pairwise fun w w' => w.1 + w.2.length ≤ w'.1 ∨ w'.1 + w'.2.length ≤ w.1) :
    slice (overlayAll l ws) w.1 w.2.length = w.2 := by
  induction ws generalizing l with
  | nil => cases hw
  | cons w₀ ws ih =>
      obtain ⟨hhead, htail⟩ := List.pairwise_cons.mp hd
      have hw₀ := h w₀ List.mem_cons_self
      have hrest : ∀ w' ∈ ws, w'.1 + w'.2.length ≤ (overlay l w₀.1 w₀.2).length := by
        intro w' hw'
        rw [length_overlay hw₀]
        exact h w' (List.mem_cons_of_mem w₀ hw')
      rw [overlayAll, List.foldl_cons]
      obtain rfl | hmem := List.mem_cons.mp hw
      · exact (slice_overlayAll_of_disjoint hrest hhead).trans (slice_overlay_self hw₀)
      · exact ih hmem hrest htail

/-! ### Positions that writes touch -/

/-- `l'` has the length of `l` and differs from it only at positions in `W`, where it holds
elements with the property `Q`. -/
def Touched (W : ℕ → Prop) (Q : α → Prop) (l l' : List α) : Prop :=
  l'.length = l.length ∧ ∀ i, l'[i]? = l[i]? ∨ W i ∧ ∃ a, l'[i]? = some a ∧ Q a

theorem Touched.refl (W : ℕ → Prop) (Q : α → Prop) (l : List α) : Touched W Q l l :=
  ⟨rfl, fun _ => .inl rfl⟩

theorem Touched.trans {W : ℕ → Prop} {Q : α → Prop} {l l' l'' : List α} (h : Touched W Q l l')
    (h' : Touched W Q l' l'') : Touched W Q l l'' := by
  refine ⟨h'.1.trans h.1, fun i => ?_⟩
  rcases h'.2 i with hi' | hi'
  · rw [hi']
    exact h.2 i
  · exact .inr hi'

/-- A write inside the positions. -/
theorem touched_overlay {W : ℕ → Prop} {Q : α → Prop} {l w : List α} {off : ℕ}
    (h : off + w.length ≤ l.length) (hW : ∀ i, off ≤ i → i < off + w.length → W i)
    (hQ : ∀ a ∈ w, Q a) : Touched W Q l (overlay l off w) := by
  refine ⟨length_overlay h, fun i => ?_⟩
  rw [getElem?_overlay h]
  by_cases hi : off ≤ i ∧ i < off + w.length
  · rw [if_pos hi]
    have hget : w[i - off]? = some w[i - off] := List.getElem?_eq_getElem (by omega)
    exact .inr ⟨hW i hi.1 hi.2, _, hget, hQ _ (List.getElem_mem _)⟩
  · rw [if_neg hi]
    exact .inl rfl

/-- Several writes inside the positions. -/
theorem touched_overlayAll {W : ℕ → Prop} {Q : α → Prop} {l : List α} {ws : List (ℕ × List α)}
    (h : ∀ w ∈ ws, w.1 + w.2.length ≤ l.length)
    (hW : ∀ w ∈ ws, ∀ i, w.1 ≤ i → i < w.1 + w.2.length → W i)
    (hQ : ∀ w ∈ ws, ∀ a ∈ w.2, Q a) : Touched W Q l (overlayAll l ws) := by
  induction ws generalizing l with
  | nil => exact .refl W Q l
  | cons w ws ih =>
      have hw := h w List.mem_cons_self
      have hfirst := touched_overlay hw (hW w List.mem_cons_self) (hQ w List.mem_cons_self)
      have hrest := ih (l := overlay l w.1 w.2)
        (fun w' hw' => by
          rw [length_overlay hw]
          exact h w' (List.mem_cons_of_mem w hw'))
        (fun w' hw' => hW w' (List.mem_cons_of_mem w hw'))
        fun w' hw' => hQ w' (List.mem_cons_of_mem w hw')
      rw [overlayAll, List.foldl_cons]
      exact hfirst.trans hrest

/-! ### Bytes behind a buffer -/

theorem slice_append_left {l : List α} (t : List α) {off len : ℕ} (h : off + len ≤ l.length) :
    slice (l ++ t) off len = slice l off len :=
  slice_congr fun i _ hi => List.getElem?_append_left (by omega)

theorem overlay_append {l w : List α} (t : List α) {off : ℕ} (h : off + w.length ≤ l.length) :
    overlay (l ++ t) off w = overlay l off w ++ t := by
  rw [overlay, overlay, List.take_append_of_le_length (by omega),
    List.drop_append_of_le_length h, List.append_assoc, List.append_assoc, List.append_assoc]

theorem overlayAll_append {l : List α} (t : List α) {ws : List (ℕ × List α)}
    (h : ∀ w ∈ ws, w.1 + w.2.length ≤ l.length) :
    overlayAll (l ++ t) ws = overlayAll l ws ++ t := by
  induction ws generalizing l with
  | nil => rfl
  | cons w ws ih =>
      have hw := h w List.mem_cons_self
      simp only [overlayAll, List.foldl_cons] at ih ⊢
      rw [overlay_append t hw]
      refine ih fun w' hw' => ?_
      rw [length_overlay hw]
      exact h w' (List.mem_cons_of_mem w hw')

end Windows
