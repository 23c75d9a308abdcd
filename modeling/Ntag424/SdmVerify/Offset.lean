import Mathlib.Tactic.Common
import Ntag424.SdmVerify.Shift
import Ntag424.Standard

/-!
# Moving a Verifier is Faithful

`with_offset` lets a server verify the text of a URL with the settings of the NDEF file behind
it. A moved verifier begins where the original one does, moved by the same amount, is as
consistent, and computes on a longer or shorter text what the original one computes on its own.
Moving twice is moving by the sum.

## Main results

* `Verifier.start_withOffset`: the first offset moves with the others.
* `Verifier.withOffset_withOffset`: moving twice.
* `Verifier.withOffset_faithful`: all of it.
-/

namespace Ntag424

open Outcome

namespace Verifier

variable {P : Primitives} {v w u : Verifier} {d e : ℤ}

/-! ### The first offset -/

/-- The offsets that `start` compares: all but the end of the encrypted range. -/
def starts (v : Verifier) : List ℕ :=
  v.piccSource.offsets ++ [v.macInputOffset, v.macOffset] ++ v.tamperStatusOffset.toList ++
    (v.encData.map Prod.fst).toList

theorem mem_offsets_of_mem_starts {o : ℕ} (h : o ∈ v.starts) : o ∈ v.offsets := by
  simp only [starts, List.mem_append, List.mem_cons, List.not_mem_nil, or_false,
    Option.mem_toList, or_assoc] at h
  rw [mem_offsets]
  rcases h with h | h | h | h | h
  · exact .inl h
  · exact .inr (.inl h)
  · exact .inr (.inr (.inl h))
  · exact .inr (.inr (.inr (.inl h)))
  · obtain ⟨range, hr, rfl⟩ := Option.map_eq_some_iff.mp h
    exact .inr (.inr (.inr (.inr ⟨range, hr, .inl rfl⟩)))

theorem starts_mapOffsets (f : ℕ → ℕ) : (v.mapOffsets f).starts = v.starts.map f := by
  obtain ⟨mode, src, mk, fk, input, mac, tt, enc⟩ := v
  have hsrc : (src.mapOffsets f).offsets = src.offsets.map f := by
    rcases src with _ | ⟨_ | _, _ | _⟩ | _ <;> rfl
  simp only [starts, mapOffsets, hsrc, List.map_append, List.map_cons, List.map_nil]
  cases tt <;> cases enc <;> rfl

/-- **The start is the lowest offset.** -/
theorem le_start_iff {x : ℕ} (h : v.macInputOffset ≤ noOffset) :
    x ≤ v.start ↔ ∀ o ∈ v.starts, x ≤ o := by
  have hgetD : ∀ o : Option ℕ, x ≤ noOffset →
      (x ≤ o.getD noOffset ↔ ∀ a, o = some a → x ≤ a) := by
    intro o hx
    cases o with
    | none => simpa using hx
    | some a => simp
  have hpicc : x ≤ noOffset →
      (x ≤ piccStart v.piccSource ↔ ∀ o ∈ v.piccSource.offsets, x ≤ o) := by
    intro hx
    cases v.piccSource with
    | encrypted off => simp [piccStart, PiccSource.offsets]
    | plain u c =>
        simp only [piccStart, le_min_iff, hgetD _ hx, PiccSource.offsets, List.forall_mem_append,
          Option.mem_toList]
    | none => simpa [piccStart, PiccSource.offsets] using hx
  simp only [start, le_min_iff, starts, List.forall_mem_append, List.forall_mem_cons,
    List.not_mem_nil, false_implies, implies_true, and_true, Option.mem_toList]
  by_cases hx : x ≤ noOffset
  · rw [hpicc hx, hgetD _ hx, hgetD _ hx]
    simp only [and_assoc]
  · exact iff_of_false (fun hle => hx (hle.1.1.1.2.trans h)) fun hle => hx (hle.1.1.2.1.trans h)

/-- The start of a verifier whose offsets are moved. -/
theorem start_mapOffsets {f : ℕ → ℕ} {k n : ℕ} (hinput : v.macInputOffset ≤ noOffset)
    (hinput' : f v.macInputOffset ≤ noOffset) (hf : ∀ o ∈ v.offsets, f o + k = o + n) :
    (v.mapOffsets f).start + k = v.start + n := by
  have hstarts : ∀ o ∈ v.starts, f o + k = o + n := fun o ho => hf o (mem_offsets_of_mem_starts ho)
  have hv : ∀ o ∈ v.starts, v.start ≤ o := (le_start_iff hinput).mp (Nat.le_refl _)
  have hw : ∀ o ∈ v.starts, (v.mapOffsets f).start ≤ f o := by
    intro o ho
    refine (le_start_iff (v := v.mapOffsets f) hinput').mp (Nat.le_refl _) (f o) ?_
    rw [starts_mapOffsets]
    exact List.mem_map_of_mem ho
  have hle : (v.mapOffsets f).start + k - n ≤ v.start := by
    refine (le_start_iff hinput).mpr fun o ho => ?_
    have := hw o ho
    have := hstarts o ho
    omega
  have hge : v.start + n - k ≤ (v.mapOffsets f).start := by
    refine (le_start_iff (v := v.mapOffsets f) hinput').mpr fun o' ho' => ?_
    rw [starts_mapOffsets] at ho'
    obtain ⟨o, ho, rfl⟩ := List.mem_map.mp ho'
    have := hv o ho
    have := hstarts o ho
    omega
  omega

/-- A consistent verifier has its MAC input in the range of an offset. -/
theorem macInputOffset_le (hv : v.validate = .ok ()) : v.macInputOffset ≤ 0xFFFFFF := by
  obtain ⟨-, pd, fr, tt, -, hfr, -⟩ := validate_eq_ok_iff.mp hv
  rw [rebuildFileRead] at hfr
  obtain ⟨input, hinput, -⟩ := Except.bind_eq_ok_iff.mp hfr
  rw [← Offset.new_eq_ok_iff.mp hinput]
  exact input.le_max

/-- **The start moves with the offsets.** -/
theorem start_withOffset (hv : v.validate = .ok ()) (hw : v.withOffset d = some w) :
    (w.start : ℤ) = v.start + d := by
  obtain ⟨hmove, rfl⟩ := withOffset_eq_some_iff.mp hw
  have hinput := macInputOffset_le hv
  have hbound := hmove v.macInputOffset (mem_offsets.mpr (.inr (.inl rfl)))
  have hstart := start_mapOffsets (v := v) (f := movedBy d) (k := (-d).toNat) (n := d.toNat)
    (by rw [noOffset]; omega) (by rw [Movable] at hbound; rw [movedBy, noOffset]; omega)
    fun o ho => by
      have := hmove o ho
      rw [Movable] at this
      rw [movedBy]
      omega
  omega

/-! ### Moving twice -/

/-- **Moving twice is moving by the sum.** -/
theorem withOffset_withOffset (hv : v.validate = .ok ()) (hw : v.withOffset d = some w)
    (hu : w.withOffset e = some u) : v.withOffset (d + e) = some u := by
  obtain ⟨hmove, rfl⟩ := withOffset_eq_some_iff.mp hw
  obtain ⟨hmove', rfl⟩ := withOffset_eq_some_iff.mp hu
  have hmove' : ∀ o ∈ v.offsets, Movable e (movedBy d o) :=
    fun o ho => hmove' _ (mem_offsets_mapOffsets ho)
  have hinput := macInputOffset_le hv
  have hmem : v.macInputOffset ∈ v.offsets := mem_offsets.mpr (.inr (.inl rfl))
  have hmin : d + e ≠ -2 ^ 31 := by
    have h := hmove _ hmem
    have h' := hmove' _ hmem
    rw [Movable, movedBy] at h'
    rw [Movable] at h
    omega
  refine withOffset_eq_some_iff.mpr ⟨fun o ho => ?_, ?_⟩
  · have h := hmove o ho
    have h' := hmove' o ho
    rw [Movable, movedBy] at h'
    rw [Movable] at h ⊢
    omega
  · rw [mapOffsets_mapOffsets]
    refine mapOffsets_congr fun o ho => ?_
    have h := hmove o ho
    have h' := hmove' o ho
    rw [Movable] at h h'
    simp only [Function.comp_apply, movedBy]
    omega

/-! ### Verification -/

/-- Positions moved there and back. -/
theorem movedBy_movedBy {k : ℕ} {e : SdmError} :
    SdmError.movedBy (-k) (SdmError.movedBy k e) = e := by
  have hback : ∀ o : ℕ, movedBy (-k) (movedBy k o) = o := by
    intro o
    simp only [movedBy]
    omega
  cases e <;> simp only [SdmError.movedBy, hback]

/-- **A verifier moved back by `k`** computes on what follows the first `k` bytes what the original
one computes on everything. -/
theorem verifyInner_drop {k : ℕ} (hw : v.withOffset (-k) = some w) {x : List UInt8}
    (hlen : k ≤ x.length) (fk mk : Key) :
    w.verifyInner P (x.drop k) fk mk =
      mapError (SdmError.movedBy (-k)) (v.verifyInner P x fk mk) := by
  obtain ⟨hmove, rfl⟩ := withOffset_eq_some_iff.mp hw
  have hprefix : (x.take k).length = k := by
    rw [List.length_take]
    omega
  have hback : v = (v.mapOffsets (movedBy (-k))).mapOffsets ((x.take k).length + ·) := by
    rw [mapOffsets_mapOffsets, hprefix]
    refine (mapOffsets_id v).symm.trans (mapOffsets_congr fun o ho => ?_)
    have := hmove o ho
    rw [Movable] at this
    simp only [Function.comp_apply, movedBy, id_eq]
    omega
  have happend := verifyInner_append (P := P) (v := v.mapOffsets (movedBy (-k))) (x.take k)
    (d := x.drop k) fk mk
  rw [List.take_append_drop, ← hback, hprefix] at happend
  rw [happend, mapError_mapError]
  refine (mapError_eq_self fun e _ => ?_).symm
  exact movedBy_movedBy

/-- **`with_offset` is a faithful shift** of a consistent verifier: of its start and its
consistency, of what it computes behind a longer or shorter prefix, and in composition. -/
theorem withOffset_faithful (P : Primitives) {v w : Verifier} {d : ℤ} (hv : v.validate = .ok ())
    (hw : v.withOffset d = some w) :
    ((w.start : ℤ) = v.start + d ∧ w.validate = .ok ()) ∧
    (∀ (p x : List UInt8) (fk mk : Key), (p.length : ℤ) = d →
      w.verifyWithMetaKey P (p ++ x) fk mk =
        mapError (SdmError.movedBy d) (v.verifyWithMetaKey P x fk mk)) ∧
    (∀ (k : ℕ) (x : List UInt8) (fk mk : Key), d = -k → k ≤ x.length →
      w.verifyWithMetaKey P (x.drop k) fk mk =
        mapError (SdmError.movedBy d) (v.verifyWithMetaKey P x fk mk)) ∧
    ∀ e u, w.withOffset e = some u → v.withOffset (d + e) = some u := by
  refine ⟨⟨start_withOffset hv hw, validate_withOffset hv hw⟩, ?_, ?_,
    fun e u hu => withOffset_withOffset hv hw hu⟩
  · rintro p x fk mk rfl
    obtain ⟨-, rfl⟩ := withOffset_eq_some_iff.mp hw
    have hfun : movedBy (p.length : ℤ) = (p.length + ·) := funext fun o => movedBy_natCast _ o
    rw [verifyWithMetaKey, verifyWithMetaKey, hfun]
    exact verifyInner_append p fk mk
  · rintro k x fk mk rfl hlen
    exact verifyInner_drop hw hlen fk mk

/-- All mirrors, moved by five and back. -/
theorem withOffset_faithful_mirroringAll :
    ∃ w, (mirroringAll .aes).withOffset 5 = some w ∧ w.start = (mirroringAll .aes).start + 5 ∧
      w.validate = .ok () ∧
      (∀ (p x : List UInt8) (fk mk : Key), p.length = 5 →
        w.verifyWithMetaKey .standard (p ++ x) fk mk =
          mapError (SdmError.movedBy 5) ((mirroringAll .aes).verifyWithMetaKey .standard x fk mk)) ∧
      w.withOffset (-5) = some (mirroringAll .aes) ∧
      ∀ x : List UInt8, 5 ≤ x.length → ∀ fk mk : Key,
        (mirroringAll .aes).verifyWithMetaKey .standard (x.drop 5) fk mk =
          mapError (SdmError.movedBy (-5)) (w.verifyWithMetaKey .standard x fk mk) := by
  have hmove : (mirroringAll .aes).withOffset 5 = some ⟨.aes, .encrypted 0x17, some .key2, .key1,
      0x17, 0xA5, some 0x57, some (0x57, 0x97)⟩ := rfl
  obtain ⟨⟨hstart, hvalid⟩, hlonger, -, -⟩ :=
    withOffset_faithful .standard (v := mirroringAll .aes) rfl hmove
  have hback : (⟨.aes, .encrypted 0x17, some .key2, .key1, 0x17, 0xA5, some 0x57,
      some (0x57, 0x97)⟩ : Verifier).withOffset (-5) = some (mirroringAll .aes) := rfl
  obtain ⟨-, -, hshorter, -⟩ := withOffset_faithful .standard hvalid hback
  refine ⟨_, hmove, Int.ofNat.inj hstart, hvalid, fun p x fk mk hp => hlonger p x fk mk ?_, hback,
    fun x hx fk mk => hshorter 5 x fk mk rfl hx⟩
  exact congrArg Int.ofNat hp

end Verifier

end Ntag424
