import Mathlib.Tactic.Common
import Ntag424.Session.Session

/-!
# Transcripts

A transport that may answer anything within some bounds, and keeps a transcript of the APDUs
it was sent with its answers. What holds of every transcript holds of every transport.

## Main results

* `wp_transmit`, `keeps_transmit`: one exchange with any transport.
* `wp_transmit_recorded`, `wp_transmitExpecting_recorded`: one exchange is one entry.
* `wp_untouched`: as long as nothing was sent, the world is as it was.
-/

namespace Ntag424

variable {E σ : Type}

/-! ### Any transport -/

section Any

variable {W : Type} {env : (r : List UInt8) → W → Transmit E r → W → Prop} {I : W → Prop} {t : σ}
  {w : W} {J : σ → W → Prop} {apdu : List UInt8}

/-- An exchange. -/
theorem wp_transmit {Q : Response → σ → W → Prop} {R : Fault (SessionError E) → σ → W → Prop}
    (hI : I w) (hQ : ∀ resp w', env apdu w (.ok resp) w' → Q resp t w')
    (hR : ∀ e w', env apdu w (.error e) w' → R (.error (.transport e)) t w') :
    (transmit apdu).wp env I Q R t w := by
  simp only [transmit, Script.wp_bind, Script.wp_request]
  refine ⟨hI, ?_⟩
  intro answer w' hanswer
  cases answer with
  | ok resp => exact Script.wp_pure.mpr (hQ resp w' hanswer)
  | error e => exact Script.wp_fail.mpr (hR e w' hanswer)

/-- What every answer leaves true, an exchange leaves true. -/
theorem keeps_transmit (hJ : ∀ t w answer w', J t w → env apdu w answer w' → J t w') :
    Script.Keeps env J (transmit (E := E) apdu) :=
  fun t w h => wp_transmit trivial (fun _ w' hanswer => hJ t w _ w' h hanswer)
    fun _ w' hanswer => hJ t w _ w' h hanswer

theorem keeps_transmitExpecting (status : ResponseStatus)
    (hJ : ∀ t w answer w', J t w → env apdu w answer w' → J t w') :
    Script.Keeps env J (transmitExpecting (E := E) status apdu) := by
  refine (keeps_transmit hJ).bind fun resp => ?_
  exact (Script.keeps_require _ _).bind fun _ => Script.keeps_pure _

theorem keeps_expectBytes (n : ℕ) (data : List UInt8) :
    Script.Keeps env J (expectBytes (E := E) n data) := by
  rw [expectBytes]
  cases Bytes.ofList? n data with
  | some bytes => exact Script.keeps_pure bytes
  | none => exact Script.keeps_fail _

end Any

/-! ### Recorded exchanges -/

/-- The APDUs sent so far, with their answers. -/
abbrev Transcript (E : Type) := List (List UInt8 × Except E Response)

/-- A transport with these answers, that records every exchange. -/
def Records (answers : List UInt8 → Except E Response → Prop) (apdu : List UInt8)
    (w : Transcript E) (answer : Transmit E apdu) (w' : Transcript E) : Prop :=
  answers apdu answer ∧ w' = w ++ [(apdu, answer)]

/-- A transport that answers anything. -/
def anyAnswer (_ : List UInt8) (_ : Except E Response) : Prop := True

variable {answers : List UInt8 → Except E Response → Prop} {I : Transcript E → Prop} {t : σ}
  {w : Transcript E} {Q : Response → σ → Transcript E → Prop}
  {R : Fault (SessionError E) → σ → Transcript E → Prop} {apdu : List UInt8}

/-- An exchange. -/
theorem wp_transmit_recorded (hI : I w)
    (hQ : ∀ resp, answers apdu (.ok resp) → Q resp t (w ++ [(apdu, .ok resp)]))
    (hR : ∀ e, answers apdu (.error e) → R (.error (.transport e)) t (w ++ [(apdu, .error e)])) :
    (transmit apdu).wp (Records answers) I Q R t w := by
  refine wp_transmit hI ?_ ?_
  · rintro resp _ ⟨hanswer, rfl⟩
    exact hQ resp hanswer
  · rintro e _ ⟨hanswer, rfl⟩
    exact hR e hanswer

/-- An exchange whose answer must have a status. -/
theorem wp_transmitExpecting_recorded {status : ResponseStatus} (hI : I w)
    (hQ : ∀ resp, answers apdu (.ok resp) → desfireStatus resp.sw1 resp.sw2 = status →
      Q resp t (w ++ [(apdu, .ok resp)]))
    (hR : ∀ answer e, answers apdu answer → R (.error e) t (w ++ [(apdu, answer)])) :
    (transmitExpecting status apdu).wp (Records answers) I Q R t w := by
  simp only [transmitExpecting, Script.wp_bind, Script.wp_require, Script.wp_pure]
  refine wp_transmit_recorded hI (fun resp hanswer => ⟨fun hstatus => ?_, fun _ => ?_⟩)
    fun e he => ?_
  · exact hQ resp hanswer hstatus
  · exact hR _ _ hanswer
  · exact hR _ _ he

/-- A body that must have a length is that many bytes, or is refused. -/
theorem wp_expectBytes_recorded {env : (r : List UInt8) → Transcript E → Transmit E r →
    Transcript E → Prop} {n : ℕ} {data : List UInt8} {Q : Bytes n → σ → Transcript E → Prop}
    (hQ : ∀ bytes : Bytes n, data = bytes.toList → Q bytes t w)
    (hR : R (.error (.unexpectedLength data.length n)) t w) :
    (expectBytes n data).wp env I Q R t w := by
  rw [expectBytes]
  cases hbytes : Bytes.ofList? n data with
  | some bytes => exact Script.wp_pure.mpr (hQ bytes (Bytes.ofList?_eq_some_iff.mp hbytes))
  | none => exact Script.wp_fail.mpr hR

/-! ### Traced exchanges -/

/-- A transport with a transcript beside its world. -/
def traced {W : Type} (h : (apdu : List UInt8) → W → Transmit E apdu × W) (apdu : List UInt8)
    (v : W × Transcript E) : Transmit E apdu × (W × Transcript E) :=
  ((h apdu v.1).1, ((h apdu v.1).2, v.2 ++ [(apdu, (h apdu v.1).1)]))

section Traced

variable {W : Type} {h : (apdu : List UInt8) → W → Transmit E apdu × W} {v v' : W × Transcript E}
  {answer : Transmit E apdu}

/-- The world does not notice. -/
theorem answers_of_traced (hanswer : Prog.Answers (traced h) apdu v answer v') :
    Prog.Answers h apdu v.1 answer v'.1 := by
  obtain ⟨rfl, rfl⟩ := Prod.mk.inj hanswer
  rfl

/-- The transcript is one of a transport that may answer anything. -/
theorem records_of_traced (hanswer : Prog.Answers (traced h) apdu v answer v') :
    Records anyAnswer apdu v.2 answer v'.2 := by
  obtain ⟨rfl, rfl⟩ := Prod.mk.inj hanswer
  exact ⟨trivial, rfl⟩

variable {β : Type} {cmd : Cmd E σ β}

/-- What holds of the world holds of the traced world. -/
theorem wp_traced {I : W → Prop} {Q : β → σ → W → Prop} {R : Fault (SessionError E) → σ → W → Prop}
    (hwp : cmd.wp (Prog.Answers h) I Q R t v.1) :
    cmd.wp (Prog.Answers (traced h)) (fun v => I v.1) (fun b t' v' => Q b t' v'.1)
      (fun e t' v' => R e t' v'.1) t v :=
  Script.wp_comap (f := Prod.fst) (fun _ _ _ _ hanswer => answers_of_traced hanswer) hwp

/-- What holds of every transcript holds of the traced one. -/
theorem wp_traced_recorded {Q : β → σ → Transcript E → Prop}
    {R : Fault (SessionError E) → σ → Transcript E → Prop}
    (hwp : cmd.wp (Records anyAnswer) (fun _ => True) Q R t v.2) :
    cmd.wp (Prog.Answers (traced h)) (fun _ => True) (fun b t' v' => Q b t' v'.2)
      (fun e t' v' => R e t' v'.2) t v :=
  Script.wp_comap (f := Prod.snd)
    (fun _ _ _ _ hanswer => records_of_traced hanswer) hwp

/-- As long as nothing was sent, the world is as it was. -/
theorem wp_untouched (p : Prog (Transmit E) β) (w : W) :
    Prog.wp (Prog.Answers (traced h)) (fun _ => True) p (fun _ v' => v'.2 = [] → v'.1 = w)
      (w, []) := by
  refine Prog.wp_keeps (J := fun v : W × Transcript E => v.2 = [] → v.1 = w) ?_ p fun _ => rfl
  intro apdu v answer v' _ hanswer hnil
  rw [(records_of_traced hanswer).2] at hnil
  exact absurd hnil (List.concat_ne_nil _ _)

end Traced

/-! ### Success for everything -/

/-- A transport that answers every APDU with the status of success. -/
def acceptAll (apdu : List UInt8) (w : Transcript E) : Transmit E apdu × Transcript E :=
  let resp : Response := ⟨[], if apdu.head? = some 0x90 then 0x91 else 0x90, 0x00⟩
  (.ok resp, w ++ [(apdu, .ok resp)])

/-- An exchange with the transport that accepts everything. -/
theorem wp_transmit_acceptAll
    (h : ∀ answer, Q ⟨[], if apdu.head? = some 0x90 then 0x91 else 0x90, 0x00⟩ t
      (w ++ [(apdu, answer)])) :
    (transmit apdu).wp (Prog.Answers acceptAll) (fun _ => True) Q R t w := by
  refine wp_transmit trivial ?_ ?_
  · rintro resp w' ⟨⟩
    exact h _
  · rintro e w' ⟨⟩

end Ntag424
