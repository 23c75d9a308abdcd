import Mathlib.Tactic.Common
import Ntag424.Lockstep.Run

/-!
# The Command Counter Wraps

How long the command counter of a session stays fresh. Against any transport, the accepted
exchanges under one set of session keys count up from a first value, so two of them use the
same counter only when they are at least `2^16` exchanges apart. A conforming tag answers more
exchanges than that.

## Main results

* `fresh_run`: exchanges with a use of the counter in common are at least `2^16` apart.
* `wrapped_run`: a session with a conforming tag in which they occur.
-/

namespace Ntag424

variable {P : Primitives} {E S A W : Type}

/-! ### A session with a blank card -/

/-- Opening a session with a blank card. -/
theorem exists_blankSession : ∃ (session : Session (Authenticated AesSuite)) (card : Card Unit),
    Prog.Ends (Prog.Answers (Card.transmit .standard .blank))
      (Session.new.authenticateAes (E := Empty) .standard .key0 (Bytes.zeros 16)
        (Bytes.zeros 16) ())
      ⟨.deselected, ()⟩ (.ok session, ()) card ∧
    AesLockstep session.state card ∧ session.state.history = [] ∧ session.state.cmdCounter = 0 := by
  have hwp : (Session.new.authenticateAes .standard .key0 (TagApp.blank.key () .key0)
      (Bytes.zeros 16)).wp _ (fun _ => True) _ _ () (⟨.deselected, ()⟩ : Card Unit) :=
    Session.wp_authenticateAes (E := Empty) Primitives.standard_lawful (by nofun) rfl .key0
      (Bytes.zeros 16) (fun _ => trivial) fun _ => trivial
  obtain ⟨session, _, card, hend, keys, ti, a', -, -, hstate, rfl⟩ := Script.exists_ends hwp
  refine ⟨session, _, hend, ⟨_, rfl, ?_, ?_, ?_, ?_⟩, ?_, ?_⟩ <;> rw [hstate] <;> rfl

/-- Requests for a key version and nothing else. -/
def KeyVersionOnly {S W : Type} (_ : Session (Authenticated S)) (_ : W) (op : SessionOp) : Prop :=
  op = .getKeyVersion .key0

/-- Asking a blank card for key versions. -/
theorem exists_blankRun (n : ℕ) : ∃ (session₀ session : Session (Authenticated AesSuite))
    (card₀ card : Card Unit),
    Prog.Ends (Prog.Answers (Card.transmit .standard .blank))
      (Session.new.authenticateAes (E := Empty) .standard .key0 (Bytes.zeros 16)
        (Bytes.zeros 16) ())
      ⟨.deselected, ()⟩ (.ok session₀, ()) card₀ ∧
    session₀.state.history = [] ∧
    Run .standard (fun _ _ => .ok ()) (Prog.Answers (Card.transmit .standard .blank))
      KeyVersionOnly session₀ card₀
      (List.replicate n (.getKeyVersion .key0, (.ok () : Except (SessionError Empty) Unit)))
      (some session) card ∧
    session.state.history = macUses 0 n := by
  obtain ⟨session₀, card₀, hend, hlock, hhist, hctr⟩ := exists_blankSession
  obtain ⟨session, card, hrun, -, -, huses⟩ := Run.keyVersions (P := .standard) (fun _ _ => .ok ())
    (show ∀ s (w : Card Unit), KeyVersionOnly s w _ from fun _ _ => rfl)
    (lockstep_iff_aesLockstep.mpr hlock) n
  exact ⟨session₀, session, card₀, card, hend, hhist, hrun,
    by rw [huses, hhist, hctr, List.nil_append]⟩

/-! ### Freshness -/

/-- **Freshness of the command counter.** In every run of a session against any transport, the
history of the keys in use is a sequence of accepted exchanges at consecutive counters, and two
exchanges that use the same counter in their command MACs, response MACs, command IVs or
response IVs are at least `2^16` exchanges apart. -/
theorem fresh_run [HandshakeSuite P S]
    {verify : Bytes signatureLen → Bytes 7 → Except OriginalityError Unit}
    {env : (r : List UInt8) → W → Transmit E r → W → Prop}
    {allowed : Session (Authenticated S) → W → SessionOp → Prop}
    {session₀ session : Session (Authenticated S)} {w₀ w : W} {log : Log E}
    (hrun : Run P verify env allowed session₀ w₀ log (some session) w)
    (hfresh : session₀.state.history = []) :
    ∃ (c : UInt16) (exchanges : List (List CounterUse)),
      session.state.history = exchanges.flatten ∧
      session.state.cmdCounter = c + UInt16.ofNat exchanges.length ∧
      (∀ i us, exchanges[i]? = some us → Exchange (c + UInt16.ofNat i) us) ∧
      ∀ i j us vs u, i < j → exchanges[i]? = some us → exchanges[j]? = some vs → u ∈ us → u ∈ vs →
        u ≠ .unprotected → i + 2 ^ 16 ≤ j := by
  obtain ⟨c, n, hctr, history, hledger, hhist⟩ := hrun.counted hfresh session rfl
  obtain ⟨exchanges, rfl, rfl, hall⟩ := hledger.exchanges
  refine ⟨c, exchanges, by rw [hhist, List.append_nil], hctr, hall, ?_⟩
  intro i j us vs u hij hi hj hu hv hne
  have hbegin := (hall i us hi).begin_eq (hall j vs hj) hu hv hne
  have hdvd := (ctr_eq_iff (Nat.le_of_lt hij)).mp hbegin
  have := Nat.le_of_dvd (by omega) hdvd
  omega

/-- The exchanges of four different questions. -/
theorem fresh_run_questions :
    ∃ (session₀ session : Session (Authenticated AesSuite)) (card₀ card : Card Unit) (c : UInt16)
      (exchanges : List (List CounterUse)),
      Run (E := Empty) .standard (fun _ _ => .ok ())
        (Prog.Answers (Card.transmit .standard .answering))
        (fun _ _ op => op.IsQuestion) session₀ card₀
        ([.getVersion, .getUid, .getKeyVersion .key2, .getTtStatus].map fun op => (op, .ok ()))
        (some session) card ∧
      session.state.history = exchanges.flatten ∧
      (∀ i us, exchanges[i]? = some us → Exchange (c + UInt16.ofNat i) us) ∧
      ∀ i j us vs u, i < j → exchanges[i]? = some us → exchanges[j]? = some vs → u ∈ us → u ∈ vs →
        u ≠ .unprotected → i + 2 ^ 16 ≤ j := by
  let ops : List SessionOp := [.getVersion, .getUid, .getKeyVersion .key2, .getTtStatus]
  have hops : ∀ op ∈ ops, op.IsQuestion := by simp [ops, SessionOp.IsQuestion]
  obtain ⟨session₀, card₀, hstart, hnone⟩ := exists_aesLockstep
  obtain ⟨session, card, hrun, -⟩ := Run.questions (P := .standard) (E := Empty)
    Primitives.standard_lawful (fun _ _ => .ok ()) hops (fun _ _ op hop => hops op hop)
    (lockstep_iff_aesLockstep.mpr hstart)
  obtain ⟨c, exchanges, hflat, -, hall, hapart⟩ := fresh_run hrun hnone
  exact ⟨session₀, session, _, card, c, exchanges, hrun, hflat, hall, hapart⟩

/-- **The counter wraps.** A session with a conforming tag, opened by a first authentication
and used for `2^16 + 1` requests for a key version: the first exchange and the last one use the
same counter in the command MAC and in the response MAC. -/
theorem wrapped_run : ∃ (session₀ session : Session (Authenticated AesSuite))
    (card₀ card : Card Unit)
    (log : Log Empty) (i j : ℕ),
    Prog.Ends (Prog.Answers (Card.transmit .standard .blank))
      (Session.new.authenticateAes (E := Empty) .standard .key0 (Bytes.zeros 16)
        (Bytes.zeros 16) ())
      ⟨.deselected, ()⟩ (.ok session₀, ()) card₀ ∧
    Run .standard (fun _ _ => .ok ()) (Prog.Answers (Card.transmit .standard .blank))
      KeyVersionOnly session₀ card₀ log (some session) card ∧
    i + 1 < j ∧
    session.state.history[i]? = some (.commandMac 0) ∧
    session.state.history[i + 1]? = some (.responseMac 1) ∧
    session.state.history[j]? = some (.commandMac 0) ∧
    session.state.history[j + 1]? = some (.responseMac 1) := by
  obtain ⟨session₀, session, card₀, card, hend, -, hrun, hhist⟩ := exists_blankRun (2 ^ 16 + 1)
  obtain ⟨hcmd₀, hresp₀⟩ := getElem?_macUses (c := 0) (n := 2 ^ 16 + 1) (i := 0) (by omega)
  obtain ⟨hcmd, hresp⟩ := getElem?_macUses (c := 0) (n := 2 ^ 16 + 1) (i := 2 ^ 16) (by omega)
  refine ⟨session₀, session, card₀, card, _, 2 * 0, 2 * 2 ^ 16, hend, hrun, by omega, ?_⟩
  rw [hhist, hcmd₀, hresp₀, hcmd, hresp]
  exact ⟨rfl, rfl, rfl, rfl⟩

end Ntag424
